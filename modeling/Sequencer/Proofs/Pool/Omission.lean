import Sequencer.Proofs.Pool.Calls

/-!
# Leaving jobs out

Some jobs of a run may be left out, as long as all that were handled are kept and all whose crashes
were raised are not. Without the others, the kept jobs get new numbers, and there is a run in which
the same happens to them in the same order (`Session.Run.without`): they are sent, accepted,
cancelled and handled with the same sources, tickets, answers and outcomes.

The owner of that run takes its completions one at a time, since a call that a crash ended has no
counterpart where nothing crashes.
-/

namespace Sequencer

/-! ## New numbers -/

namespace JobId

variable {kept : JobId → Bool}

/-- The number of a job when only the kept jobs are counted. -/
def renumber (kept : JobId → Bool) (id : JobId) : JobId :=
  ⟨(List.range id.number).countP fun number => kept ⟨number⟩⟩

theorem number_renumber_succ (kept : JobId → Bool) (number : Nat) :
    (renumber kept ⟨number + 1⟩).number =
      (renumber kept ⟨number⟩).number + if kept ⟨number⟩ then 1 else 0 := by
  simp [renumber, List.range_succ, List.countP_append, List.countP_cons]

theorem number_renumber_le {first second : JobId} (le : first.number ≤ second.number) :
    (first.renumber kept).number ≤ (second.renumber kept).number := by
  apply List.Sublist.countP_le
  exact List.range_sublist.mpr le

theorem number_renumber_lt {first second : JobId} (keep : kept first)
    (less : first.number < second.number) :
    (first.renumber kept).number < (second.renumber kept).number := by
  have next := number_renumber_succ kept first.number
  rw [if_pos keep] at next
  have upTo : (renumber kept ⟨first.number + 1⟩).number ≤ (second.renumber kept).number :=
    number_renumber_le less
  exact Nat.lt_of_lt_of_le (Nat.lt_of_lt_of_eq (Nat.lt_succ_self _) next.symm) upTo

/-- Kept jobs get different numbers. -/
theorem renumber_inj {first second : JobId} (keepFirst : kept first) (keepSecond : kept second) :
    first.renumber kept = second.renumber kept ↔ first = second := by
  constructor
  · intro same
    rcases first with ⟨first⟩
    rcases second with ⟨second⟩
    rcases Nat.lt_trichotomy first second with less | rfl | less
    · exact absurd (congrArg JobId.number same) (Nat.ne_of_lt (number_renumber_lt keepFirst less))
    · rfl
    · exact absurd (congrArg JobId.number same) (Nat.ne_of_gt (number_renumber_lt keepSecond less))
  · rintro rfl
    rfl

end JobId

/-! ## Pools without some jobs -/

section Without

variable {τ : Type} {kept : JobId → Bool}

/-- What belongs to a job, under its new number, if the job is kept. -/
def Job.without {α β : Type} (kept : JobId → Bool) (make : JobId → α → β) (id : JobId) (own : α) :
    Option β :=
  if kept id then some (make (id.renumber kept) own) else none

namespace Job

variable {α β : Type} {make : JobId → α → β} {id : JobId} {own : α}

theorem without_of_kept (keep : kept id) :
    without kept make id own = some (make (id.renumber kept) own) :=
  if_pos keep

theorem without_of_not_kept (omitted : kept id = false) : without kept make id own = none :=
  if_neg (by simp [omitted])

end Job

namespace Pool

/-- The pending jobs without those that are left out. -/
def jobsWithout (kept : JobId → Bool) (jobs : List (JobId × τ)) : List (JobId × τ) :=
  jobs.filterMap fun job => Job.without kept Prod.mk job.1 job.2

theorem jobsWithout_cons_of_kept {id : JobId} (keep : kept id) (ticket : τ)
    (jobs : List (JobId × τ)) :
    jobsWithout kept ((id, ticket) :: jobs) =
      (id.renumber kept, ticket) :: jobsWithout kept jobs :=
  List.filterMap_cons_some (Job.without_of_kept keep)

theorem jobsWithout_cons_of_not_kept {id : JobId} (omitted : kept id = false) (ticket : τ)
    (jobs : List (JobId × τ)) : jobsWithout kept ((id, ticket) :: jobs) = jobsWithout kept jobs :=
  List.filterMap_cons_none (Job.without_of_not_kept omitted)

/-- Looking a kept job up by its new number finds the same. -/
theorem find?_jobsWithout {id : JobId} (keep : kept id) (jobs : List (JobId × τ)) :
    ((jobsWithout kept jobs).find? (·.1 = id.renumber kept)).map Prod.snd =
      (jobs.find? (·.1 = id)).map Prod.snd := by
  induction jobs with
  | nil => rfl
  | cons job jobs inductionHypothesis =>
      rcases job with ⟨other, ticket⟩
      cases keepOther : kept other with
      | false =>
          have different : other ≠ id := by
            rintro rfl
            simp [keep] at keepOther
          rw [jobsWithout_cons_of_not_kept keepOther,
            List.find?_cons_of_neg (by simpa using different)]
          exact inductionHypothesis
      | true =>
          rw [jobsWithout_cons_of_kept keepOther]
          by_cases same : other = id
          · subst same
            simp
          · rw [List.find?_cons_of_neg (by simpa [JobId.renumber_inj keepOther keep] using same),
              List.find?_cons_of_neg (by simpa using same)]
            exact inductionHypothesis

theorem filter_jobsWithout {id : JobId} (keep : kept id) (jobs : List (JobId × τ)) :
    jobsWithout kept (jobs.filter (·.1 ≠ id)) =
      (jobsWithout kept jobs).filter (·.1 ≠ id.renumber kept) := by
  induction jobs with
  | nil => rfl
  | cons job jobs inductionHypothesis =>
      rcases job with ⟨other, ticket⟩
      by_cases same : other = id
      · subst same
        rw [List.filter_cons_of_neg (by simp), jobsWithout_cons_of_kept keep,
          List.filter_cons_of_neg (by simp)]
        exact inductionHypothesis
      · rw [List.filter_cons_of_pos (by simpa using same)]
        cases keepOther : kept other with
        | false =>
            rw [jobsWithout_cons_of_not_kept keepOther, jobsWithout_cons_of_not_kept keepOther]
            exact inductionHypothesis
        | true =>
            rw [jobsWithout_cons_of_kept keepOther, jobsWithout_cons_of_kept keepOther,
              List.filter_cons_of_pos (by simpa [JobId.renumber_inj keepOther keep] using same),
              inductionHypothesis]

theorem jobsWithout_filter_of_not_kept {id : JobId} (omitted : kept id = false)
    (jobs : List (JobId × τ)) :
    jobsWithout kept (jobs.filter (·.1 ≠ id)) = jobsWithout kept jobs := by
  rw [jobsWithout, List.filterMap_filter]
  apply List.filterMap_congr
  rintro ⟨other, ticket⟩ -
  by_cases same : other = id
  · subst same
    rw [Job.without_of_not_kept omitted]
    exact if_neg (by simp)
  · exact if_pos (by simpa using same)

end Pool

def Task.without (kept : JobId → Bool) (task : Task) : Option Task :=
  Job.without kept Task.mk task.id task.source

def Completion.without (kept : JobId → Bool) (completion : Completion) : Option Completion :=
  Job.without kept Completion.mk completion.id completion.result

/-- A worker without a job that is left out does nothing. -/
def Worker.without (kept : JobId → Bool) : Worker → Worker
  | .idle => .idle
  | .holding task => (task.without kept).elim .idle .holding
  | .compiling task => (task.without kept).elim .idle .compiling
  | .finished completion => (completion.without kept).elim .idle .finished

/-- A pool without the jobs that are left out. -/
def Pool.without (kept : JobId → Bool) (pool : Pool τ) : Pool τ where
  bound := pool.bound
  queue := pool.queue.filterMap (Task.without kept)
  workers := pool.workers.map (Worker.without kept)
  completions := pool.completions.filterMap (Completion.without kept)
  pending := jobsWithout kept pool.pending
  cancelled := (pool.cancelled.filter kept).map (JobId.renumber kept)
  nextId := (JobId.renumber kept ⟨pool.nextId⟩).number

namespace Pool

variable {pool : Pool τ}

theorem without_start (workers : Nat) (bound : Option Nat) :
    (start workers bound : Pool τ).without kept = start workers bound := by
  simp [without, start, jobsWithout, Worker.without, JobId.renumber]

@[simp]
theorem without_setWorker (pool : Pool τ) (index : Nat) (worker : Worker) :
    (pool.setWorker index worker).without kept =
      (pool.without kept).setWorker index (worker.without kept) := by
  simp [without, setWorker, List.map_set]

/-- A worker that goes on with what it does changes nothing. -/
theorem setWorker_self {index : Nat} {worker : Worker}
    (found : pool.workers[index]? = some worker) : pool.setWorker index worker = pool := by
  obtain ⟨inside, same⟩ := List.getElem?_eq_some_iff.mp found
  rw [setWorker, ← same, List.set_getElem_self]

theorem getElem?_workers_without (kept : JobId → Bool) {index : Nat} {worker : Worker}
    (found : pool.workers[index]? = some worker) :
    (pool.without kept).workers[index]? = some (worker.without kept) := by
  simp [without, found]

theorem not_isFull_without (room : pool.isFull = false) : (pool.without kept).isFull = false := by
  unfold isFull at room ⊢
  rw [show (pool.without kept).bound = pool.bound from rfl]
  cases limit : pool.bound with
  | none => rfl
  | some bound =>
      have shorter : (pool.without kept).queue.length ≤ pool.queue.length :=
        List.length_filterMap_le ..
      rw [limit] at room
      simp only [decide_eq_false_iff_not, Nat.not_le] at room ⊢
      exact Nat.lt_of_le_of_lt shorter room

theorem ticket?_without {id : JobId} (keep : kept id) (pool : Pool τ) :
    (pool.without kept).ticket? (id.renumber kept) = pool.ticket? id :=
  find?_jobsWithout keep pool.pending

theorem without_release {id : JobId} (keep : kept id) (pool : Pool τ) :
    (pool.release id).without kept = (pool.without kept).release (id.renumber kept) := by
  simp only [release, without]
  rw [filter_jobsWithout keep]

theorem without_release_of_not_kept {id : JobId} (omitted : kept id = false) (pool : Pool τ) :
    (pool.release id).without kept = pool.without kept := by
  simp only [release, without]
  rw [jobsWithout_filter_of_not_kept omitted]

theorem mem_cancelled_without {id : JobId} (keep : kept id) :
    id.renumber kept ∈ (pool.without kept).cancelled ↔ id ∈ pool.cancelled := by
  simp only [without, List.mem_map, List.mem_filter]
  constructor
  · rintro ⟨other, ⟨flagged, keepOther⟩, same⟩
    rwa [(JobId.renumber_inj keepOther keep).mp same] at flagged
  · intro flagged
    exact ⟨id, ⟨flagged, keep⟩, rfl⟩

theorem isPending_without {id : JobId} (keep : kept id) :
    (pool.without kept).isPending (id.renumber kept) = pool.isPending id := by
  have known (pool : Pool τ) (id : JobId) : pool.isPending id = (pool.ticket? id).isSome := by
    rw [isPending, ticket?, Option.isSome_map, List.isSome_find?]
  rw [known, known, ticket?_without keep]

theorem cancel_without {id : JobId} (keep : kept id) (pool : Pool τ) :
    (pool.without kept).cancel (id.renumber kept) =
      ((pool.cancel id).1, (pool.cancel id).2.without kept) := by
  unfold cancel
  rw [isPending_without keep]
  split
  · simp [without, keep]
  · rfl

theorem without_cancel_of_not_kept {id : JobId} (omitted : kept id = false) (pool : Pool τ) :
    (pool.cancel id).2.without kept = pool.without kept := by
  unfold cancel
  split
  · simp [without, omitted]
  · rfl

theorem without_send (pool : Pool τ) (source : List Char) :
    (pool.send source).without kept =
      if kept ⟨pool.nextId⟩ then (pool.without kept).send source else pool.without kept := by
  have number := JobId.number_renumber_succ kept pool.nextId
  cases keep : kept ⟨pool.nextId⟩ with
  | false =>
      simp [without, send, Task.without, Job.without_of_not_kept keep, number, keep]
  | true =>
      simp [without, send, Task.without, Job.without_of_kept keep, number, keep]

theorem without_register {id : JobId} (pool : Pool τ) (ticket : τ) :
    (pool.register id ticket).without kept =
      if kept id then (pool.without kept).register (id.renumber kept) ticket
      else pool.without kept := by
  cases keep : kept id with
  | false => simp [without, register, jobsWithout, Job.without_of_not_kept keep]
  | true => simp [without, register, jobsWithout, Job.without_of_kept keep]

/-- A worker does the same with a kept job, and nothing with one that is left out. -/
theorem Works.without (kept : JobId → Bool) {backend : Backend} {next : Pool τ} {index : Nat}
    (works : Works backend pool index next) :
    next.without kept = pool.without kept ∨
      Works backend (pool.without kept) index (next.without kept) := by
  -- A worker whose job is left out was idle there and stays idle.
  have unchanged {old new : Worker} (found : pool.workers[index]? = some old)
      (same : new.without kept = old.without kept) :
      (pool.setWorker index new).without kept = pool.without kept := by
    rw [without_setWorker, same, setWorker_self (getElem?_workers_without kept found)]
  cases works with
  | @take task rest found waiting =>
      have here := getElem?_workers_without kept found
      cases keep : kept task.id with
      | false =>
          have unqueued : ({ pool with queue := rest } : Pool τ).without kept =
              pool.without kept := by
            simp [Pool.without, waiting, Task.without, Job.without_of_not_kept keep]
          refine .inl ?_
          rw [without_setWorker, unqueued, Worker.without, Task.without,
            Job.without_of_not_kept keep]
          exact setWorker_self here
      | true =>
          have queued : (pool.without kept).queue =
              ⟨task.id.renumber kept, task.source⟩ :: rest.filterMap (Task.without kept) := by
            simp [Pool.without, waiting, Task.without, Job.without_of_kept keep]
          refine .inr ?_
          rw [without_setWorker, Worker.without, Task.without, Job.without_of_kept keep]
          exact .take here queued
  | @heed task found flagged =>
      have here := getElem?_workers_without kept found
      cases keep : kept task.id with
      | false =>
          exact .inl (unchanged found (by
            simp [Worker.without, Task.without, Completion.without, Job.without_of_not_kept keep]))
      | true =>
          refine .inr ?_
          rw [without_setWorker, Worker.without, Completion.without, Job.without_of_kept keep]
          rw [Worker.without, Task.without, Job.without_of_kept keep] at here
          exact .heed here ((mem_cancelled_without keep).mpr flagged)
  | @compile task found unflagged =>
      have here := getElem?_workers_without kept found
      cases keep : kept task.id with
      | false =>
          exact .inl (unchanged found (by
            simp [Worker.without, Task.without, Job.without_of_not_kept keep]))
      | true =>
          refine .inr ?_
          rw [without_setWorker, Worker.without, Task.without, Job.without_of_kept keep]
          rw [Worker.without, Task.without, Job.without_of_kept keep] at here
          exact .compile here (unflagged ∘ (mem_cancelled_without keep).mp)
  | @complete task found =>
      have here := getElem?_workers_without kept found
      cases keep : kept task.id with
      | false =>
          exact .inl (unchanged found (by
            simp [Worker.without, Task.without, Completion.without, Job.without_of_not_kept keep]))
      | true =>
          refine .inr ?_
          rw [without_setWorker, Worker.without, Completion.without, Job.without_of_kept keep]
          rw [Worker.without, Task.without, Job.without_of_kept keep] at here
          exact .complete here
  | @handBack completion found =>
      have here := getElem?_workers_without kept found
      rw [Worker.without, Completion.without] at here
      cases keep : kept completion.id with
      | false =>
          have unlisted : ({ pool with completions := pool.completions ++ [completion] } :
              Pool τ).without kept = pool.without kept := by
            simp [Pool.without, Completion.without, Job.without_of_not_kept keep]
          rw [Job.without_of_not_kept keep] at here
          refine .inl ?_
          rw [without_setWorker, unlisted]
          exact setWorker_self here
      | true =>
          have listed : ({ pool with completions := pool.completions ++ [completion] } :
              Pool τ).without kept =
              { pool.without kept with
                completions := (pool.without kept).completions ++
                  [⟨completion.id.renumber kept, completion.result⟩] } := by
            simp [Pool.without, Completion.without, Job.without_of_kept keep]
          rw [Job.without_of_kept keep] at here
          refine .inr ?_
          rw [without_setWorker, listed]
          exact .handBack here

/-- The outcome of a kept job is handed out in the same way. -/
theorem takeOne?_without {next : Pool τ} {id : JobId} {ticket : τ} {outcome : Outcome}
    (keep : kept id) (taken : pool.takeOne? = some ⟨next, id, .ok (some (ticket, outcome))⟩) :
    (pool.without kept).takeOne? =
      some ⟨next.without kept, id.renumber kept, .ok (some (ticket, outcome))⟩ := by
  have known := ticket?_of_answer taken rfl
  dsimp only at known
  rw [takeOne?_eq_some_iff] at taken ⊢
  rcases taken with ⟨-, completion, rest, completed, same⟩
  rw [Receipt.mk.injEq] at same
  rcases same with ⟨rfl, rfl, answer⟩
  refine ⟨?_, ⟨completion.id.renumber kept, completion.result⟩,
    rest.filterMap (Completion.without kept), ?_, ?_⟩
  · have inside := mem_pending_of_ticket? ((ticket?_without keep pool).trans known)
    exact List.ne_nil_of_mem inside
  · simp [without, completed, Completion.without, Job.without_of_kept keep]
  · rw [without_release keep, ticket?_without keep, answer]
    rfl

/-- The crash of a job that is left out takes nothing away. -/
theorem without_takeOne?_of_not_kept {receipt : Receipt τ} (omitted : kept receipt.id = false)
    (taken : pool.takeOne? = some receipt) : receipt.pool.without kept = pool.without kept := by
  rcases takeOne?_eq_some_iff.mp taken with ⟨-, completion, rest, completed, rfl⟩
  rw [without_release_of_not_kept omitted]
  simp [without, completed, Completion.without, Job.without_of_not_kept omitted]

end Pool

/-! ## Sessions without some jobs -/

namespace Event

/-- The job that an event of the owner is about. -/
def job? : Event τ → Option JobId
  | .sent id _ | .accepted id _ | .cancelled id _ | .handled id .. | .raised id .. => some id
  | _ => none

/-- An event that is about a job under its new number. -/
def renumber (kept : JobId → Bool) : Event τ → Event τ
  | .sent id source => .sent (id.renumber kept) source
  | .accepted id ticket => .accepted (id.renumber kept) ticket
  | .cancelled id wasPending => .cancelled (id.renumber kept) wasPending
  | .handled id ticket outcome => .handled (id.renumber kept) ticket outcome
  | .raised id ticket crash => .raised (id.renumber kept) ticket crash
  | event => event

/-- An event that is about a kept job, under its new number. -/
def without (kept : JobId → Bool) (event : Event τ) : Option (Event τ) :=
  event.job?.bind fun id => if kept id then some (event.renumber kept) else none

end Event

namespace Trace

/-- The events that are about jobs. -/
def ofJobs (trace : List (Event τ)) : List (Event τ) := trace.filter (·.job?.isSome)

/-- The events that are about kept jobs, under their new numbers. -/
def without (kept : JobId → Bool) (trace : List (Event τ)) : List (Event τ) :=
  trace.filterMap (Event.without kept)

end Trace

/-- Where the owner is when it takes completions one at a time and does nothing with jobs that are
left out. -/
def Stage.without (kept : JobId → Bool) : Stage τ → Stage τ
  | .registering id ticket =>
      if kept id then .registering (id.renumber kept) ticket else .free
  | _ => .free

namespace Stage

theorem without_brokenOff (call : Call) :
    (brokenOff call : Stage τ).without kept = .free := by
  unfold brokenOff
  split <;> rfl

theorem isDismissed_brokenOff (call : Call) :
    (brokenOff call : Stage τ).isDismissed = false := by
  unfold brokenOff
  split <;> rfl

theorem isDismissed_without (kept : JobId → Bool) (stage : Stage τ) :
    (stage.without kept).isDismissed = false := by
  cases stage with
  | registering id ticket =>
      cases keep : kept id <;> simp [without, keep, isDismissed]
  | _ => rfl

end Stage

namespace Session

variable {backend : Backend}

/-- A session without the jobs that are left out. -/
def without (kept : JobId → Bool) (session : Session τ) : Session τ :=
  ⟨session.pool.without kept, session.stage.without kept, []⟩

/-- An owner that lets its workers go does nothing with jobs from then on. -/
theorem Step.without_of_isDismissed {first last : Session τ} {event : Event τ}
    (step : Step backend first event last) (dismissed : first.stage.isDismissed) :
    last.stage.isDismissed ∧ event.without kept = none := by
  cases step with
  | finish | work | leave => exact ⟨by assumption, rfl⟩
  | abandon unwound => exact ⟨rfl, rfl⟩
  | _ => cases dismissed

/-- An owner that lets its workers go begins with an event that is about no job. -/
theorem Step.without_of_dismissing (kept : JobId → Bool) {first last : Session τ} {event : Event τ}
    (step : Step backend first event last) (going : first.stage.isDismissed = false)
    (dismissed : last.stage.isDismissed) : event.without kept = none := by
  cases step with
  | handleBreaking | raise =>
      rw [Stage.isDismissed_brokenOff] at dismissed
      cases dismissed
  | abandon | dismiss => rfl
  | finish => cases going
  | work | leave =>
      rw [going] at dismissed
      cases dismissed
  | _ => cases dismissed

/-- A kept job is handled in a call that waits for one completion. -/
theorem exists_run_handle_without {pool next : Pool τ} {id : JobId} {ticket : τ} {outcome : Outcome}
    (keep : kept id) (taken : pool.takeOne? = some ⟨next, id, .ok (some (ticket, outcome))⟩) :
    ∃ trace, Run backend ⟨pool.without kept, .free, []⟩ trace ⟨next.without kept, .free, []⟩ ∧
      Trace.ofJobs trace = (Event.without kept (.handled id ticket outcome)).toList := by
  refine ⟨[.began .waitOne, .handled (id.renumber kept) ticket outcome, .returned .waitOne 1],
    ?_, ?_⟩
  · apply Run.cons .begin
    apply Run.cons (.handle rfl (Pool.takeOne?_without keep taken))
    exact .cons (.comeBack rfl (.inr (.inl rfl))) .refl
  · simp [Trace.ofJobs, Event.without, Event.job?, Event.renumber, keep]

/-- What is done with a kept job is done without the others too. -/
theorem Step.without (kept : JobId → Bool) {first last : Session τ} {event : Event τ}
    (step : Step backend first event last) (placed : Placed first)
    (kept_of_handled : ∀ id ticket outcome, event = .handled id ticket outcome → kept id)
    (omitted_of_raised : ∀ id ticket crash, event = .raised id ticket crash → kept id = false)
    (going : last.stage.isDismissed = false) :
    ∃ trace, Run backend (first.without kept) trace (last.without kept) ∧
      Trace.ofJobs trace = (event.without kept).toList := by
  have staffed {pool : Pool τ} {stage : Stage τ} {gone : List Nat}
      (placed : Placed ⟨pool, stage, gone⟩) : ¬ (pool.without kept).IsDeserted [] := by
    intro deserted
    have workers : 0 < (pool.without kept).workers.length := by
      simpa [Pool.without, List.length_pos_iff] using placed.staffed
    exact List.not_mem_nil (deserted 0 workers)
  cases step with
  | refuse | refuseDeserted | begin | comeBack => exact ⟨[], .refl, rfl⟩
  | @send pool gone source ticket _ room =>
      cases keep : kept ⟨pool.nextId⟩ with
      | false =>
          refine ⟨[], ?_, by simp [Trace.ofJobs, Event.without, Event.job?, keep]⟩
          simp only [Session.without, Pool.without_send, Stage.without, keep]
          exact .refl
      | true =>
          refine ⟨[.sent (JobId.renumber kept ⟨pool.nextId⟩) source], ?_, by
            simp [Trace.ofJobs, Event.without, Event.job?, Event.renumber, keep]⟩
          simp only [Session.without, Pool.without_send, Stage.without, keep]
          exact .cons (.send ticket (staffed placed) (Pool.not_isFull_without room)) .refl
  | @accept pool gone id ticket =>
      cases keep : kept id with
      | false =>
          refine ⟨[], ?_, by simp [Trace.ofJobs, Event.without, Event.job?, keep]⟩
          simp only [Session.without, Pool.without_register, Stage.without, keep]
          exact .refl
      | true =>
          refine ⟨[.accepted (id.renumber kept) ticket], ?_, by
            simp [Trace.ofJobs, Event.without, Event.job?, Event.renumber, keep]⟩
          simp only [Session.without, Pool.without_register, Stage.without, keep]
          exact .cons .accept .refl
  | @cancel pool gone id =>
      cases keep : kept id with
      | false =>
          refine ⟨[], ?_, by simp [Trace.ofJobs, Event.without, Event.job?, keep]⟩
          simp only [Session.without, Pool.without_cancel_of_not_kept keep]
          exact .refl
      | true =>
          refine ⟨[.cancelled (id.renumber kept) (pool.cancel id).1], ?_, by
            simp [Trace.ofJobs, Event.without, Event.job?, Event.renumber, keep]⟩
          have cancel := @Step.cancel _ backend (pool.without kept) [] (id.renumber kept)
          rw [Pool.cancel_without keep] at cancel
          exact .cons cancel .refl
  | handle wants taken => exact exists_run_handle_without (kept_of_handled _ _ _ rfl) taken
  | handleBreaking wants taken =>
      rw [Session.without, Session.without, Stage.without_brokenOff]
      exact exists_run_handle_without (kept_of_handled _ _ _ rfl) taken
  | skip wants taken => exact absurd rfl (placed.answer_ne_none taken)
  | raise wants taken known =>
      have omitted := omitted_of_raised _ _ _ rfl
      have same := Pool.without_takeOne?_of_not_kept omitted taken
      refine ⟨[], ?_, by simp [Trace.ofJobs, Event.without, Event.job?, omitted]⟩
      rw [Session.without, Session.without, Stage.without_brokenOff, same]
      exact .refl
  | desert wants left silent empty => exact absurd empty (placed.not_isDeserted rfl)
  | dismiss | finish | abandon => cases going
  | @work pool next stage gone index present heard stepped =>
      rcases (Pool.advance?_eq_some_iff.mp stepped).without kept with same | works
      · refine ⟨[], ?_, rfl⟩
        rw [Session.without, Session.without, same]
        exact .refl
      · have unheard := Pool.not_mayLeave (pool.without kept)
          (stage.isDismissed_without kept) index
        exact ⟨[.worked index], .cons (.work List.not_mem_nil unheard
          (Pool.advance?_eq_some_iff.mpr works)) .refl, rfl⟩
  | leave present released => exact absurd released (Pool.not_mayLeave _ going _)

/-- Jobs that were not handled may be left out of a run, if all whose crashes were raised are. What
happens to the others is the same, and in the same order. -/
theorem Run.without {workers : Nat} {bound : Option Nat} {trace : List (Event τ)}
    {session : Session τ} (run : Run backend (start workers bound) trace session)
    (kept_of_handled : ∀ id ticket outcome, .handled id ticket outcome ∈ trace → kept id)
    (omitted_of_raised : ∀ id ticket crash, .raised id ticket crash ∈ trace → kept id = false) :
    ∃ trace' session', Run backend (start workers bound) trace' session' ∧
      Trace.ofJobs trace' = Trace.without kept trace ∧
      (session.stage.isDismissed = false → session' = session.without kept) := by
  induction run with
  | refl =>
      refine ⟨[], _, .refl, rfl, fun _ => ?_⟩
      rw [Session.without, start, Pool.without_start]
      rfl
  | @next trace middle event last earlier step inductionHypothesis =>
      obtain ⟨trace', middle', run', same, alike⟩ := inductionHypothesis
        (fun id ticket outcome happened =>
          kept_of_handled id ticket outcome (List.mem_append_left _ happened))
        (fun id ticket crash happened =>
          omitted_of_raised id ticket crash (List.mem_append_left _ happened))
      have whole (event : Event τ) : Trace.without kept (trace ++ [event]) =
          Trace.without kept trace ++ (event.without kept).toList := by
        cases found : event.without kept <;> simp [Trace.without, found]
      cases dismissed : middle.stage.isDismissed with
      | true =>
          obtain ⟨still, silent⟩ := step.without_of_isDismissed dismissed
          refine ⟨trace', middle', run', ?_, ?_⟩
          · rw [whole, silent, same, Option.toList_none, List.append_nil]
          · intro going
            exact absurd still (by simp [going])
      | false =>
          obtain rfl := alike dismissed
          cases ending : last.stage.isDismissed with
          | true =>
              have silent := step.without_of_dismissing kept dismissed ending
              refine ⟨trace', _, run', ?_, fun going => ?_⟩
              · rw [whole, silent, same, Option.toList_none, List.append_nil]
              · cases going
          | false =>
              have placed := earlier.placed (.start workers bound)
              obtain ⟨done, run, what⟩ := step.without kept placed
                (by
                  rintro id ticket outcome rfl
                  exact kept_of_handled id ticket outcome (by simp))
                (by
                  rintro id ticket crash rfl
                  exact omitted_of_raised id ticket crash (by simp))
                ending
              refine ⟨trace' ++ done, _, run'.trans run, ?_, fun _ => rfl⟩
              rw [whole, ← same, ← what]
              exact List.filter_append ..

end Session

end Without

end Sequencer
