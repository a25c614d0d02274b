import Sequencer.Proofs.Pool.Calls

/-!
# The line of jobs

With one worker the jobs of a pool stand in line. Those that are completed, the one that the worker
has in its hands, and those in the queue are the pending ones in the order in which they were
accepted (`Session.InLine`). Every step keeps the line, so jobs leave the pending ones in that
order (`Session.Run.order`).
-/

namespace Sequencer

variable {τ : Type}

/-! ## The line of jobs -/

namespace Pool

/-- The jobs of a pool, those that are completed in front and those in the queue at the end. -/
def line (pool : Pool τ) : List JobId :=
  pool.completions.map Completion.id ++
    (pool.workers.flatMap Worker.jobs ++ pool.queue.map Task.id)

@[simp]
theorem line_cancel (pool : Pool τ) (id : JobId) : (pool.cancel id).2.line = pool.line := by
  unfold cancel
  split <;> rfl

theorem line_send (pool : Pool τ) (source : List Char) :
    (pool.send source).line = pool.line ++ [⟨pool.nextId⟩] := by
  simp [line, send]

/-- The only worker stands between the completed jobs and the queue, whatever it does. -/
theorem line_of_single (pool : Pool τ) {index : Nat} {old : Worker}
    (single : pool.workers.length = 1) (found : pool.workers[index]? = some old) :
    pool.line = pool.completions.map Completion.id ++ (old.jobs ++ pool.queue.map Task.id) ∧
      ∀ new, (pool.setWorker index new).line =
        pool.completions.map Completion.id ++ (new.jobs ++ pool.queue.map Task.id) := by
  obtain ⟨worker, only⟩ := List.length_eq_one_iff.mp single
  obtain ⟨inside, same⟩ := List.getElem?_eq_some_iff.mp found
  obtain rfl : index = 0 := Nat.lt_one_iff.mp (single ▸ inside)
  simp only [only, List.getElem_cons_zero] at same
  subst same
  constructor
  · simp [line, only]
  · intro new
    simp [line, setWorker, only]

/-- The only worker moves its job on and never past another one. -/
theorem Works.line_eq {backend : Backend} {pool next : Pool τ} {index : Nat}
    (works : Works backend pool index next) (single : pool.workers.length = 1) :
    next.line = pool.line := by
  cases works with
  | @take task rest found waiting =>
      obtain ⟨before, -⟩ := line_of_single pool single found
      obtain ⟨-, after⟩ := line_of_single { pool with queue := rest } single found
      rw [before, after, waiting]
      rfl
  | heed found flagged | compile found unflagged | complete found =>
      obtain ⟨before, after⟩ := line_of_single pool single found
      rw [before, after]
      rfl
  | @handBack completion found =>
      obtain ⟨before, -⟩ := line_of_single pool single found
      obtain ⟨-, after⟩ := line_of_single
        { pool with completions := pool.completions ++ [completion] } single found
      rw [before, after]
      simp [Worker.jobs]

/-- The first in line leaves with its completion. -/
theorem line_of_takeOne? {pool : Pool τ} {receipt : Receipt τ}
    (taken : pool.takeOne? = some receipt) : pool.line = receipt.id :: receipt.pool.line := by
  rcases takeOne?_eq_some_iff.mp taken with ⟨-, completion, rest, completed, rfl⟩
  simp [line, completed, release]

/-- Workers that act leave the pending jobs alone. -/
theorem pending_settle (backend : Backend) (held : List JobId) (pool : Pool τ) :
    (pool.settle backend held).pending = pool.pending := by
  fun_induction settle backend held pool with
  | case1 pool stopped => rfl
  | case2 pool next stepped inductionHypothesis =>
      obtain ⟨index, -, advanced⟩ := List.exists_of_findSome?_eq_some stepped
      split at advanced
      · cases advanced
      · rw [inductionHypothesis, (advance?_eq_some_iff.mp advanced).pending_eq]

end Pool

/-! ## Jobs that leave -/

/-- The job that an event takes out of the pending ones with its completion. -/
def Event.departed? : Event τ → Option (JobId × τ)
  | .handled id ticket _ | .raised id ticket _ => some (id, ticket)
  | _ => none

namespace Trace

/-- The jobs that were handled or raised, in that order. -/
def departed (trace : List (Event τ)) : List (JobId × τ) := trace.filterMap Event.departed?

@[simp]
theorem departed_append (first last : List (Event τ)) :
    departed (first ++ last) = departed first ++ departed last :=
  List.filterMap_append

theorem handled_sublist_departed (trace : List (Event τ)) :
    (handled trace).Sublist (departed trace) := by
  induction trace with
  | nil => exact .slnil
  | cons event trace inductionHypothesis =>
      cases event with
      | handled => exact inductionHypothesis.cons_cons _
      | raised => exact inductionHypothesis.cons _
      | _ => exact inductionHypothesis

/-- Where nothing is raised, the jobs that leave are handled. -/
theorem departed_eq_handled {trace : List (Event τ)} (inside : ∀ event ∈ trace, event.isInside) :
    departed trace = handled trace := by
  apply List.filterMap_congr
  intro event happened
  have quiet := inside event happened
  cases event with
  | raised => cases quiet
  | _ => rfl

theorem accepted_eq_nil_of_inside {trace : List (Event τ)}
    (inside : ∀ event ∈ trace, event.isInside) : accepted trace = [] := by
  apply List.filterMap_eq_nil_iff.mpr
  intro event happened
  have quiet := inside event happened
  cases event with
  | accepted => cases quiet
  | _ => rfl

end Trace

namespace Session

variable {backend : Backend}

/-- The live jobs stand in line, and there is one worker. -/
structure InLine (session : Session τ) : Prop where
  single : session.pool.workers.length = 1
  line : session.stage ≠ .ended → session.pool.line = session.live.map Prod.fst

namespace InLine

theorem start {workers : Nat} (few : workers ≤ 1) (bound : Option Nat) :
    InLine (Session.start workers bound : Session τ) where
  single := by simp [Session.start, Pool.start, few]
  line _ := by simp [Session.start, Pool.start, Pool.line, live, Stage.sent, Worker.jobs]

variable {pool : Pool τ} {stage : Stage τ} {gone : List Nat}

/-- The owner turns to something else, or workers leave. -/
theorem restage {next : Stage τ} {gone' : List Nat} (inLine : InLine ⟨pool, stage, gone⟩)
    (going : next ≠ .ended → stage ≠ .ended) (sent : next.sent = stage.sent) :
    InLine ⟨pool, next, gone'⟩ where
  single := inLine.single
  line open' := by
    have line := inLine.line (going open')
    simpa only [live, sent] using line

/-- The job whose completion is taken is the first of the pending ones. -/
theorem pending_eq {call : Call} {count : Nat} {receipt : Receipt τ} {ticket : τ}
    (inLine : InLine ⟨pool, .taking call count, gone⟩)
    (placed : Placed ⟨pool, .taking call count, gone⟩) (taken : pool.takeOne? = some receipt)
    (known : pool.ticket? receipt.id = some ticket) :
    pool.pending = (receipt.id, ticket) :: receipt.pool.pending := by
  have line := inLine.line nofun
  rw [Pool.line_of_takeOne? taken] at line
  simp only [live, Stage.sent, List.append_nil] at line
  have released := Pool.pending_of_takeOne? taken
  have reordered := placed.pending_perm taken known
  have once : (pool.pending.map Prod.fst).Nodup := by
    have once := (placed.places nofun).nodup_iff.mp (placed.once nofun)
    simpa only [live, Stage.sent, List.append_nil] using once
  have inside := Pool.mem_pending_of_ticket? known
  rw [Pool.release] at released
  cases pending : pool.pending with
  | nil => simp [pending] at inside
  | cons first rest =>
      rw [pending] at line once inside released
      obtain ⟨same, -⟩ := List.cons.inj line
      have own : first = (receipt.id, ticket) :=
        List.inj_on_of_nodup_map once List.mem_cons_self inside same.symm
      subst own
      rw [List.map_cons, List.nodup_cons] at once
      have others : ∀ job ∈ rest, decide (job.1 ≠ receipt.id) = true := by
        intro job among
        rw [decide_eq_true_eq]
        intro same
        exact once.1 (List.mem_map.mpr ⟨job, among, same⟩)
      rw [released, List.filter_cons_of_neg (by simp), List.filter_eq_self.mpr others]

theorem take {call : Call} {count : Nat} {receipt : Receipt τ}
    (inLine : InLine ⟨pool, .taking call count, gone⟩)
    (placed : Placed ⟨pool, .taking call count, gone⟩) (taken : pool.takeOne? = some receipt) :
    InLine ⟨receipt.pool, .taking call count, gone⟩ where
  single := by
    rw [Pool.workers_of_takeOne? taken]
    exact inLine.single
  line _ := by
    obtain ⟨ticket, known⟩ := placed.exists_ticket? taken
    have line := inLine.line nofun
    rw [Pool.line_of_takeOne? taken, live, inLine.pending_eq placed taken known] at line
    exact (List.cons.inj line).2

theorem breakOff {call : Call} {count : Nat} (inLine : InLine ⟨pool, .taking call count, gone⟩) :
    InLine ⟨pool, .brokenOff call, gone⟩ :=
  inLine.restage nofun (Stage.sent_brokenOff call)

end InLine

/-! ## Steps and runs -/

/-- Every step keeps the line. -/
theorem Step.inLine {first last : Session τ} {event : Event τ}
    (step : Step backend first event last) (placed : Placed first) (inLine : InLine first) :
    InLine last := by
  cases step with
  | refuse | refuseDeserted => exact inLine
  | @send pool gone source ticket staffed room =>
      refine ⟨inLine.single, fun _ => ?_⟩
      have line := inLine.line (by simp)
      simp only [live, Stage.sent, List.append_nil] at line
      rw [Pool.line_send, line]
      simp [live, Stage.sent, Pool.send]
  | accept =>
      refine ⟨inLine.single, fun _ => ?_⟩
      have line := inLine.line (by simp)
      simpa [live, Stage.sent, Pool.register, Pool.line] using line
  | @cancel pool gone id =>
      refine ⟨?_, fun _ => ?_⟩
      · rw [Pool.workers_cancel]
        exact inLine.single
      · rw [Pool.line_cancel, live, Pool.pending_cancel]
        exact inLine.line (by simp)
  | begin | comeBack | dismiss | finish => exact inLine.restage (by simp) rfl
  | handle wants taken => exact (inLine.take placed taken).restage (by simp) rfl
  | handleBreaking wants taken => exact (inLine.take placed taken).breakOff
  | skip wants taken => exact absurd rfl (placed.answer_ne_none taken)
  | raise wants taken known => exact (inLine.take placed taken).breakOff
  | desert wants left silent empty => exact absurd empty (placed.not_isDeserted rfl)
  | abandon => exact ⟨inLine.single, fun going => absurd rfl going⟩
  | work present heard stepped =>
      have works := Pool.advance?_eq_some_iff.mp stepped
      refine ⟨works.length_workers_eq.trans inLine.single, fun going => ?_⟩
      rw [works.line_eq inLine.single, live, works.pending_eq]
      exact inLine.line going
  | leave present released => exact inLine.restage id rfl

/-- The jobs that a step takes out are the first of the pending ones. -/
theorem Step.order {first last : Session τ} {event : Event τ}
    (step : Step backend first event last) (placed : Placed first) (inLine : InLine first) :
    first.pool.pending ++ Trace.accepted [event] =
        Trace.departed [event] ++ (Trace.dropped [event] ++ last.pool.pending) ∧
      (first.stage = .ended → Trace.departed [event] = []) := by
  cases step with
  | refuse | refuseDeserted | send | begin | comeBack | dismiss | finish | leave =>
      exact ⟨List.append_nil _, fun _ => rfl⟩
  | accept => exact ⟨rfl, fun _ => rfl⟩
  | cancel =>
      rw [Pool.pending_cancel]
      exact ⟨List.append_nil _, fun _ => rfl⟩
  | handle wants taken | handleBreaking wants taken =>
      have known := Pool.ticket?_of_answer taken rfl
      exact ⟨(List.append_nil _).trans (inLine.pending_eq placed taken known), nofun⟩
  | raise wants taken known =>
      exact ⟨(List.append_nil _).trans (inLine.pending_eq placed taken known), nofun⟩
  | skip wants taken => exact absurd rfl (placed.answer_ne_none taken)
  | desert wants left silent empty => exact absurd empty (placed.not_isDeserted rfl)
  | @abandon pool =>
      have given_up : Trace.dropped [.abandoned pool.pending] ++ pool.giveUp.pending =
          pool.pending := by
        simp [Trace.dropped, Event.dropped, Pool.giveUp]
      rw [given_up]
      exact ⟨List.append_nil _, fun _ => rfl⟩
  | work present heard stepped =>
      rw [(Pool.advance?_eq_some_iff.mp stepped).pending_eq]
      exact ⟨List.append_nil _, fun _ => rfl⟩

section Runs

variable {first last : Session τ} {trace : List (Event τ)}

theorem Run.inLine (run : Run backend first trace last) (placed : Placed first)
    (inLine : InLine first) : InLine last := by
  induction run with
  | refl => exact inLine
  | next earlier step inductionHypothesis =>
      exact step.inLine (earlier.placed placed) inductionHypothesis

/-- Jobs leave in the order in which they were pending and accepted. -/
theorem Run.order (run : Run backend first trace last) (placed : Placed first)
    (inLine : InLine first) :
    first.pool.pending ++ Trace.accepted trace =
      Trace.departed trace ++ (Trace.dropped trace ++ last.pool.pending) := by
  induction run with
  | refl => exact List.append_nil _
  | @next trace middle event last earlier step inductionHypothesis =>
      obtain ⟨order, closed⟩ := step.order (earlier.placed placed) (earlier.inLine placed inLine)
      -- Nothing leaves any more when jobs have been given up.
      have apart : Trace.dropped trace ++ Trace.departed [event] =
          Trace.departed [event] ++ Trace.dropped trace := by
        by_cases ended : middle.stage = .ended
        · rw [closed ended, List.append_nil, List.nil_append]
        · rw [earlier.dropped_eq_nil placed ended, List.append_nil, List.nil_append]
      calc
        first.pool.pending ++ Trace.accepted (trace ++ [event]) =
            Trace.departed trace ++ (Trace.dropped trace ++
              (middle.pool.pending ++ Trace.accepted [event])) := by
          rw [Trace.accepted_append, ← List.append_assoc, inductionHypothesis]
          simp only [List.append_assoc]
        _ = Trace.departed trace ++ ((Trace.dropped trace ++ Trace.departed [event]) ++
              (Trace.dropped [event] ++ last.pool.pending)) := by
          rw [order, List.append_assoc]
        _ = Trace.departed (trace ++ [event]) ++
              (Trace.dropped (trace ++ [event]) ++ last.pool.pending) := by
          rw [apart, Trace.departed_append, Trace.dropped_append]
          simp only [List.append_assoc]

/-- A call counts the handlers that it calls. -/
theorem Step.call?_of_isInside {event : Event τ} (step : Step backend first event last)
    (inside : event.isInside) {call : Call} {count : Nat}
    (inCall : last.stage.call? = some (call, count)) :
    ∃ earlier, first.stage.call? = some (call, earlier) ∧
      count = earlier + (Trace.handled [event]).length := by
  cases step with
  | handle =>
      cases inCall
      exact ⟨_, rfl, rfl⟩
  | dismiss =>
      cases inCall
      exact ⟨_, rfl, rfl⟩
  | work | leave => exact ⟨count, inCall, rfl⟩
  | handleBreaking =>
      rw [Stage.call?_brokenOff] at inCall
      cases inCall
  | _ => cases inside

theorem Run.call?_of_isInside (run : Run backend first trace last)
    (inside : ∀ event ∈ trace, event.isInside) {call : Call} {count : Nat}
    (inCall : last.stage.call? = some (call, count)) :
    ∃ earlier, first.stage.call? = some (call, earlier) ∧
      count = earlier + (Trace.handled trace).length := by
  induction run generalizing count with
  | refl => exact ⟨count, inCall, rfl⟩
  | next before step inductionHypothesis =>
      obtain ⟨taken, inMiddle, rfl⟩ := step.call?_of_isInside (inside _ (by simp)) inCall
      obtain ⟨earlier, begun, rfl⟩ := inductionHypothesis
        (fun event happened => inside event (List.mem_append_left _ happened)) inMiddle
      refine ⟨earlier, begun, ?_⟩
      rw [Trace.handled_append, List.length_append, Nat.add_assoc]

/-- A call that waits for one completion takes one at most. -/
theorem Step.le_one_of_waitOne {event : Event τ} (step : Step backend first event last)
    (placed : Placed first)
    (before : ∀ count, first.stage.call? = some (.waitOne, count) → count ≤ 1) :
    ∀ count, last.stage.call? = some (.waitOne, count) → count ≤ 1 := by
  intro count inCall
  cases step with
  | begin =>
      cases inCall
      exact Nat.zero_le 1
  | handle wants taken =>
      cases inCall
      have none_taken := of_decide_eq_true wants
      exact Nat.le_of_eq (congrArg Nat.succ none_taken)
  | dismiss last done =>
      cases inCall
      cases last
  | skip wants taken => exact absurd rfl (placed.answer_ne_none taken)
  | desert wants left silent empty => exact absurd empty (placed.not_isDeserted rfl)
  | handleBreaking | raise =>
      rw [Stage.call?_brokenOff] at inCall
      cases inCall
  | work | leave => exact before count inCall
  | refuse | refuseDeserted | send | accept | cancel | comeBack | finish | abandon => cases inCall

/-- A call that waits for one completion comes back with one, unless nothing is pending. -/
theorem Step.of_returned_waitOne {count : Nat}
    (step : Step backend first (.returned .waitOne count) last) (placed : Placed first) :
    first.pool.pending = [] ∨ count ≠ 0 := by
  cases step with
  | comeBack notLast done =>
      rcases done with rested | enough | ⟨poll, -⟩
      · exact .inl rested
      · exact .inr (of_decide_eq_false enough)
      · cases poll
  | finish empty => exact .inl (placed.rested _ _ rfl)

end Runs

end Session

end Sequencer
