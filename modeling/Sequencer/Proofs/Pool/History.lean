import Sequencer.Proofs.Pool.Delivery

/-!
# Histories of sessions

A history is a run together with the sessions that it comes by. So it shows what the workers do
with each job: they take it, look at its flag, and compile it unless the flag is set. These are the
marks that a job gets.

From the start of a pool on, the marks of a job say how far it is and what it comes to
(`History.recorded`), and the flag of a job is set exactly when a cancellation of that job has been
answered with yes (`History.mem_cancelled_iff`).
-/

namespace Sequencer

variable {τ : Type}

/-! ## Marks -/

/-- What a worker does with a job in one step. -/
inductive Mark where
  | taken
  | looked (flagged : Bool)
  | compiled (source : List Char)
  deriving DecidableEq, Repr

/-- What a worker is about to do with a job. It does nothing with a job that it hands back. -/
def Pool.mark? (pool : Pool τ) (index : Nat) : Option (JobId × Mark) :=
  match pool.workers[index]? with
  | some .idle => pool.queue.head?.map fun task => (task.id, .taken)
  | some (.holding task) => some (task.id, .looked (pool.cancelled.contains task.id))
  | some (.compiling task) => some (task.id, .compiled task.source)
  | _ => none

/-- An event and the session in which it happens. -/
structure Moment (τ : Type) where
  session : Session τ
  event : Event τ

namespace Moment

/-- What a worker does with a job at a moment. -/
def mark? (moment : Moment τ) : Option (JobId × Mark) :=
  match moment.event with
  | .worked index => moment.session.pool.mark? index
  | _ => none

end Moment

namespace Trace

/-- The events of some moments. -/
def events (moments : List (Moment τ)) : List (Event τ) := moments.map Moment.event

/-- What the workers did with a job, in that order. -/
def marks (moments : List (Moment τ)) (id : JobId) : List Mark :=
  (moments.filterMap Moment.mark?).filterMap fun mark => if mark.1 = id then some mark.2 else none

@[simp]
theorem events_append (first last : List (Moment τ)) :
    events (first ++ last) = events first ++ events last :=
  List.map_append

@[simp]
theorem marks_append (first last : List (Moment τ)) (id : JobId) :
    marks (first ++ last) id = marks first id ++ marks last id := by
  simp [marks]

theorem marks_of_mark?_eq_none {moment : Moment τ} (unmarked : moment.mark? = none) (id : JobId) :
    marks [moment] id = [] := by
  simp [marks, unmarked]

theorem marks_of_mark?_eq_some {moment : Moment τ} {id : JobId} {mark : Mark}
    (marked : moment.mark? = some (id, mark)) (other : JobId) :
    marks [moment] other = if id = other then [mark] else [] := by
  by_cases same : id = other <;> simp [marks, marked, same]

end Trace

/-! ## Histories -/

namespace Session

variable {backend : Backend}

/-- Steps one after the other, with the moments at which they are taken. -/
inductive History (backend : Backend) (first : Session τ) : List (Moment τ) → Session τ → Prop where
  | refl : History backend first [] first
  | next {moments middle event last} (earlier : History backend first moments middle)
      (step : Step backend middle event last) :
      History backend first (moments ++ [⟨middle, event⟩]) last

namespace History

variable {first middle last : Session τ}

/-- A history is a run. -/
theorem run {moments : List (Moment τ)} (history : History backend first moments last) :
    Run backend first (Trace.events moments) last := by
  induction history with
  | refl => exact .refl
  | next earlier step inductionHypothesis =>
      rw [Trace.events_append]
      exact .next inductionHypothesis step

theorem trans {earlier later : List (Moment τ)} (history : History backend first earlier middle)
    (rest : History backend middle later last) : History backend first (earlier ++ later) last := by
  induction rest with
  | refl =>
      rw [List.append_nil]
      exact history
  | next before step inductionHypothesis =>
      rw [← List.append_assoc]
      exact .next inductionHypothesis step

/-- A history may be cut at each of its moments. -/
theorem split {before after : List (Moment τ)} {moment : Moment τ}
    (history : History backend first (before ++ moment :: after) last) :
    History backend first before moment.session ∧
      ∃ next, Step backend moment.session moment.event next ∧ History backend next after last := by
  generalize same : before ++ moment :: after = moments at history
  induction history generalizing after with
  | refl => simp at same
  | @next moments middle event last earlier step inductionHypothesis =>
      rcases List.eq_nil_or_concat after with rfl | ⟨tail, other, rfl⟩
      · obtain ⟨rfl, sameMoment⟩ := List.append_inj' same rfl
        cases sameMoment
        exact ⟨earlier, last, step, .refl⟩
      · rw [List.concat_eq_append, ← List.cons_append, ← List.append_assoc] at same
        obtain ⟨rfl, sameMoment⟩ := List.append_inj' same rfl
        cases sameMoment
        obtain ⟨started, next, taken, rest⟩ := inductionHypothesis rfl
        refine ⟨started, next, taken, ?_⟩
        rw [List.concat_eq_append]
        exact .next rest step

end History

/-- Every run has a history. -/
theorem Run.exists_history {first last : Session τ} {trace : List (Event τ)}
    (run : Run backend first trace last) :
    ∃ moments, Trace.events moments = trace ∧ History backend first moments last := by
  induction run with
  | refl => exact ⟨[], rfl, .refl⟩
  | next earlier step inductionHypothesis =>
      obtain ⟨moments, rfl, history⟩ := inductionHypothesis
      exact ⟨_, Trace.events_append .., .next history step⟩

end Session

/-! ## How far the jobs of a pool are -/

/-- How far a job is. -/
inductive Progress where
  | waiting (source : List Char)
  | held (source : List Char)
  | compiling (source : List Char)
  | settled (result : Except Crash Outcome)

namespace Progress

/-- A step of a worker with a job. -/
inductive Moves (backend : Backend) : Progress → Mark → Progress → Prop
  | take (source : List Char) : Moves backend (.waiting source) .taken (.held source)
  | heed (source : List Char) :
      Moves backend (.held source) (.looked true) (.settled (.ok .cancelled))
  | pass (source : List Char) : Moves backend (.held source) (.looked false) (.compiling source)
  | compile (source : List Char) :
      Moves backend (.compiling source) (.compiled source) (.settled (execute backend source))

/-- The marks of a job with a source that is so far. -/
inductive Records (backend : Backend) (source : List Char) : List Mark → Progress → Prop
  | waiting : Records backend source [] (.waiting source)
  | held : Records backend source [.taken] (.held source)
  | compiling : Records backend source [.taken, .looked false] (.compiling source)
  | cancelled : Records backend source [.taken, .looked true] (.settled (.ok .cancelled))
  | compiled :
      Records backend source [.taken, .looked false, .compiled source]
        (.settled (execute backend source))

theorem Records.next {backend : Backend} {source : List Char} {marks : List Mark} {mark : Mark}
    {old new : Progress} (records : Records backend source marks old)
    (moves : Moves backend old mark new) : Records backend source (marks ++ [mark]) new := by
  cases moves with
  | take =>
      cases records
      exact .held
  | heed =>
      cases records
      exact .cancelled
  | pass =>
      cases records
      exact .compiling
  | compile =>
      cases records
      exact .compiled

end Progress

/-- The progress of the job that a worker has in its hands. -/
def Worker.progress : Worker → List (JobId × Progress)
  | .idle => []
  | .holding task => [(task.id, .held task.source)]
  | .compiling task => [(task.id, .compiling task.source)]
  | .finished completion => [(completion.id, .settled completion.result)]

namespace Pool

/-- The jobs in the queue, in the hands of workers, and completed, and how far they are. -/
def progress (pool : Pool τ) : List (JobId × Progress) :=
  pool.queue.map (fun task => (task.id, .waiting task.source)) ++
    (pool.workers.flatMap Worker.progress ++
      pool.completions.map fun completion => (completion.id, .settled completion.result))

@[simp]
theorem map_fst_progress (pool : Pool τ) : pool.progress.map Prod.fst = pool.places := by
  have own (worker : Worker) : worker.progress.map Prod.fst = worker.jobs := by
    cases worker <;> rfl
  simp [progress, places, List.map_flatMap, own, Function.comp_def]

/-- A worker that does something else has another part in the progress of a pool. -/
theorem exists_progress_setWorker_perm (pool : Pool τ) {index : Nat} {old : Worker}
    (found : pool.workers[index]? = some old) :
    ∃ others, pool.progress.Perm (old.progress ++ others) ∧
      ∀ new, (pool.setWorker index new).progress.Perm (new.progress ++ others) := by
  obtain ⟨others, before, after⟩ := Worker.exists_flatMap_set_perm Worker.progress found
  refine ⟨pool.queue.map (fun task => (task.id, .waiting task.source)) ++ (others ++
    pool.completions.map fun completion => (completion.id, .settled completion.result)), ?_,
    fun new => ?_⟩
  · refine ((before.append_right _).append_left _).trans ?_
    rw [List.append_assoc]
    exact List.perm_append_comm_assoc _ _ _
  · refine (((after new).append_right _).append_left _).trans ?_
    rw [List.append_assoc]
    exact List.perm_append_comm_assoc _ _ _

/-- A step of a worker moves one job on, or hands it back. -/
theorem Works.progress_perm {backend : Backend} {pool next : Pool τ} {index : Nat}
    (works : Works backend pool index next) :
    (pool.mark? index = none ∧ next.progress.Perm pool.progress) ∨
      ∃ id mark old new others, pool.mark? index = some (id, mark) ∧
        Progress.Moves backend old mark new ∧ pool.progress.Perm ((id, old) :: others) ∧
        next.progress.Perm ((id, new) :: others) := by
  cases works with
  | @take task rest found waiting =>
      obtain ⟨others, before, after⟩ :=
        exists_progress_setWorker_perm { pool with queue := rest } found
      have taken : pool.progress =
          (task.id, .waiting task.source) :: { pool with queue := rest : Pool τ }.progress := by
        rw [progress, waiting]
        rfl
      refine .inr ⟨task.id, .taken, _, _, others, ?_, .take task.source, ?_,
        after (.holding task)⟩
      · simp [mark?, found, waiting]
      · rw [taken]
        exact before.cons _
  | @heed task found flagged =>
      obtain ⟨others, before, after⟩ := exists_progress_setWorker_perm pool found
      exact .inr ⟨task.id, .looked true, _, _, others, by simp [mark?, found, flagged],
        .heed task.source, before, after _⟩
  | @compile task found unflagged =>
      obtain ⟨others, before, after⟩ := exists_progress_setWorker_perm pool found
      exact .inr ⟨task.id, .looked false, _, _, others, by simp [mark?, found, unflagged],
        .pass task.source, before, after (.compiling task)⟩
  | @complete task found =>
      obtain ⟨others, before, after⟩ := exists_progress_setWorker_perm pool found
      exact .inr ⟨task.id, .compiled task.source, _, _, others, by simp [mark?, found],
        .compile task.source, before, after _⟩
  | @handBack completion found =>
      obtain ⟨others, before, after⟩ := exists_progress_setWorker_perm
        { pool with completions := pool.completions ++ [completion] } found
      refine .inl ⟨by simp [mark?, found], (after .idle).trans ?_⟩
      have handed :
          { pool with completions := pool.completions ++ [completion] : Pool τ }.progress =
          pool.progress ++ [(completion.id, .settled completion.result)] := by
        simp [progress]
      rw [handed] at before
      exact ((List.perm_append_singleton _ _).symm.trans before).cons_inv.symm

/-- A completion that is taken is that of a settled job, and it is the one that is answered for. -/
theorem exists_progress_perm_of_takeOne? {pool : Pool τ} {receipt : Receipt τ}
    (taken : pool.takeOne? = some receipt) :
    ∃ result, pool.progress.Perm ((receipt.id, .settled result) :: receipt.pool.progress) ∧
      (∀ ticket outcome, receipt.answer = .ok (some (ticket, outcome)) → result = .ok outcome) ∧
      ∀ crash, receipt.answer = .error crash → result = .error crash := by
  rcases exists_completion_of_takeOne? taken with
    ⟨completion, rest, completed, same, left, answered, crashed⟩
  refine ⟨completion.result, ?_, answered, crashed⟩
  rw [same, left, progress, completed, List.map_cons, ← List.append_assoc]
  apply List.perm_middle.trans
  rw [List.append_assoc]
  rfl

@[simp]
theorem progress_cancel (pool : Pool τ) (id : JobId) :
    (pool.cancel id).2.progress = pool.progress := by
  unfold cancel
  split <;> rfl

end Pool

/-! ## What a step does with the jobs -/

namespace Event

/-- The job that an event sends, and its source. -/
def sent? : Event τ → Option (JobId × List Char)
  | .sent id source => some (id, source)
  | _ => none

/-- The job that an event ends, and what it came to. -/
def settled? : Event τ → Option (JobId × Progress)
  | .handled id _ outcome => some (id, .settled (.ok outcome))
  | .raised id _ crash => some (id, .settled (.error crash))
  | _ => none

end Event

namespace Trace

/-- The jobs that were sent, and their sources. -/
def sent (trace : List (Event τ)) : List (JobId × List Char) := trace.filterMap Event.sent?

/-- The jobs that were handled or raised, and what they came to. -/
def settled (trace : List (Event τ)) : List (JobId × Progress) := trace.filterMap Event.settled?

@[simp]
theorem sent_append (first last : List (Event τ)) :
    sent (first ++ last) = sent first ++ sent last :=
  List.filterMap_append

@[simp]
theorem settled_append (first last : List (Event τ)) :
    settled (first ++ last) = settled first ++ settled last :=
  List.filterMap_append

theorem mem_sent_iff {trace : List (Event τ)} {id : JobId} {source : List Char} :
    (id, source) ∈ sent trace ↔ .sent id source ∈ trace := by
  simp only [sent, List.mem_filterMap]
  constructor
  · rintro ⟨event, inside, same⟩
    cases event <;> cases same
    exact inside
  · intro inside
    exact ⟨_, inside, rfl⟩

theorem mem_settled_of_handled {trace : List (Event τ)} {id : JobId} {ticket : τ}
    {outcome : Outcome} (happened : .handled id ticket outcome ∈ trace) :
    (id, .settled (.ok outcome)) ∈ settled trace :=
  List.mem_filterMap.mpr ⟨_, happened, rfl⟩

theorem mem_settled_of_raised {trace : List (Event τ)} {id : JobId} {ticket : τ} {crash : Crash}
    (happened : .raised id ticket crash ∈ trace) :
    (id, .settled (.error crash)) ∈ settled trace :=
  List.mem_filterMap.mpr ⟨_, happened, rfl⟩

end Trace

namespace Session

variable {backend : Backend}

/-- What one step does with the jobs of a pool: nothing, unless it takes one out with its
completion; or it sends one; or a worker moves one on. -/
inductive Change (backend : Backend) (first : Session τ) : Event τ → Session τ → Prop where
  | keep {event last} (unmarked : (Moment.mk first event).mark? = none)
      (unsent : Trace.sent [event] = []) (nextId : last.pool.nextId = first.pool.nextId)
      (progress : first.pool.progress.Perm (Trace.settled [event] ++ last.pool.progress)) :
      Change backend first event last
  | send {source last} (nextId : last.pool.nextId = first.pool.nextId + 1)
      (progress : last.pool.progress.Perm
        ((⟨first.pool.nextId⟩, .waiting source) :: first.pool.progress)) :
      Change backend first (.sent ⟨first.pool.nextId⟩ source) last
  | move {index last id mark old new others} (nextId : last.pool.nextId = first.pool.nextId)
      (marked : (Moment.mk first (.worked index)).mark? = some (id, mark))
      (moves : Progress.Moves backend old mark new)
      (before : first.pool.progress.Perm ((id, old) :: others))
      (after : last.pool.progress.Perm ((id, new) :: others)) :
      Change backend first (.worked index) last

theorem Step.change {first last : Session τ} {event : Event τ}
    (step : Step backend first event last) (placed : Placed first) :
    Change backend first event last := by
  cases step with
  | refuse | refuseDeserted | accept | begin | comeBack | dismiss | finish | abandon | leave =>
      exact .keep rfl rfl rfl (.refl _)
  | @cancel pool gone id =>
      refine .keep rfl rfl (Pool.nextId_cancel pool id) ?_
      rw [Pool.progress_cancel]
      exact .refl _
  | send ticket staffed room =>
      refine .send rfl ?_
      simp only [Pool.progress, Pool.send, List.map_append, List.map_cons, List.map_nil,
        List.append_assoc]
      exact List.perm_middle
  | handle wants taken | handleBreaking wants taken =>
      obtain ⟨result, progress, answered, -⟩ := Pool.exists_progress_perm_of_takeOne? taken
      rw [answered _ _ rfl] at progress
      exact .keep rfl rfl (Pool.nextId_of_takeOne? taken) progress
  | raise wants taken known =>
      obtain ⟨result, progress, -, crashed⟩ := Pool.exists_progress_perm_of_takeOne? taken
      rw [crashed _ rfl] at progress
      exact .keep rfl rfl (Pool.nextId_of_takeOne? taken) progress
  | skip wants taken => exact absurd rfl (placed.answer_ne_none taken)
  | desert wants left silent empty => exact absurd empty (placed.not_isDeserted rfl)
  | work present heard stepped =>
      have works := Pool.advance?_eq_some_iff.mp stepped
      rcases works.progress_perm with
        ⟨unmarked, progress⟩ | ⟨id, mark, old, new, others, marked, moves, before, after⟩
      · exact .keep unmarked rfl works.nextId_eq progress.symm
      · exact .move works.nextId_eq marked moves before after

/-! ## What histories record -/

/-- The jobs that were sent, and how far they are, those that have left the pool included. -/
def known (moments : List (Moment τ)) (session : Session τ) : List (JobId × Progress) :=
  Trace.settled (Trace.events moments) ++ session.pool.progress

/-- Each job that was sent is known once, its marks say how far it is, and no other job has
marks. -/
structure Recorded (backend : Backend) (moments : List (Moment τ)) (session : Session τ) :
    Prop where
  known : ((known moments session).map (·.1.number)).Perm (List.range session.pool.nextId)
  sent : (Trace.sent (Trace.events moments)).map (·.1.number) = List.range session.pool.nextId
  records : ∀ job ∈ Session.known moments session, ∃ source,
    (job.1, source) ∈ Trace.sent (Trace.events moments) ∧
      Progress.Records backend source (Trace.marks moments job.1) job.2
  fresh : ∀ id : JobId, session.pool.nextId ≤ id.number → Trace.marks moments id = []

section

variable {first last : Session τ} {moments : List (Moment τ)}

/-- An event that moves no job on is recorded with what leaves the pool. -/
theorem Recorded.keep {event : Event τ} (recorded : Recorded backend moments first)
    (unmarked : (Moment.mk first event).mark? = none) (unsent : Trace.sent [event] = [])
    (nextId : last.pool.nextId = first.pool.nextId)
    (progress : first.pool.progress.Perm (Trace.settled [event] ++ last.pool.progress)) :
    Recorded backend (moments ++ [⟨first, event⟩]) last := by
  have same : (Session.known moments first).Perm
      (Session.known (moments ++ [⟨first, event⟩]) last) := by
    simp only [Session.known, Trace.events_append, Trace.settled_append, List.append_assoc]
    exact progress.append_left _
  have marks (id : JobId) :
      Trace.marks (moments ++ [⟨first, event⟩]) id = Trace.marks moments id := by
    simp [Trace.marks_of_mark?_eq_none unmarked]
  have sent : Trace.sent (Trace.events (moments ++ [⟨first, event⟩])) =
      Trace.sent (Trace.events moments) := by
    rw [Trace.events_append, Trace.sent_append]
    exact (congrArg (_ ++ ·) unsent).trans (List.append_nil _)
  exact {
    known := by
      rw [nextId]
      exact (same.symm.map _).trans recorded.known
    sent := by
      rw [sent, nextId]
      exact recorded.sent
    records := by
      intro job inside
      rw [sent, marks]
      exact recorded.records job (same.mem_iff.mpr inside)
    fresh := by
      intro id new
      rw [marks]
      exact recorded.fresh id (nextId ▸ new) }

/-- A job that is sent has no marks. -/
theorem Recorded.send {source : List Char} (recorded : Recorded backend moments first)
    (nextId : last.pool.nextId = first.pool.nextId + 1)
    (progress : last.pool.progress.Perm
      ((⟨first.pool.nextId⟩, .waiting source) :: first.pool.progress)) :
    Recorded backend (moments ++ [⟨first, .sent ⟨first.pool.nextId⟩ source⟩]) last := by
  have known :
      (Session.known (moments ++ [⟨first, .sent ⟨first.pool.nextId⟩ source⟩]) last).Perm
      ((⟨first.pool.nextId⟩, .waiting source) :: Session.known moments first) := by
    simp only [Session.known, Trace.events_append, Trace.settled_append, List.append_assoc]
    exact (progress.append_left _).trans List.perm_middle
  have marks (id : JobId) :
      Trace.marks (moments ++ [⟨first, .sent ⟨first.pool.nextId⟩ source⟩]) id =
        Trace.marks moments id := by
    rw [Trace.marks_append, Trace.marks_of_mark?_eq_none rfl, List.append_nil]
  have sent : Trace.sent (Trace.events
      (moments ++ [⟨first, .sent ⟨first.pool.nextId⟩ source⟩])) =
      Trace.sent (Trace.events moments) ++ [(⟨first.pool.nextId⟩, source)] := by
    rw [Trace.events_append, Trace.sent_append]
    rfl
  exact {
    known := by
      rw [nextId, List.range_succ]
      refine (known.map _).trans ?_
      exact (recorded.known.cons _).trans (List.perm_append_singleton _ _).symm
    sent := by
      rw [sent, nextId, List.range_succ, List.map_append, recorded.sent]
      rfl
    records := by
      intro job inside
      rw [sent, marks]
      rcases List.mem_cons.mp (known.mem_iff.mp inside) with rfl | old
      · refine ⟨source, by simp, ?_⟩
        rw [recorded.fresh _ (Nat.le_refl _)]
        exact .waiting
      · obtain ⟨source', inSent, records⟩ := recorded.records job old
        exact ⟨source', List.mem_append_left _ inSent, records⟩
    fresh := by
      intro id new
      rw [marks]
      rw [nextId] at new
      exact recorded.fresh id (Nat.le_of_succ_le new) }

/-- The mark of a job that a worker moves on is recorded, and nothing for other jobs. -/
theorem Recorded.move {index : Nat} {id : JobId} {mark : Mark} {old new : Progress}
    {others : List (JobId × Progress)} (recorded : Recorded backend moments first)
    (nextId : last.pool.nextId = first.pool.nextId)
    (marked : (Moment.mk first (.worked index)).mark? = some (id, mark))
    (moves : Progress.Moves backend old mark new)
    (before : first.pool.progress.Perm ((id, old) :: others))
    (after : last.pool.progress.Perm ((id, new) :: others)) :
    Recorded backend (moments ++ [⟨first, .worked index⟩]) last := by
  have known : (Session.known moments first).Perm
      ((id, old) :: (Trace.settled (Trace.events moments) ++ others)) :=
    (before.append_left _).trans List.perm_middle
  have known' : (Session.known (moments ++ [⟨first, .worked index⟩]) last).Perm
      ((id, new) :: (Trace.settled (Trace.events moments) ++ others)) := by
    simp only [Session.known, Trace.events_append, Trace.settled_append, List.append_assoc]
    exact (after.append_left _).trans List.perm_middle
  have marks (other : JobId) :
      Trace.marks (moments ++ [⟨first, .worked index⟩]) other =
        Trace.marks moments other ++ if id = other then [mark] else [] := by
    rw [Trace.marks_append, Trace.marks_of_mark?_eq_some marked]
  have sent : Trace.sent (Trace.events (moments ++ [⟨first, .worked index⟩])) =
      Trace.sent (Trace.events moments) := by
    rw [Trace.events_append, Trace.sent_append]
    exact List.append_nil _
  have numbers := (known.map (·.1.number)).symm.trans recorded.known
  have apart : id.number ∉
      (Trace.settled (Trace.events moments) ++ others).map (·.1.number) :=
    (List.nodup_cons.mp (numbers.nodup_iff.mpr List.nodup_range)).1
  exact {
    known := by
      rw [nextId]
      exact (known'.map _).trans numbers
    sent := by
      rw [sent, nextId]
      exact recorded.sent
    records := by
      intro job inside
      rw [sent, marks]
      rcases List.mem_cons.mp (known'.mem_iff.mp inside) with rfl | other
      · obtain ⟨source, inSent, records⟩ :=
          recorded.records (id, old) (known.mem_iff.mpr List.mem_cons_self)
        rw [if_pos rfl]
        exact ⟨source, inSent, records.next moves⟩
      · have different : id ≠ job.1 := by
          rintro rfl
          exact apart (List.mem_map_of_mem other)
        rw [if_neg different, List.append_nil]
        exact recorded.records job (known.mem_iff.mpr (List.mem_cons_of_mem _ other))
    fresh := by
      intro other fresh
      rw [nextId] at fresh
      have below : id.number < first.pool.nextId :=
        List.mem_range.mp (numbers.mem_iff.mp List.mem_cons_self)
      have different : id ≠ other := by
        rintro rfl
        exact Nat.not_lt.mpr fresh below
      rw [marks, if_neg different, List.append_nil]
      exact recorded.fresh other fresh }

theorem Change.recorded {event : Event τ} (change : Change backend first event last)
    (recorded : Recorded backend moments first) :
    Recorded backend (moments ++ [⟨first, event⟩]) last := by
  cases change with
  | keep unmarked unsent nextId progress => exact recorded.keep unmarked unsent nextId progress
  | send nextId progress => exact recorded.send nextId progress
  | move nextId marked moves before after => exact recorded.move nextId marked moves before after

end

theorem known_start (workers : Nat) (bound : Option Nat) :
    known [] (start workers bound : Session τ) = [] := by
  simp [known, Trace.settled, Trace.events, start, Pool.start, Pool.progress, Worker.progress]

theorem Recorded.start (backend : Backend) (workers : Nat) (bound : Option Nat) :
    Recorded backend [] (Session.start workers bound : Session τ) where
  known := by
    rw [known_start]
    exact .refl _
  sent := rfl
  records := by
    rw [known_start]
    exact fun _ => nofun
  fresh _ _ := rfl

/-! ## Histories from the start -/

namespace History

variable {workers : Nat} {bound : Option Nat} {moments : List (Moment τ)} {session : Session τ}

theorem placed (history : History backend (start workers bound) moments session) :
    Placed session :=
  history.run.placed (.start workers bound)

/-- The marks of a job say how far it is and what it comes to. -/
theorem recorded (history : History backend (start workers bound) moments session) :
    Recorded backend moments session := by
  induction history with
  | refl => exact .start backend workers bound
  | next earlier step inductionHypothesis =>
      exact (step.change earlier.placed).recorded inductionHypothesis

end History

/-! ## Flags -/

/-- Only a cancellation of a pending job sets a flag, and it sets that of this job. -/
theorem Step.mem_cancelled_iff {first last : Session τ} {event : Event τ}
    (step : Step backend first event last) (id : JobId) :
    id ∈ last.pool.cancelled ↔ id ∈ first.pool.cancelled ∨ event = .cancelled id true := by
  cases step with
  | @cancel pool gone other =>
      unfold Pool.cancel
      split
      · simp [or_comm, eq_comm]
      · simp
  | handle wants taken | handleBreaking wants taken | skip wants taken | raise wants taken known =>
      have same := Pool.cancelled_of_takeOne? taken
      dsimp only at same
      simp [same]
  | work present heard stepped => simp [(Pool.advance?_eq_some_iff.mp stepped).cancelled_eq]
  | _ => simp [Pool.send, Pool.register, Pool.giveUp]

/-- The flag of a job is set exactly when a cancellation of the job has been answered with yes. -/
theorem History.mem_cancelled_iff {workers : Nat} {bound : Option Nat} {moments : List (Moment τ)}
    {session : Session τ} (history : History backend (start workers bound) moments session)
    (id : JobId) :
    id ∈ session.pool.cancelled ↔ .cancelled id true ∈ Trace.events moments := by
  induction history with
  | refl => simp [start, Pool.start, Trace.events]
  | next earlier step inductionHypothesis =>
      rw [step.mem_cancelled_iff, inductionHypothesis, Trace.events_append]
      simp [Trace.events, eq_comm]

end Session

end Sequencer
