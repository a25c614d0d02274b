import Sequencer.Proofs.Pool.Cancellation

/-!
# Refusals

A submission takes a number, offers the job to the queue, and only then counts the number and
registers the ticket. When the queue refuses the job nothing has happened yet
(`Pool.run_submitInOrder`). So whatever the owner and the workers do, it could be done without the
submissions that were refused (`Session.History.withoutRefusals`).
-/

namespace Sequencer

variable {τ : Type}

/-! ## Submitting, one thing after the other -/

namespace Pool

/-- Put a job into the queue if there is room. -/
def trySend (task : Task) : EStateM Refusal (Pool τ) Unit := do
  let pool ← get
  if pool.isFull then throw (.queueFull (pool.bound.getD 0))
  set { pool with queue := pool.queue ++ [task] }

/-- Submit a job. The number is taken before the job is offered to the queue, and counted
afterwards. -/
def submitInOrder (source : List Char) (ticket : τ) : EStateM Refusal (Pool τ) JobId := do
  let id : JobId := ⟨(← get).nextId⟩
  trySend ⟨id, source⟩
  modify fun pool => { pool with nextId := pool.nextId + 1 }
  modify fun pool => pool.register id ticket
  return id

/-- In whatever order it is done, a refused submission leaves the pool as it was. -/
theorem run_submitInOrder (pool : Pool τ) (source : List Char) (ticket : τ) :
    (submitInOrder source ticket).run pool =
      match pool.submit source ticket with
      | .error refusal => .error refusal pool
      | .ok (id, next) => .ok id next := by
  unfold submitInOrder trySend submit
  cases full : pool.isFull with
  | true => simp [full]
  | false => simp [full, register, -bind_pure_comp]

/-! ## Bounds -/

theorem submit_eq_error_iff {pool : Pool τ} {source : List Char} {ticket : τ} {refusal : Refusal} :
    pool.submit source ticket = .error refusal ↔
      pool.isFull ∧ refusal = .queueFull (pool.bound.getD 0) := by
  unfold submit
  cases pool.isFull with
  | true => simp [eq_comm]
  | false => simp

/-- A pool has a bound, and no more jobs wait than it allows. -/
structure WithinBound (bound : Option Nat) (pool : Pool τ) : Prop where
  bound_eq : pool.bound = bound
  length_le : ∀ limit, bound = some limit → pool.queue.length ≤ max limit 1

namespace WithinBound

variable {bound : Option Nat} {pool : Pool τ}

theorem start (workers : Nat) (bound : Option Nat) :
    WithinBound bound (Pool.start workers bound : Pool τ) where
  bound_eq := rfl
  length_le _ _ := Nat.zero_le _

/-- A pool is full when as many jobs wait as its bound allows. -/
theorem isFull_iff (within : WithinBound bound pool) :
    pool.isFull ↔ ∃ limit, bound = some limit ∧ pool.queue.length = max limit 1 := by
  obtain ⟨rfl, length_le⟩ := within
  unfold isFull
  split
  · rename_i unbounded
    simp [unbounded]
  · rename_i limit bounded
    have atMost := length_le limit bounded
    rw [decide_eq_true_eq]
    constructor
    · intro full
      exact ⟨limit, bounded, Nat.le_antisymm atMost full⟩
    · rintro ⟨other, same, full⟩
      rw [bounded, Option.some.injEq] at same
      subst same
      exact Nat.le_of_eq full.symm

theorem submit_eq_error_iff (within : WithinBound bound pool) {source : List Char} {ticket : τ}
    {refusal : Refusal} :
    pool.submit source ticket = .error refusal ↔
      ∃ limit, bound = some limit ∧ pool.queue.length = max limit 1 ∧
        refusal = .queueFull limit := by
  rw [Pool.submit_eq_error_iff, within.isFull_iff, within.bound_eq]
  constructor
  · rintro ⟨⟨limit, rfl, full⟩, rfl⟩
    exact ⟨limit, rfl, full, rfl⟩
  · rintro ⟨limit, rfl, full, rfl⟩
    exact ⟨⟨limit, rfl, full⟩, rfl⟩

theorem send (within : WithinBound bound pool) (room : pool.isFull = false) (source : List Char) :
    WithinBound bound (pool.send source) where
  bound_eq := within.bound_eq
  length_le limit bounded := by
    have atMost := within.length_le limit bounded
    have notFull : pool.queue.length ≠ max limit 1 := by
      intro full
      rw [within.isFull_iff.mpr ⟨limit, bounded, full⟩] at room
      cases room
    simp only [Pool.send, List.length_append, List.length_cons, List.length_nil]
    omega

theorem cancel (within : WithinBound bound pool) (id : JobId) :
    WithinBound bound (pool.cancel id).2 := by
  unfold Pool.cancel
  split
  · exact ⟨within.bound_eq, within.length_le⟩
  · exact within

theorem take {receipt : Receipt τ} (within : WithinBound bound pool)
    (taken : pool.takeOne? = some receipt) : WithinBound bound receipt.pool := by
  rcases takeOne?_eq_some_iff.mp taken with ⟨-, completion, rest, -, rfl⟩
  exact ⟨within.bound_eq, within.length_le⟩

theorem work {backend : Backend} {index : Nat} {next : Pool τ} (within : WithinBound bound pool)
    (works : Works backend pool index next) : WithinBound bound next := by
  cases works with
  | take found waiting =>
      refine ⟨within.bound_eq, fun limit bounded => ?_⟩
      have atMost := within.length_le limit bounded
      rw [waiting] at atMost
      exact Nat.le_of_succ_le atMost
  | heed | compile | complete | handBack => exact ⟨within.bound_eq, within.length_le⟩

end WithinBound

end Pool

namespace Session

variable {backend : Backend}

theorem Step.withinBound {first last : Session τ} {event : Event τ} {bound : Option Nat}
    (step : Step backend first event last) (within : first.pool.WithinBound bound) :
    last.pool.WithinBound bound := by
  cases step with
  | refuse | refuseDeserted | begin | comeBack | dismiss | finish | leave => exact within
  | send ticket staffed room => exact within.send room _
  | accept | desert | abandon => exact ⟨within.bound_eq, within.length_le⟩
  | cancel => exact within.cancel _
  | handle wants taken | handleBreaking wants taken | skip wants taken | raise wants taken =>
      exact within.take taken
  | work present heard stepped => exact within.work (Pool.advance?_eq_some_iff.mp stepped)

theorem Run.withinBound {first last : Session τ} {trace : List (Event τ)} {bound : Option Nat}
    (run : Run backend first trace last) (within : first.pool.WithinBound bound) :
    last.pool.WithinBound bound := by
  induction run with
  | refl => exact within
  | next earlier step inductionHypothesis => exact step.withinBound inductionHypothesis

/-! ## Refusals in a session -/

/-- A submission can be refused exactly when the pool refuses it, and nothing happens then. -/
theorem Placed.refused_iff {session next : Session τ} {ticket : τ} {refusal : Refusal}
    (placed : Placed session) (free : session.stage = .free) (source : List Char) :
    Step backend session (.refused ticket refusal) next ↔
      session.pool.submit source ticket = .error refusal ∧ next = session := by
  rcases session with ⟨pool, stage, gone⟩
  obtain rfl : stage = .free := free
  have staffed := placed.not_isDeserted rfl
  constructor
  · intro step
    cases step with
    | refuse other _ refused =>
        exact ⟨Pool.submit_eq_error_iff.mpr (Pool.submit_eq_error_iff.mp refused), rfl⟩
    | refuseDeserted empty => exact absurd empty staffed
  · rintro ⟨refused, rfl⟩
    exact .refuse source staffed refused

/-- A job can be sent exactly when the pool is not full. -/
theorem Placed.sent_iff {session : Session τ} (placed : Placed session)
    (free : session.stage = .free) (source : List Char) (ticket : τ) :
    Step backend session (.sent ⟨session.pool.nextId⟩ source)
        ⟨session.pool.send source, .registering ⟨session.pool.nextId⟩ ticket, session.gone⟩ ↔
      session.pool.isFull = false := by
  rcases session with ⟨pool, stage, gone⟩
  obtain rfl : stage = .free := free
  constructor
  · intro step
    cases step with
    | send _ staffed room => exact room
  · exact .send ticket (placed.not_isDeserted rfl)

end Session

/-- Whether an event is a refusal. -/
def Event.isRefusal : Event τ → Bool
  | .refused .. => true
  | _ => false

/-- What happened at some moments, the refusals left out. -/
def Trace.withoutRefusals (moments : List (Moment τ)) : List (Moment τ) :=
  moments.filter fun moment => !moment.event.isRefusal

/-- What does not read refusals reads the same without them. -/
theorem Trace.filterMap_withoutRefusals {β : Type} {read : Moment τ → Option β}
    (silent : ∀ moment, moment.event.isRefusal → read moment = none) (moments : List (Moment τ)) :
    (withoutRefusals moments).filterMap read = moments.filterMap read := by
  rw [withoutRefusals, List.filterMap_filter]
  apply List.filterMap_congr
  intro moment _
  cases refusal : moment.event.isRefusal with
  | true => exact (silent moment refusal).symm
  | false => rfl

theorem Trace.filterMap_congr {β : Type} {read : Moment τ → Option β}
    (silent : ∀ moment, moment.event.isRefusal → read moment = none)
    {kept moments : List (Moment τ)} (same : withoutRefusals kept = withoutRefusals moments) :
    kept.filterMap read = moments.filterMap read := by
  rw [← filterMap_withoutRefusals silent, same, filterMap_withoutRefusals silent]

/-- What events other than refusals say is the same where they are the same. -/
theorem Trace.filterMap_events_congr {β : Type} {read : Event τ → Option β}
    (silent : ∀ event, event.isRefusal → read event = none) {kept moments : List (Moment τ)}
    (same : withoutRefusals kept = withoutRefusals moments) :
    (events kept).filterMap read = (events moments).filterMap read := by
  rw [events, events, List.filterMap_map, List.filterMap_map]
  exact filterMap_congr (fun moment => silent moment.event) same

theorem Trace.marks_congr {kept moments : List (Moment τ)}
    (same : withoutRefusals kept = withoutRefusals moments) (id : JobId) :
    marks kept id = marks moments id := by
  rw [marks, marks]
  congr 1
  apply filterMap_congr _ same
  rintro ⟨session, event⟩ refusal
  cases event <;> first | rfl | cases refusal

namespace Session

variable {backend : Backend}

theorem Step.eq_of_isRefusal {first last : Session τ} {event : Event τ}
    (step : Step backend first event last) (refusal : event.isRefusal) : last = first := by
  cases step with
  | refuse | refuseDeserted => rfl
  | _ => cases refusal

/-- Some of the refusals may be left out of a history. -/
theorem History.withoutRefusals {first last : Session τ} {moments kept : List (Moment τ)}
    (history : History backend first moments last) (within : kept.Sublist moments)
    (same : Trace.withoutRefusals kept = Trace.withoutRefusals moments) :
    History backend first kept last := by
  induction history generalizing kept with
  | refl =>
      rw [List.sublist_nil.mp within]
      exact .refl
  | @next moments middle event last earlier step inductionHypothesis =>
      obtain ⟨before, final, rfl, early, late⟩ := List.sublist_append_iff.mp within
      simp only [Trace.withoutRefusals, List.filter_append] at same
      rcases List.sublist_singleton.mp late with rfl | rfl
      · -- Nothing but a refusal can be missing at the end.
        have counted := congrArg List.length same
        have fewer := (early.filter fun moment => !moment.event.isRefusal).length_le
        simp only [List.filter_nil, List.append_nil, List.length_append] at counted
        have refusal : event.isRefusal := by
          by_contra other
          simp only [Bool.not_eq_true] at other
          simp [other] at counted
          omega
        rw [step.eq_of_isRefusal refusal, List.append_nil]
        apply inductionHypothesis early
        simpa [Trace.withoutRefusals, refusal] using same
      · exact .next (inductionHypothesis early (List.append_cancel_right same)) step

section Start

variable {workers : Nat} {bound : Option Nat} {moments : List (Moment τ)} {session : Session τ}

theorem History.withinBound (history : History backend (start workers bound) moments session) :
    session.pool.WithinBound bound :=
  history.run.withinBound (.start workers bound)

/-- What is handed out goes to tickets of accepted jobs. -/
theorem Run.exists_accepted_of_delivered {trace : List (Event τ)}
    (run : Run backend (start workers bound) trace session) {ticket : τ} {outcome : Outcome}
    (delivered : (ticket, outcome) ∈ Trace.delivered trace) :
    ∃ id, .accepted id ticket ∈ trace := by
  obtain ⟨event, happened, same⟩ := List.mem_filterMap.mp delivered
  cases event with
  | handled id =>
      cases same
      have handled := Trace.mem_handled_iff.mpr ⟨outcome, happened⟩
      exact ⟨id, Trace.mem_accepted_iff.mp
        (run.subperm_accepted.subset (List.mem_append_left _ handled))⟩
  | _ => cases same

/-- What holds of a session that has come about by some moments: a refused submission leaves no
trace. -/
structure ForgetsRefusals (backend : Backend) (workers : Nat) (bound : Option Nat)
    (moments : List (Moment τ)) (session : Session τ) : Prop where
  /-- A submission is refused exactly when there is a bound and as many jobs wait as it says, or one
  if it says that none may. -/
  refuses : ∀ source ticket refusal, session.pool.submit source ticket = .error refusal ↔
    ∃ limit, bound = some limit ∧ session.pool.queue.length = max limit 1 ∧
      refusal = .queueFull limit
  /-- By then nothing has been done to the pool that would have to be undone. -/
  unchanged : ∀ source ticket refusal pool,
    (Pool.submitInOrder source ticket).run session.pool = .error refusal pool →
      pool = session.pool
  /-- The owner of an open pool can meet with this refusal and with no other one, and everything is
  then as it was. -/
  refused : session.stage = .free → ∀ ticket refusal next,
    Step backend session (.refused ticket refusal) next ↔
      (∃ limit, bound = some limit ∧ session.pool.queue.length = max limit 1 ∧
        refusal = .queueFull limit) ∧ next = session
  /-- Otherwise it can send its job. -/
  sent : session.stage = .free → ∀ source ticket,
    Step backend session (.sent ⟨session.pool.nextId⟩ source)
        ⟨session.pool.send source, .registering ⟨session.pool.nextId⟩ ticket, session.gone⟩ ↔
      ¬ ∃ limit, bound = some limit ∧ session.pool.queue.length = max limit 1
  /-- A handler that has not come with an accepted job is not called. -/
  unheard : ∀ ticket, (∀ id, .accepted id ticket ∉ Trace.events moments) →
    ∀ outcome, (ticket, outcome) ∉ Trace.delivered (Trace.events moments)
  /-- Whichever refused submissions are left out, the rest can happen just as it did, moment by
  moment: jobs get the same numbers, workers do the same with them, and the same is handed out or
  raised in the same order. -/
  without : ∀ kept, kept.Sublist moments →
    Trace.withoutRefusals kept = Trace.withoutRefusals moments →
      History backend (start workers bound) kept session ∧
      Trace.sent (Trace.events kept) = Trace.sent (Trace.events moments) ∧
      Trace.accepted (Trace.events kept) = Trace.accepted (Trace.events moments) ∧
      (∀ id, Trace.marks kept id = Trace.marks moments id) ∧
      Trace.delivered (Trace.events kept) = Trace.delivered (Trace.events moments) ∧
      Trace.settled (Trace.events kept) = Trace.settled (Trace.events moments)

/-- Refused submissions leave no trace, whatever else the owner and the workers do. -/
theorem History.forgetsRefusals (history : History backend (start workers bound) moments session) :
    ForgetsRefusals backend workers bound moments session where
  refuses source ticket refusal := history.withinBound.submit_eq_error_iff
  unchanged source ticket refusal pool refused := by
    rw [Pool.run_submitInOrder] at refused
    split at refused
    · cases refused
      rfl
    · cases refused
  refused free ticket refusal next := by
    rw [history.placed.refused_iff free [], history.withinBound.submit_eq_error_iff]
  sent free source ticket := by
    rw [history.placed.sent_iff free, ← history.withinBound.isFull_iff, Bool.not_eq_true]
  unheard ticket unaccepted outcome delivered := by
    obtain ⟨id, accepted⟩ := history.run.exists_accepted_of_delivered delivered
    exact unaccepted id accepted
  without kept within same := by
    refine ⟨history.withoutRefusals within same, ?_, ?_, Trace.marks_congr same, ?_, ?_⟩
    all_goals
      apply Trace.filterMap_events_congr _ same
      intro event refusal
      cases event <;> first | rfl | cases refusal

end Start

/-- A pool that lets no job wait lets one wait. Three submissions are refused, one of them again
when a job has gone to the worker and another one has come. -/
theorem forgetsRefusals_unsteady :
    ∃ moments, Trace.events moments =
        [.sent ⟨0⟩ [], .accepted ⟨0⟩ 7, .refused 8 (.queueFull 0), .refused 6 (.queueFull 0),
          .worked 0, .sent ⟨1⟩ [], .accepted ⟨1⟩ 8, .refused 6 (.queueFull 0), .worked 0, .worked 0,
          .worked 0, .began .waitOne, .handled ⟨0⟩ 7 (.ofFailure .unknown), .returned .waitOne 1] ∧
      ForgetsRefusals unsteady 1 (some 0) moments
        ⟨⟨some 0, [⟨⟨1⟩, []⟩], [.idle], [], [(⟨1⟩, 8)], [], 2⟩, .free, []⟩ := by
  have present : (0 : Nat) ∉ ([] : List Nat) := List.not_mem_nil
  have run : Run unsteady (start 1 (some 0))
      [.sent ⟨0⟩ [], .accepted ⟨0⟩ 7, .refused 8 (.queueFull 0), .refused 6 (.queueFull 0),
        .worked 0, .sent ⟨1⟩ [], .accepted ⟨1⟩ 8, .refused 6 (.queueFull 0), .worked 0, .worked 0,
        .worked 0, .began .waitOne, .handled ⟨0⟩ 7 (.ofFailure .unknown), .returned .waitOne 1]
      ⟨⟨some 0, [⟨⟨1⟩, []⟩], [.idle], [], [(⟨1⟩, 8)], [], 2⟩, .free, []⟩ := by
    refine .cons (.send 7 (by decide) rfl) ?_
    refine .cons .accept ?_
    refine .cons (.refuse [] (by decide) rfl) ?_
    refine .cons (.refuse ['x'] (by decide) rfl) ?_
    refine .cons (.work present (Pool.not_mayLeave _ rfl _) rfl) ?_
    refine .cons (.send 8 (by decide) rfl) ?_
    refine .cons .accept ?_
    refine .cons (.refuse ['x'] (by decide) rfl) ?_
    refine .cons (.work present (Pool.not_mayLeave _ rfl _) rfl) ?_
    refine .cons (.work present (Pool.not_mayLeave _ rfl _) rfl) ?_
    refine .cons (.work present (Pool.not_mayLeave _ rfl _) rfl) ?_
    refine .cons .begin ?_
    refine .cons (.handle rfl rfl) ?_
    exact .cons (.comeBack rfl (.inr (.inl rfl))) .refl
  obtain ⟨moments, events, history⟩ := run.exists_history
  exact ⟨moments, events, history.forgetsRefusals⟩

end Session

end Sequencer
