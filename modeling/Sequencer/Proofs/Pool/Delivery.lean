import Sequencer.Proofs.Pool.Placement

/-!
# Exactly-once delivery

A trace is balanced when the accepted jobs are those that were handled, those whose crashes were
raised, those that were given up with the pool, and those that are still pending. Every step keeps
the balance, and a call counts the handlers that it calls. Together with the places of the jobs
this says that the handler of an accepted job is called once, in a call that takes completions.
-/

namespace Sequencer

variable {τ : Type}

/-! ## Traces -/

namespace Trace

@[simp]
theorem accepted_append (first last : List (Event τ)) :
    accepted (first ++ last) = accepted first ++ accepted last :=
  List.filterMap_append

@[simp]
theorem handled_append (first last : List (Event τ)) :
    handled (first ++ last) = handled first ++ handled last :=
  List.filterMap_append

@[simp]
theorem raised_append (first last : List (Event τ)) :
    raised (first ++ last) = raised first ++ raised last :=
  List.filterMap_append

@[simp]
theorem dropped_append (first last : List (Event τ)) :
    dropped (first ++ last) = dropped first ++ dropped last :=
  List.flatMap_append

/-- A trace ends inside a call that has called some handlers. -/
def InCall (trace : List (Event τ)) (call : Call) (count : Nat) : Prop :=
  ∃ earlier during, trace = earlier ++ .began call :: during ∧
    (∀ event ∈ during, event.isInside) ∧ (handled during).length = count

theorem InCall.began (trace : List (Event τ)) (call : Call) :
    InCall (trace ++ [.began call]) call 0 :=
  ⟨trace, [], rfl, by simp, rfl⟩

/-- A call goes on with what may happen in it. -/
theorem InCall.next {trace : List (Event τ)} {call : Call} {count : Nat} {event : Event τ}
    (inCall : InCall trace call count) (inside : event.isInside) :
    InCall (trace ++ [event]) call (count + (handled [event]).length) := by
  rcases inCall with ⟨earlier, during, rfl, events, counted⟩
  refine ⟨earlier, during ++ [event], by simp, ?_, ?_⟩
  · intro other happened
    rcases List.mem_append.mp happened with before | now
    · exact events other before
    · rw [List.mem_singleton.mp now]
      exact inside
  · rw [handled_append, List.length_append, counted]

end Trace

namespace Session

variable {backend : Backend}

/-! ## Balance -/

/-- The jobs that a step makes pending and those that were pending are the ones whose handlers are
called, the ones whose crashes are raised, the ones that are given up, and those still pending. -/
theorem Step.balance {first last : Session τ} {event : Event τ}
    (step : Step backend first event last) (placed : Placed first) :
    (Trace.accepted [event] ++ first.pool.pending).Perm
      (Trace.handled [event] ++ (Trace.raised [event] ++
        (Trace.dropped [event] ++ last.pool.pending))) := by
  cases step with
  | refuse | refuseDeserted | send | begin | comeBack | dismiss | finish | leave => exact .refl _
  | accept => exact (List.perm_append_singleton _ _).symm
  | @cancel pool gone id =>
      rw [Pool.pending_cancel]
      exact .refl _
  | handle wants taken =>
      exact placed.pending_perm taken (Pool.ticket?_of_answer taken rfl)
  | handleBreaking wants taken =>
      exact placed.pending_perm taken (Pool.ticket?_of_answer taken rfl)
  | skip wants taken => exact absurd rfl (placed.answer_ne_none taken)
  | raise wants taken known => exact placed.pending_perm taken known
  | desert wants left silent empty => exact absurd empty (placed.not_isDeserted rfl)
  | @abandon pool =>
      have given_up : Trace.dropped [.abandoned pool.pending] ++ pool.giveUp.pending =
          pool.pending := by
        simp [Trace.dropped, Event.dropped, Pool.giveUp]
      rw [given_up]
      exact .refl _
  | work present heard stepped =>
      rw [(Pool.advance?_eq_some_iff.mp stepped).pending_eq]
      exact .refl _

/-- Runs keep the balance of their steps. -/
theorem Run.balance {first last : Session τ} {trace : List (Event τ)}
    (run : Run backend first trace last) (placed : Placed first) :
    (Trace.accepted trace ++ first.pool.pending).Perm
      (Trace.handled trace ++ (Trace.raised trace ++
        (Trace.dropped trace ++ last.pool.pending))) := by
  classical
  induction run with
  | refl => exact .refl _
  | next earlier step inductionHypothesis =>
      have balance := step.balance (earlier.placed placed)
      rw [List.perm_iff_count] at inductionHypothesis balance ⊢
      intro job
      have before := inductionHypothesis job
      have now := balance job
      simp only [Trace.accepted_append, Trace.handled_append, Trace.raised_append,
        Trace.dropped_append, List.count_append] at before now ⊢
      omega

/-! ## Numbers -/

/-- A step numbers one job, which is then being submitted, or it numbers none. -/
theorem Step.numbers {first last : Session τ} {event : Event τ}
    (step : Step backend first event last) :
    (Trace.accepted [event] ++ last.stage.sent = first.stage.sent ∧
        last.pool.nextId = first.pool.nextId) ∨
      ∃ ticket, Trace.accepted [event] = [] ∧ first.stage.sent = [] ∧
        last.stage.sent = [(⟨first.pool.nextId⟩, ticket)] ∧
        last.pool.nextId = first.pool.nextId + 1 := by
  cases step with
  | @send pool gone source ticket staffed room => exact .inr ⟨ticket, rfl, rfl, rfl, rfl⟩
  | refuse | refuseDeserted | accept | begin | comeBack | dismiss | finish | leave | desert =>
      exact .inl ⟨rfl, rfl⟩
  | cancel => exact .inl ⟨rfl, Pool.nextId_cancel _ _⟩
  | handle wants taken => exact .inl ⟨rfl, Pool.nextId_of_takeOne? taken⟩
  | handleBreaking wants taken =>
      exact .inl ⟨Stage.sent_brokenOff _, Pool.nextId_of_takeOne? taken⟩
  | skip wants taken => exact .inl ⟨rfl, Pool.nextId_of_takeOne? taken⟩
  | raise wants taken known =>
      exact .inl ⟨Stage.sent_brokenOff _, Pool.nextId_of_takeOne? taken⟩
  | abandon unwound =>
      rcases unwound with rfl | rfl
      · exact .inl ⟨rfl, rfl⟩
      · exact .inl ⟨rfl, rfl⟩
  | work present heard stepped =>
      exact .inl ⟨rfl, (Pool.advance?_eq_some_iff.mp stepped).nextId_eq⟩

/-- Accepted jobs, and the one that is being submitted, are numbered from zero without a gap. -/
theorem Run.numbers {workers : Nat} {bound : Option Nat} {last : Session τ}
    {trace : List (Event τ)} (run : Run backend (start workers bound) trace last) :
    (Trace.accepted trace ++ last.stage.sent).map (·.1.number) =
      List.range last.pool.nextId := by
  induction run with
  | refl => rfl
  | next earlier step inductionHypothesis =>
      rw [Trace.accepted_append, List.append_assoc]
      rcases step.numbers with ⟨same, nextId⟩ | ⟨ticket, none_accepted, none_sent, sent, nextId⟩
      · rw [same, nextId]
        exact inductionHypothesis
      · rw [none_sent, List.append_nil] at inductionHypothesis
        rw [none_accepted, sent, nextId, List.nil_append, List.map_append, inductionHypothesis]
        exact List.range_succ.symm

/-! ## Jobs that are given up -/

/-- Pending jobs are given up only with the pool. -/
theorem Step.dropped_eq_nil {first last : Session τ} {event : Event τ}
    (step : Step backend first event last) (placed : Placed first) (going : last.stage ≠ .ended) :
    first.stage ≠ .ended ∧ Trace.dropped [event] = [] := by
  cases step with
  | desert wants left silent empty => exact absurd empty (placed.not_isDeserted rfl)
  | finish | abandon => exact absurd rfl going
  | work | leave => exact ⟨going, rfl⟩
  | refuse | refuseDeserted | send | accept | cancel | begin | handle | handleBreaking | skip |
      raise | comeBack | dismiss =>
      exact ⟨nofun, rfl⟩

theorem Run.dropped_eq_nil {first last : Session τ} {trace : List (Event τ)}
    (run : Run backend first trace last) (placed : Placed first) (going : last.stage ≠ .ended) :
    Trace.dropped trace = [] := by
  induction run with
  | refl => rfl
  | next earlier step inductionHypothesis =>
      obtain ⟨before, none_dropped⟩ := step.dropped_eq_nil (earlier.placed placed) going
      rw [Trace.dropped_append, none_dropped, inductionHypothesis before]
      rfl

/-! ## Calls -/

/-- While the owner is in a call, the call counts the handlers that it calls. -/
def CountsCalls (trace : List (Event τ)) (session : Session τ) : Prop :=
  ∀ call count, session.stage.call? = some (call, count) → Trace.InCall trace call count

theorem Step.countsCalls {first last : Session τ} {event : Event τ} {trace : List (Event τ)}
    (step : Step backend first event last) (placed : Placed first)
    (counts : CountsCalls trace first) : CountsCalls (trace ++ [event]) last := by
  intro call count inside
  cases step with
  | begin =>
      cases inside
      exact .began trace call
  | handle wants taken =>
      cases inside
      exact (counts _ _ rfl).next rfl
  | dismiss last done =>
      cases inside
      exact (counts _ _ rfl).next rfl
  | work present heard stepped => exact (counts _ _ inside).next rfl
  | leave present released => exact (counts _ _ inside).next rfl
  | skip wants taken => exact absurd rfl (placed.answer_ne_none taken)
  | desert wants left silent empty => exact absurd empty (placed.not_isDeserted rfl)
  | handleBreaking | raise => simp at inside
  | refuse | refuseDeserted | send | accept | cancel | comeBack | finish | abandon => cases inside

theorem Run.countsCalls {workers : Nat} {bound : Option Nat} {last : Session τ}
    {trace : List (Event τ)} (run : Run backend (start workers bound) trace last) :
    CountsCalls trace last := by
  induction run with
  | refl =>
      intro call count inside
      cases inside
  | next earlier step inductionHypothesis =>
      exact step.countsCalls (earlier.placed (.start workers bound)) inductionHypothesis

/-! ## Runs from the start -/

section Start

variable {workers : Nat} {bound : Option Nat} {trace : List (Event τ)} {session : Session τ}

/-- Every event of a trace is that of a step of a placed session. -/
theorem Run.exists_placed_step (run : Run backend (start workers bound) trace session)
    {event : Event τ} (happened : event ∈ trace) :
    ∃ middle next, Placed middle ∧ Step backend middle event next := by
  obtain ⟨before, after, rfl⟩ := List.append_of_mem happened
  rcases run.exists_step with ⟨middle, next, earlier, step⟩
  exact ⟨middle, next, earlier.placed (.start workers bound), step⟩

/-- Every accepted job was handled, was raised, was given up, or is pending. -/
theorem Run.accounted (run : Run backend (start workers bound) trace session) :
    (Trace.accepted trace).Perm (Trace.handled trace ++ (Trace.raised trace ++
      (Trace.dropped trace ++ session.pool.pending))) := by
  have balance := run.balance (.start workers bound)
  have none_pending : (start workers bound : Session τ).pool.pending = [] := rfl
  rwa [none_pending, List.append_nil] at balance

theorem Run.map_number_accepted (run : Run backend (start workers bound) trace session) :
    (Trace.accepted trace).map (·.1.number) = List.range (Trace.accepted trace).length := by
  have numbers := congrArg (List.take (Trace.accepted trace).length) run.numbers
  have total := congrArg List.length run.numbers
  simp only [List.length_map, List.length_append, List.length_range] at total
  rw [List.map_append, List.take_left' (List.length_map _), List.take_range,
    Nat.min_eq_left (by omega)] at numbers
  exact numbers

/-- Accepted jobs have numbers of their own. -/
theorem Run.nodup_accepted (run : Run backend (start workers bound) trace session) :
    ((Trace.accepted trace).map Prod.fst).Nodup := by
  apply List.Nodup.of_map JobId.number
  rw [List.map_map]
  exact run.map_number_accepted ▸ List.nodup_range

/-- Handled and raised jobs were accepted, each once. -/
theorem Run.subperm_accepted (run : Run backend (start workers bound) trace session) :
    (Trace.handled trace ++ Trace.raised trace).Subperm (Trace.accepted trace) := by
  apply List.Subperm.trans _ run.accounted.symm.subperm
  rw [← List.append_assoc]
  exact (List.sublist_append_left _ _).subperm

/-- Where nothing is pending and the pool has not ended, all accepted jobs are accounted for. -/
theorem Run.accepted_perm (run : Run backend (start workers bound) trace session)
    (going : session.stage ≠ .ended) (rested : session.pool.pending = []) :
    (Trace.accepted trace).Perm (Trace.handled trace ++ Trace.raised trace) := by
  have accounted := run.accounted
  rwa [run.dropped_eq_nil (.start workers bound) going, rested, List.append_nil,
    List.append_nil] at accounted

end Start

/-- A call that comes back was counted. -/
theorem Step.call?_of_returned {first last : Session τ} {call : Call} {count : Nat}
    (step : Step backend first (.returned call count) last) :
    first.stage.call? = some (call, count) := by
  cases step <;> rfl

/-- A handler is called inside a call. -/
theorem Step.call?_of_handled {first last : Session τ} {id : JobId} {ticket : τ} {outcome : Outcome}
    (step : Step backend first (.handled id ticket outcome) last) :
    ∃ call count, first.stage.call? = some (call, count) := by
  cases step <;> exact ⟨_, _, rfl⟩

/-- A call that empties the pool comes back when nothing is pending. -/
theorem Step.pending_of_returned {first last : Session τ} {call : Call} {count : Nat}
    (step : Step backend first (.returned call count) last) (placed : Placed first)
    (not_poll : call ≠ .poll) (not_waitOne : call ≠ .waitOne) :
    first.stage ≠ .ended ∧ first.pool.pending = [] := by
  cases step with
  | comeBack notLast done =>
      refine ⟨nofun, ?_⟩
      rcases done with rested | enough | ⟨poll, -⟩
      · exact rested
      · cases call with
        | waitOne => exact absurd rfl not_waitOne
        | poll | runUntilIdle | shutDown | drop => cases enough
      · exact absurd poll not_poll
  | finish empty => exact ⟨nofun, placed.rested _ _ rfl⟩

/-- The handler that a step calls is that of a pending job. -/
theorem Step.mem_pending_of_handled {first last : Session τ} {id : JobId} {ticket : τ}
    {outcome : Outcome} (step : Step backend first (.handled id ticket outcome) last) :
    (id, ticket) ∈ first.pool.pending := by
  cases step with
  | handle wants taken =>
      exact Pool.mem_pending_of_ticket? (Pool.ticket?_of_answer taken rfl)
  | handleBreaking wants taken =>
      exact Pool.mem_pending_of_ticket? (Pool.ticket?_of_answer taken rfl)

/-! ## Exactly once -/

/-- What holds of a session that has come about by a trace, and of its runs from then on. -/
structure DeliversOnce (backend : Backend) (trace : List (Event τ)) (session : Session τ) :
    Prop where
  /-- Until the pool has ended, the pending jobs, with the one that is being submitted, are those in
  the queue, in the hands of workers, and completed, and each is in one of these places once. -/
  placed : session.stage ≠ .ended →
    session.pool.places.Perm (session.live.map Prod.fst) ∧ session.pool.places.Nodup
  /-- No completion is taken of a job that is not pending. -/
  known : ∀ id, .unknown id ∉ trace
  /-- The workers are never found gone, neither by a submission nor by a call. -/
  staffed : (∀ ticket, .refused ticket .shutDown ∉ trace) ∧ ∀ jobs, .deserted jobs ∉ trace
  /-- Accepted jobs are numbered from zero. -/
  numbered : (Trace.accepted trace).map (·.1.number) = List.range (Trace.accepted trace).length
  /-- A job is handled once or its crash is raised once, and not both. -/
  once : ((Trace.handled trace ++ Trace.raised trace).map Prod.fst).Nodup
  /-- The handler that is called for a job is the one that it was accepted with, and it is called
  inside a call that takes completions. -/
  inside : ∀ before after id ticket outcome, trace = before ++ .handled id ticket outcome :: after →
    (id, ticket) ∈ Trace.accepted before ∧ ∃ call count, Trace.InCall before call count
  /-- Tickets are used no more often than jobs were accepted with them, so that of a refused job is
  not used. -/
  fromAccepted : (Trace.handled trace).Subperm (Trace.accepted trace)
  /-- A call comes back with the number of the handlers that it has called. -/
  counted : ∀ before after call count, trace = before ++ .returned call count :: after →
    Trace.InCall before call count
  /-- When a call that empties the pool comes back, every accepted job was handled or raised. -/
  emptied : ∀ before after call count, trace = before ++ .returned call count :: after →
    call ≠ .poll → call ≠ .waitOne →
    (Trace.accepted before).Perm (Trace.handled before ++ Trace.raised before)
  /-- The pending jobs become fewer by the handlers called and the crashes raised, and by those
  that are given up when the pool ends. -/
  pending : ∀ during later, Run backend session during later →
    session.pool.pendingCount + (Trace.accepted during).length =
      later.pool.pendingCount + (Trace.handled during).length + (Trace.raised during).length +
        (Trace.dropped during).length ∧
    (later.stage ≠ .ended → Trace.dropped during = [])

/-- Exactly-once delivery, whatever the owner and the workers do and in whatever order. -/
theorem Run.deliversOnce {workers : Nat} {bound : Option Nat} {trace : List (Event τ)}
    {session : Session τ} (run : Run backend (start workers bound) trace session) :
    DeliversOnce backend trace session where
  placed going := by
    have placed := run.placed (.start workers bound)
    exact ⟨placed.places going, placed.once going⟩
  known id happened := by
    obtain ⟨middle, next, placed, step⟩ := run.exists_placed_step happened
    exact step.not_unknown placed
  staffed := by
    constructor
    · intro ticket happened
      obtain ⟨middle, next, placed, step⟩ := run.exists_placed_step happened
      exact step.not_refused_shutDown placed
    · intro jobs happened
      obtain ⟨middle, next, placed, step⟩ := run.exists_placed_step happened
      exact step.not_deserted placed
  numbered := run.map_number_accepted
  once := by
    rcases run.subperm_accepted with ⟨same, reordered, within⟩
    exact (reordered.map Prod.fst).nodup_iff.mp
      ((within.map Prod.fst).nodup run.nodup_accepted)
  inside := by
    rintro before after id ticket outcome rfl
    rcases run.exists_step with ⟨middle, next, earlier, step⟩
    constructor
    · have pending := step.mem_pending_of_handled
      apply earlier.accounted.mem_iff.mpr
      simp [pending]
    · obtain ⟨call, count, inside⟩ := step.call?_of_handled
      exact ⟨call, count, earlier.countsCalls call count inside⟩
  fromAccepted := (List.sublist_append_left _ _).subperm.trans run.subperm_accepted
  counted := by
    rintro before after call count rfl
    rcases run.exists_step with ⟨middle, next, earlier, step⟩
    exact earlier.countsCalls call count step.call?_of_returned
  emptied := by
    rintro before after call count rfl not_poll not_waitOne
    rcases run.exists_step with ⟨middle, next, earlier, step⟩
    obtain ⟨going, rested⟩ := step.pending_of_returned (earlier.placed (.start workers bound))
      not_poll not_waitOne
    exact earlier.accepted_perm going rested
  pending := by
    intro during later rest
    have placed := run.placed (.start workers bound)
    have balance := (rest.balance placed).length_eq
    simp only [List.length_append] at balance
    constructor
    · unfold Pool.pendingCount
      omega
    · exact rest.dropped_eq_nil placed

/-- A backend that cannot compile the empty list and breaks its contract on every other one. -/
def unsteady : Backend where
  compile source := .ok (if source.isEmpty then .error .unknown else .ok ⟨[], 0⟩)
  totalSteps _ := .ok (.error (.truncatedFrame 0))

/-- One job is taken by the worker before it is pending, one is raised, and one is refused. -/
theorem deliversOnce_unsteady :
    DeliversOnce unsteady
      [.sent ⟨0⟩ [], .worked 0, .accepted ⟨0⟩ 7, .worked 0, .sent ⟨1⟩ ['x'], .accepted ⟨1⟩ 8,
        .refused 9 (.queueFull 1), .began .poll, .returned .poll 0, .worked 0, .worked 0,
        .cancelled ⟨0⟩ true, .began .runUntilIdle, .handled ⟨0⟩ 7 (.ofFailure .unknown), .worked 0,
        .worked 0, .worked 0, .worked 0, .raised ⟨1⟩ 8 (.brokenContract (.truncatedFrame 0)),
        .began .shutDown, .dismissed, .left 0, .returned .shutDown 0]
      ⟨⟨some 1, [], [.idle], [], [], [⟨0⟩], 2⟩, .ended, [0]⟩ := by
  have present : (0 : Nat) ∉ ([] : List Nat) := List.not_mem_nil
  apply @Run.deliversOnce _ _ 1 (some 1)
  refine .cons (.send 7 (by decide) rfl) ?_
  refine .cons (.work present (Pool.not_mayLeave _ rfl _) rfl) ?_
  refine .cons .accept ?_
  refine .cons (.work present (Pool.not_mayLeave _ rfl _) rfl) ?_
  refine .cons (.send 8 (by decide) rfl) ?_
  refine .cons .accept ?_
  refine .cons (.refuse [] (by decide) rfl) ?_
  refine .cons .begin ?_
  refine .cons (.comeBack rfl (.inr (.inr ⟨rfl, rfl, by decide⟩))) ?_
  refine .cons (.work present (Pool.not_mayLeave _ rfl _) rfl) ?_
  refine .cons (.work present (Pool.not_mayLeave _ rfl _) rfl) ?_
  refine .cons .cancel ?_
  refine .cons .begin ?_
  refine .cons (.handle rfl rfl) ?_
  refine .cons (.work present (Pool.not_mayLeave _ rfl _) rfl) ?_
  refine .cons (.work present (Pool.not_mayLeave _ rfl _) rfl) ?_
  refine .cons (.work present (Pool.not_mayLeave _ rfl _) rfl) ?_
  refine .cons (.work present (Pool.not_mayLeave _ rfl _) rfl) ?_
  refine .cons (.raise rfl rfl rfl) ?_
  refine .cons .begin ?_
  refine .cons (.dismiss rfl rfl) ?_
  refine .cons (.leave present (.inl ⟨rfl, rfl, rfl⟩)) ?_
  exact .cons (.finish (by decide)) .refl

end Session

end Sequencer
