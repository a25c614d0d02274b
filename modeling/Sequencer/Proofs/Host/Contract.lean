import Sequencer.Proofs.Host.Boundary

/-!
# The contract with a host

A host that calls the native, polls, and runs the library until it is idle, in any order, is told of
each of its jobs once, and of nothing else (`Boundary.Run.keepsContract`).

Beneath the boundary nothing is cancelled and nothing crashes, so a job comes to what its source is
executed to. It is numbered when a call puts it into the queue, and its number ties the call to what
the host is told.
-/

namespace Sequencer

open Native

variable {σ : Type}

namespace Boundary

variable {host : Host σ} {limits : Limits}

/-! ## What never happens -/

/-- Where the owner of a pool may be at a boundary. -/
def IsInUse : Stage Callback → Prop
  | .free | .registering .. => True
  | .taking call _ => call = .poll ∨ call = .runUntilIdle
  | .joining .. | .unwinding | .ended => False

theorem isInUse_brokenOff {call : Call} (known : call = .poll ∨ call = .runUntilIdle) :
    IsInUse (.brokenOff call) := by
  rcases known with rfl | rfl
  · trivial
  · trivial

theorem Step.isInUse {first last : Boundary σ} {happening : Happening}
    (step : Step host limits first happening last) (inUse : IsInUse first.session.stage) :
    IsInUse last.session.stage := by
  cases step with
  | fail | turnAway | queue => trivial
  | answer step =>
      cases step
      trivial
  | begin known step =>
      cases step
      exact known
  | tell step completed => exact inUse
  | comeBack step =>
      cases step with
      | comeBack => trivial
      | finish => exact inUse.elim
  | work step =>
      rw [step.remaining_lt_of_worked.1]
      exact inUse
  | act => exact inUse
  | skip step =>
      cases step
      exact inUse
  | raise step =>
      cases step
      exact isInUse_brokenOff inUse
  | desert step =>
      cases step
      exact inUse

theorem Run.isInUse {first last : Boundary σ} {trace : List Happening}
    (run : Run host limits first trace last) (inUse : IsInUse first.session.stage) :
    IsInUse last.session.stage := by
  induction run with
  | refl => exact inUse
  | next earlier step inductionHypothesis => exact step.isInUse inductionHypothesis

/-! ## Runs from the start -/

section Start

variable {workers : Nat} {bound : Option Nat} {trace : List Happening} {state : σ}
  {boundary : Boundary σ}

theorem Run.placed (run : Run host limits (start workers bound state) trace boundary) :
    Session.Placed boundary.session :=
  run.session.placed (.start workers bound)

/-- Between calls nothing is left to remember but the pool and the host. -/
theorem Run.exists_eq_of_free (run : Run host limits (start workers bound state) trace boundary)
    (free : boundary.session.stage = .free) :
    ∃ pool after, boundary = ⟨⟨pool, .free, []⟩, after⟩ := by
  have placed := run.placed
  rcases boundary with ⟨⟨pool, stage, gone⟩, after⟩
  cases free
  cases placed.present rfl
  exact ⟨pool, after, rfl⟩

/-- A job comes to what its source is executed to. -/
theorem Run.settled (run : Run host limits (start workers bound state) trace boundary) {id : JobId}
    {result : Except Crash Outcome}
    (ended : (id, .settled result) ∈ Trace.settled (Trace.beneath trace)) :
    ∃ source, (∀ other, .sent id other ∈ Trace.beneath trace ↔ other = source) ∧
      execute (.ofLimits limits) source = result := by
  obtain ⟨moments, events, history⟩ := run.session.exists_history
  rw [← events] at ended ⊢
  apply history.settled_of_uncancelled _ ended
  rw [events]
  exact Trace.cancelled_not_mem_beneath trace

theorem Run.not_raised (run : Run host limits (start workers bound state) trace boundary)
    (id : JobId) (callback : Callback) (crash : Crash) :
    .raised id callback crash ∉ Trace.beneath trace := by
  intro happened
  obtain ⟨source, -, crashed⟩ := run.settled (Trace.mem_settled_of_raised happened)
  rw [execute_ofLimits_eq_ok] at crashed
  cases crashed

/-- What the library is ready for though it never comes about does not come about. -/
theorem Run.isUnforeseen_eq_false
    (run : Run host limits (start workers bound state) trace boundary) :
    ∀ happening ∈ trace, happening.isUnforeseen = false := by
  intro happening happened
  cases happening with
  | unknown id =>
      obtain ⟨middle, next, placed, step⟩ :=
        run.session.exists_placed_step (Trace.mem_beneath happened rfl)
      exact (step.not_unknown placed).elim
  | raised id callback crash =>
      exact absurd (Trace.mem_beneath happened rfl) (run.not_raised id callback crash)
  | deserted jobs =>
      obtain ⟨middle, next, placed, step⟩ :=
        run.session.exists_placed_step (Trace.mem_beneath happened rfl)
      exact (step.not_deserted placed).elim
  | _ => rfl

/-! ## Jobs -/

/-- A call that makes a job is going to be answered with null, and asks for the job. -/
theorem Step.of_queued {first last : Boundary σ} {id : JobId} {source : List Char}
    {callback : Callback} {arguments : List Value} {answer : Value}
    (step : Step host limits first (.queued id source callback arguments answer) last) :
    answer = .null ∧ Asks arguments source callback ∧ last.state = first.state ∧
      last.session.stage = .registering id callback ∧
      ∀ error, ¬ Fails first.session.pool arguments error := by
  cases step with
  | queue called step =>
      cases step with
      | send =>
          obtain ⟨null, unchanged, asks, passes⟩ := Embedding.asks_of_call_eq_ok called
          exact ⟨null, asks, unchanged, rfl, passes⟩

/-- A job is accepted with the callback that was asked for, or is about to be. -/
theorem Run.mem_accepted (run : Run host limits (start workers bound state) trace boundary)
    {id : JobId} {source : List Char} {callback : Callback} {arguments : List Value}
    {answer : Value} (happened : .queued id source callback arguments answer ∈ trace) :
    (id, callback) ∈ Trace.accepted (Trace.beneath trace) ++ boundary.session.stage.sent := by
  induction run with
  | refl => cases happened
  | @next trace middle happening last earlier step inductionHypothesis =>
      rcases List.mem_append.mp happened with before | now
      · have inside := inductionHypothesis before
        rcases step.session with ⟨hidden, same⟩ | ⟨event, shows, step⟩
        · rw [Trace.beneath_concat_of_none _ hidden, same]
          exact inside
        · rw [Trace.beneath_concat_of_some _ shows, Trace.accepted_append, List.append_assoc]
          rcases step.numbers with ⟨same, -⟩ | ⟨ticket, -, unsent, -⟩
          · rw [same]
            exact inside
          · rw [unsent, List.append_nil] at inside
            exact List.mem_append_left _ inside
      · cases List.mem_singleton.mp now
        apply List.mem_append_right
        rw [step.of_queued.2.2.2.1]
        exact List.mem_cons_self

/-- A job that was sent was asked for by a call. -/
theorem Run.exists_queued (run : Run host limits (start workers bound state) trace boundary)
    {id : JobId} {source : List Char} (sent : .sent id source ∈ Trace.beneath trace) :
    ∃ callback arguments, .queued id source callback arguments .null ∈ trace ∧
      Asks arguments source callback := by
  obtain ⟨happening, happened, shows⟩ := List.mem_filterMap.mp sent
  cases happening <;> cases shows
  obtain ⟨before, after, rfl⟩ := List.append_of_mem happened
  obtain ⟨middle, next, -, step⟩ := run.exists_step
  obtain ⟨rfl, asks, -⟩ := step.of_queued
  exact ⟨_, _, happened, asks⟩

/-- The jobs that are sent are those that are accepted or about to be. -/
theorem Run.queued_eq (run : Run host limits (start workers bound state) trace boundary) :
    Trace.queued trace =
      (Trace.accepted (Trace.beneath trace) ++ boundary.session.stage.sent).map Prod.fst := by
  obtain ⟨moments, events, history⟩ := run.session.exists_history
  have sent := history.recorded.sent
  rw [events, ← run.session.numbers] at sent
  have inject : Function.Injective JobId.number := by
    rintro ⟨first⟩ ⟨second⟩ rfl
    rfl
  rw [← Trace.map_fst_sent_beneath]
  apply List.map_injective_iff.mpr inject
  rw [List.map_map, List.map_map]
  exact sent

theorem Run.nodup_queued (run : Run host limits (start workers bound state) trace boundary) :
    (Trace.queued trace).Nodup := by
  apply List.Nodup.of_map JobId.number
  rw [run.queued_eq, List.map_map]
  exact run.session.numbers ▸ List.nodup_range

/-- The jobs that were made are those of which the host was told and those of which it is still to
be told. -/
theorem Run.queued_perm (run : Run host limits (start workers bound state) trace boundary) :
    (Trace.queued trace).Perm
      (Trace.told trace ++ boundary.session.live.map Prod.fst) := by
  have accounted := run.session.accounted
  have none_raised : Trace.raised (Trace.beneath trace) = [] := by
    apply List.eq_nil_iff_forall_not_mem.mpr
    rintro ⟨id, callback⟩ inside
    obtain ⟨crash, raised⟩ := Trace.mem_raised_iff.mp inside
    exact run.not_raised id callback crash raised
  have going : boundary.session.stage ≠ .ended := by
    intro ended
    have inUse := run.isInUse trivial
    rw [ended] at inUse
    exact inUse
  rw [none_raised, run.session.dropped_eq_nil (.start workers bound) going] at accounted
  rw [run.queued_eq, ← Trace.map_fst_handled_beneath, ← List.map_append, Session.live,
    ← List.append_assoc]
  exact (accounted.append_right _).map _

theorem Run.nodup_told (run : Run host limits (start workers bound state) trace boundary) :
    (Trace.told trace).Nodup :=
  (List.nodup_append.mp (run.queued_perm.nodup_iff.mp run.nodup_queued)).1

/-- The host is told of what the source of the job comes to. -/
theorem Run.exists_tells {before after : List Happening} {id : JobId} {callback : Callback}
    {outcome : Outcome} {calls : List HostCall}
    (run : Run host limits (start workers bound state)
      (before ++ .told id callback outcome calls :: after) boundary) :
    ∃ source arguments, .queued id source callback arguments .null ∈ before ∧
      Asks arguments source callback ∧ callback.Tells limits source calls := by
  obtain ⟨middle, next, earlier, step⟩ := run.exists_step
  have now := earlier.next step
  have handled : .handled id callback outcome ∈
      Trace.beneath (before ++ [.told id callback outcome calls]) :=
    Trace.mem_beneath (List.mem_append_right _ List.mem_cons_self) rfl
  obtain ⟨source, unique, executed⟩ := now.settled (Trace.mem_settled_of_handled handled)
  obtain ⟨asker, arguments, queued, asks⟩ := now.exists_queued ((unique source).mpr rfl)
  have accepted : (id, callback) ∈ Trace.accepted _ :=
    now.session.subperm_accepted.subset
      (List.mem_append_left _ (Trace.mem_handled_iff.mpr ⟨outcome, handled⟩))
  -- The callback that is called and the one that was asked for go with the same number.
  have once := now.nodup_queued
  rw [now.queued_eq] at once
  cases List.inj_on_of_nodup_map once (now.mem_accepted queued)
    (List.mem_append_left _ accepted) rfl
  refine ⟨source, arguments, ?_, asks, ?_⟩
  · simpa using queued
  · cases step with
    | tell step completed => exact callback.tells_of_complete executed completed

/-- When the library has been run until it is idle, the host has been told of all jobs. -/
theorem Run.queued_perm_told {before after : List Happening} {count : Nat}
    (run : Run host limits (start workers bound state)
      (before ++ .returned .runUntilIdle count :: after) boundary) :
    (Trace.queued before).Perm (Trace.told before) := by
  obtain ⟨middle, next, earlier, step⟩ := run.exists_step
  have perm := earlier.queued_perm
  have live : middle.session.live = [] := by
    cases step with
    | comeBack step =>
        obtain ⟨-, rested⟩ := step.pending_of_returned earlier.placed nofun nofun
        rw [Session.live, rested]
        cases step <;> rfl
  rwa [live, List.map_nil, List.append_nil] at perm

/-! ## Calls come back -/

/-- While the host waits for a call, a step ends the call or lessens the steps that are left. -/
theorem Step.ends_or_remaining_lt {first last : Boundary σ} {happening : Happening}
    (step : Step host limits first happening last) (placed : Session.Placed first.session)
    (inUse : IsInUse first.session.stage) (busy : first.session.stage ≠ .free)
    (foreseen : happening.isUnforeseen = false) :
    last.session.stage = .free ∨
      last.session.stage ≠ .free ∧ last.session.remaining < first.session.remaining := by
  cases step with
  | fail | turnAway | queue => exact absurd rfl busy
  | answer step =>
      cases step
      exact .inl rfl
  | begin known step =>
      cases step
      exact absurd rfl busy
  | tell step completed =>
      rcases step.ends_or_remaining_lt placed rfl with ⟨-, ended⟩ | ⟨-, less⟩
      · cases ended
      · exact .inr ⟨nofun, less⟩
  | comeBack step =>
      cases step with
      | comeBack => exact .inl rfl
      | finish => exact inUse.elim
  | work step =>
      obtain ⟨same, less⟩ := step.remaining_lt_of_worked
      exact .inr ⟨same ▸ busy, less⟩
  | act free => exact absurd free busy
  | skip | raise | desert => cases foreseen

/-- While the host waits for a call, there is a step to take. -/
theorem exists_step_of_busy (host : Host σ) (limits : Limits) {boundary : Boundary σ}
    (placed : Session.Placed boundary.session) (inUse : IsInUse boundary.session.stage)
    (busy : boundary.session.stage ≠ .free) :
    ∃ happening next, Step host limits boundary happening next := by
  rcases boundary with ⟨⟨pool, stage, gone⟩, state⟩
  cases stage with
  | free => exact absurd rfl busy
  | registering id callback => exact ⟨_, _, .answer .accept⟩
  | taking call count =>
      obtain ⟨event, next, step, unbroken⟩ := placed.exists_step_taking (.ofLimits limits)
      cases step with
      | handle wants taken => exact ⟨_, _, .tell (.handle wants taken) rfl⟩
      | handleBreaking => simp [Event.handled?] at unbroken
      | skip wants taken => exact ⟨_, _, .skip (.skip wants taken)⟩
      | raise wants taken known => exact ⟨_, _, .raise (.raise wants taken known)⟩
      | desert wants left silent empty => exact ⟨_, _, .desert (.desert wants left silent empty)⟩
      | comeBack notLast done => exact ⟨_, _, .comeBack (.comeBack notLast done)⟩
      | dismiss last done => rcases inUse with rfl | rfl <;> cases last
      | abandon unwound => simp at unwound
      | work present heard stepped => exact ⟨_, _, .work (.work present heard stepped)⟩
      | leave present released => exact absurd released (pool.not_mayLeave rfl _)
  | joining | unwinding | ended => exact inUse.elim

/-- Every call comes back. -/
theorem Run.happensWithin (run : Run host limits (start workers bound state) trace boundary)
    (busy : boundary.session.stage ≠ .free) :
    HappensWithin (Step host limits) (fun _ next => next.session.stage = .free)
      (boundary.session.remaining + 1) boundary := by
  apply HappensWithin.of_measure
    (fun boundary => (∃ trace, Run host limits (start workers bound state) trace boundary) ∧
      boundary.session.stage ≠ .free) (fun boundary => boundary.session.remaining)
  · rintro boundary ⟨⟨trace, run⟩, busy⟩
    exact exists_step_of_busy host limits run.placed (run.isInUse trivial) busy
  · rintro boundary happening next ⟨⟨trace, run⟩, busy⟩ step
    have foreseen := (run.next step).isUnforeseen_eq_false happening
      (List.mem_append_right _ List.mem_cons_self)
    rcases step.ends_or_remaining_lt run.placed (run.isInUse trivial) busy foreseen with
      free | ⟨still, less⟩
    · exact .inl free
    · exact .inr ⟨⟨⟨_, run.next step⟩, still⟩, less⟩
  · exact ⟨⟨trace, run⟩, busy⟩

/-! ## Functions of the embedding -/

/-- A call of the embedding is a run that fails, or one that makes a job and answers with null. -/
def PerformsCall (host : Host σ) (limits : Limits) (boundary : Boundary σ)
    (arguments : List Value) : Prop :=
  ∃ answer during next, Run host limits boundary during next ∧ next.session.stage = .free ∧
    (Embedding.ofHost host limits).call "labctrl.parse_cmdlist" arguments boundary.context =
      (answer, next.context) ∧
    ((∃ error, answer = .error error ∧ during = [.failed arguments error]) ∨
      answer = .ok .null ∧ ∃ id source callback,
        during = [.queued id source callback arguments .null, .answered id callback])

theorem Run.performsCall (run : Run host limits (start workers bound state) trace boundary)
    (free : boundary.session.stage = .free) (arguments : List Value) :
    PerformsCall host limits boundary arguments := by
  obtain ⟨pool, after, rfl⟩ := run.exists_eq_of_free free
  by_cases fails : ∃ error, Fails pool arguments error
  · obtain ⟨error, fails⟩ := fails
    have failed := Embedding.call_of_fails host limits ⟨pool, after⟩ fails
    exact ⟨_, _, _, .cons (.fail failed) .refl, rfl, failed, .inl ⟨error, rfl, rfl⟩⟩
  · obtain ⟨source, callback, asks, room⟩ :=
      Embedding.exists_asks_of_not_fails (not_exists.mp fails)
    have staffed := run.placed.not_isDeserted rfl
    have called : (Embedding.ofHost host limits).call "labctrl.parse_cmdlist" arguments
        ⟨pool, after⟩ = _ := Embedding.call_of_room asks room
    have queued := Step.queue called (.send callback staffed room)
    exact ⟨_, _, _, .cons queued (.cons (.answer .accept) .refl), rfl, called,
      .inr ⟨rfl, _, _, _, rfl⟩⟩

/-- A function of the embedding that takes completions is a run from the beginning of a call to its
end. -/
def Performs (host : Host σ) (limits : Limits) (boundary : Boundary σ) (call : Call)
    (function : StateM (Context σ) (Except Crash Nat)) : Prop :=
  ∃ count during next, function boundary.context = (.ok count, next.context) ∧
    next.session.stage = .free ∧
    Run host limits boundary (.began call :: during ++ [.returned call count]) next

theorem Run.performs_takeWith {pool settled : Pool Callback} {after : σ} {call : Call}
    {take : Pool Callback → Drained Callback}
    (run : Run host limits (start workers bound state) trace ⟨⟨pool, .free, []⟩, after⟩)
    (known : call = .poll ∨ call = .runUntilIdle)
    (settling : ∃ during, Run host limits ⟨⟨pool, .taking call 0, []⟩, after⟩ during
      ⟨⟨settled, .taking call 0, []⟩, after⟩)
    (takes : take pool = settled.drain)
    (done : settled.drain.crash = none →
      Session.Placed ⟨settled.drain.pool, .taking call settled.drain.count, []⟩ →
        settled.drain.pool.MayReturn [] call settled.drain.count) :
    Performs host limits ⟨⟨pool, .free, []⟩, after⟩ call
      ((Embedding.ofHost host limits).takeWith take) := by
  have wants (count : Nat) : call.wantsMore count := by
    rcases known with rfl | rfl <;> rfl
  have notLast : call.isLast = false := by
    rcases known with rfl | rfl <;> rfl
  obtain ⟨earlier, settling⟩ := settling
  obtain ⟨later, draining, crashes⟩ := exists_run_drain host limits settled call wants 0 [] after
  have taking := Run.cons (.begin known .begin) (settling.trans draining)
  have calm : settled.drain.crash = none := by
    cases crashed : settled.drain.crash with
    | none => rfl
    | some crash =>
        obtain ⟨happening, happened, unforeseen⟩ := crashes crash crashed
        have foreseen := (run.trans taking).isUnforeseen_eq_false happening (by simp [happened])
        exact absurd (unforeseen.symm.trans foreseen) nofun
  rw [Session.afterDrain_of_calm calm, Nat.zero_add] at taking
  have mayReturn := done calm (run.trans taking).placed
  refine ⟨settled.drain.count, earlier ++ later, _, ?_, rfl,
    taking.next (.comeBack (.comeBack notLast mayReturn))⟩
  show (Embedding.ofHost host limits).takeWith take ⟨pool, after⟩ = _
  rw [Embedding.takeWith, takes, calm]
  rfl

theorem Run.performs_poll (run : Run host limits (start workers bound state) trace boundary)
    (free : boundary.session.stage = .free) :
    Performs host limits boundary .poll (Embedding.ofHost host limits).poll := by
  obtain ⟨pool, after, rfl⟩ := run.exists_eq_of_free free
  apply run.performs_takeWith (.inl rfl) ⟨[], .refl⟩ rfl
  intro calm drained
  rcases Pool.takeOne?_eq_none_iff.mp (Pool.takeOne?_drain calm) with none_pending | none_completed
  · exact .inl none_pending
  · exact .inr (.inr ⟨rfl, none_completed, drained.not_isDeserted rfl⟩)

theorem Run.performs_runUntilIdle
    (run : Run host limits (start workers bound state) trace boundary)
    (free : boundary.session.stage = .free) :
    Performs host limits boundary .runUntilIdle (Embedding.ofHost host limits).runUntilIdle := by
  obtain ⟨pool, after, rfl⟩ := run.exists_eq_of_free free
  obtain ⟨events, worked, settling⟩ :=
    Session.run_settle (.ofLimits limits) [] pool (.taking .runUntilIdle 0) rfl
  apply run.performs_takeWith (.inr rfl) (Run.of_worked settling worked after) rfl
  intro calm _
  exact .inl (run.placed.pending_runUntilIdle (.ofLimits limits) calm)

/-! ## The contract -/

/-- What holds of a boundary that has come about by a trace. -/
structure KeepsContract (host : Host σ) (limits : Limits) (trace : List Happening)
    (boundary : Boundary σ) : Prop where
  /-- A call fails when something is wrong with its arguments or the queue is full, and then nothing
  changes: no job is made, as many are pending as before, and the host is as it was. A host that
  notes its calls would not be as it was if one of its functions had been called. -/
  fails : ∀ arguments error next,
    Step host limits boundary (.failed arguments error) next ↔
      boundary.session.stage = .free ∧ next = boundary ∧
        Fails boundary.session.pool arguments error
  /-- Every other call makes a job and is going to be answered with null. -/
  passes : boundary.session.stage = .free → ∀ arguments,
    (∀ error, ¬ Fails boundary.session.pool arguments error) →
      ∃ id source callback next,
        Step host limits boundary (.queued id source callback arguments .null) next
  /-- No other call makes a job. The job is what the first three arguments ask for, and the host is
  not told of it yet. -/
  queued : ∀ id source callback arguments answer next,
    Step host limits boundary (.queued id source callback arguments answer) next →
      answer = .null ∧ Asks arguments source callback ∧ next.state = boundary.state ∧
        ∀ error, ¬ Fails boundary.session.pool arguments error
  /-- Every call comes back, whatever the workers do meanwhile. -/
  returns : boundary.session.stage ≠ .free →
    HappensWithin (Step host limits) (fun _ next => next.session.stage = .free)
      (boundary.session.remaining + 1) boundary
  /-- Jobs have numbers of their own, and the host is told of each of them once at most. -/
  once : (Trace.queued trace).Nodup ∧ (Trace.told trace).Nodup
  /-- The host is told of nothing but jobs that calls made before. The functions that are called are
  those that were arguments of the call, each once, and they are given what its source comes to,
  whatever they and the others answer. -/
  tells : ∀ before id callback outcome calls after,
    trace = before ++ .told id callback outcome calls :: after →
      ∃ source arguments, .queued id source callback arguments .null ∈ before ∧
        Asks arguments source callback ∧ callback.Tells limits source calls
  /-- The jobs that were made are those of which the host was told and those of which it is still to
  be told. -/
  accounted : (Trace.queued trace).Perm (Trace.told trace ++ boundary.session.live.map Prod.fst)
  /-- When the library has been run until it is idle, the host has been told of all jobs. -/
  settles : ∀ before count after, trace = before ++ .returned .runUntilIdle count :: after →
    (Trace.queued before).Perm (Trace.told before)
  /-- There are no crashes, no completions of unknown jobs, and no pools without workers. -/
  foreseen : ∀ happening ∈ trace, happening.isUnforeseen = false
  /-- What the embedding does is one of these runs. -/
  calls : boundary.session.stage = .free → ∀ arguments, PerformsCall host limits boundary arguments
  polls : boundary.session.stage = .free →
    Performs host limits boundary .poll (Embedding.ofHost host limits).poll
  runs : boundary.session.stage = .free →
    Performs host limits boundary .runUntilIdle (Embedding.ofHost host limits).runUntilIdle

end Start

/-- A host whose functions all fail, and which counts their calls. -/
def failing : Host Nat where
  call function _ := fun count =>
    (.error (.failed (if function = ⟨0⟩ then "constructor exploded" else "handler threw")),
      count + 1)

end Boundary

end Sequencer
