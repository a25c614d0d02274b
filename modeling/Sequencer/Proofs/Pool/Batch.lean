import Sequencer.Pool.Batch
import Sequencer.Proofs.Pool.Cancellation
import Sequencer.Proofs.Pool.Liveness

/-!
# Batches on any schedule

A batch is an owner of a pool that submits sources in their order. When the queue is full it waits
for a completion and tries again, and at last it empties the pool and shuts it down. The workers act
between its steps in any order. Where no source crashes, every schedule comes to its end, and then
there is an outcome for every source, and it is its own (`Batch.happensWithin`).
-/

namespace Sequencer

namespace Batch

/-! ## What a batch does -/

/-- What a batch is about to do. -/
inductive Plan where
  /-- It submits the source with this index, or empties the pool if there is none. -/
  | submit (index : Nat)
  /-- It waits for a completion, to submit the source with this index again. -/
  | makeRoom (index bound : Nat)
  | empty
  | close
  /-- It collects the outcomes. -/
  | collect
  | failed (error : BatchError)

/-- What the plan is after an event of the owner that brings it to a stage. The handlers of a batch
note the outcomes and raise nothing. -/
inductive Follows (sources : List (List Char)) : Plan → Event Nat → Stage Nat → Plan → Prop
  | send {index source id} (next : sources[index]? = some source) :
      Follows sources (.submit index) (.sent id source) (.registering id index) (.submit index)
  | accept {index id ticket stage} :
      Follows sources (.submit index) (.accepted id ticket) stage (.submit (index + 1))
  | crowd {index bound stage} (next : index < sources.length) :
      Follows sources (.submit index) (.refused index (.queueFull bound)) stage
        (.makeRoom index bound)
  | turnAway {index stage} (next : index < sources.length) :
      Follows sources (.submit index) (.refused index .shutDown) stage
        (.failed (.refused .shutDown))
  | wait {index bound stage} :
      Follows sources (.makeRoom index bound) (.began .waitOne) stage (.makeRoom index bound)
  | retry {index bound count stage} :
      Follows sources (.makeRoom index bound) (.returned .waitOne (count + 1)) stage (.submit index)
  | giveUp {index bound stage} :
      Follows sources (.makeRoom index bound) (.returned .waitOne 0) stage
        (.failed (.refused (.queueFull bound)))
  | beginEmptying {stage} :
      Follows sources (.submit sources.length) (.began .runUntilIdle) stage .empty
  | endEmptying {count stage} : Follows sources .empty (.returned .runUntilIdle count) stage .close
  | beginClosing {stage} : Follows sources .close (.began .shutDown) stage .close
  | dismiss {stage} : Follows sources .close .dismissed stage .close
  | endClosing {count stage} : Follows sources .close (.returned .shutDown count) stage .collect
  | handle {plan id ticket outcome call count} :
      Follows sources plan (.handled id ticket outcome) (.taking call count) plan
  | skip {plan id stage} : Follows sources plan (.unknown id) stage plan
  | desert {plan jobs stage} : Follows sources plan (.deserted jobs) stage plan
  | raise {plan id ticket crash stage} :
      Follows sources plan (.raised id ticket crash) stage (.failed (.crashed crash))

/-- A batch under way. -/
structure State where
  plan : Plan
  session : Session Nat
  /-- The indices of sources, with the outcomes that were handed out for them. -/
  delivered : List (Nat × Outcome)

/-- A batch with a new pool. -/
def State.start (workers : Nat) (bound : Option Nat) : State :=
  ⟨.submit 0, .start workers bound, []⟩

/-- One step of the owner, as it is planned, or of a worker. -/
inductive Step (backend : Backend) (sources : List (List Char)) : State → Event Nat → State → Prop
  | own {plan next session last delivered event} (step : Session.Step backend session event last)
      (follows : Follows sources plan event last.stage next) :
      Step backend sources ⟨plan, session, delivered⟩ event
        ⟨next, last, delivered ++ Trace.delivered [event]⟩
  | worker {plan session last delivered event} (step : Session.Step backend session event last)
      (foreign : ∃ index, event = .worked index ∨ event = .left index) :
      Step backend sources ⟨plan, session, delivered⟩ event ⟨plan, last, delivered⟩

/-! ## The plan and the pool -/

/-- The plan fits what the owner is in the middle of, and as many sources have been submitted as it
says. -/
inductive Fits (total : Nat) : Plan → Session Nat → Prop
  | submitting {index pool gone} (within : index ≤ total) (next : pool.nextId = index) :
      Fits total (.submit index) ⟨pool, .free, gone⟩
  | registering {index pool gone} (within : index < total) (next : pool.nextId = index + 1) :
      Fits total (.submit index) ⟨pool, .registering ⟨index⟩ index, gone⟩
  | crowded {index bound pool gone} (within : index < total) (next : pool.nextId = index)
      (left : pool.pending ≠ []) :
      Fits total (.makeRoom index bound) ⟨pool, .free, gone⟩
  | waiting {index bound count pool gone} (within : index < total) (next : pool.nextId = index)
      (left : count = 0 → pool.pending ≠ []) :
      Fits total (.makeRoom index bound) ⟨pool, .taking .waitOne count, gone⟩
  | emptying {count pool gone} (all : pool.nextId = total) :
      Fits total .empty ⟨pool, .taking .runUntilIdle count, gone⟩
  | emptied {pool gone} (all : pool.nextId = total) (rested : pool.pending = []) :
      Fits total .close ⟨pool, .free, gone⟩
  | closing {count pool gone} (all : pool.nextId = total) :
      Fits total .close ⟨pool, .taking .shutDown count, gone⟩
  | joining {count pool gone} (all : pool.nextId = total) (rested : pool.pending = []) :
      Fits total .close ⟨pool, .joining .shutDown count, gone⟩

/-- How much of the plan is left. Waiting for one completion is dear, so that taking it is worth
less than the work that it saves. -/
def Plan.weight : Plan → Stage Nat → Nat
  | .submit _, .registering .. => 5
  | .submit _, _ => 4
  | .makeRoom .., .taking _ 0 => 2
  | .makeRoom .., .taking _ (_ + 1) => 5
  | .makeRoom .., _ => 3
  | .empty, _ => 3
  | .close, .joining .. => 0
  | .close, .taking .. => 1
  | .close, _ => 2
  | _, _ => 0

/-- A completion that is taken makes the plan no heavier than the work that it saves. -/
theorem Plan.weight_taking_succ_le (plan : Plan) (call : Call) (count : Nat) :
    plan.weight (.taking call (count + 1)) ≤ plan.weight (.taking call count) + 3 := by
  cases plan with
  | makeRoom =>
      cases count with
      | zero => exact Nat.le_refl 5
      | succ count => exact Nat.le_add_right 5 3
  | submit | empty | close | collect | failed => exact Nat.le_add_right _ _

/-- The number of steps that are left. A source that is not yet submitted counts for all that may be
done to submit it and to complete its job. -/
def State.remaining (total : Nat) (state : State) : Nat :=
  4 * state.session.pool.work + state.session.staff.length +
    22 * (total - state.session.pool.nextId) + state.plan.weight state.session.stage

/-! ## Collecting outcomes -/

theorem mapM_eq_ok_map {α β ε : Type} {act : α → Except ε β} {values : List α} (value : α → β)
    (succeeds : ∀ one ∈ values, act one = .ok (value one)) :
    values.mapM act = .ok (values.map value) := by
  induction values with
  | nil => rfl
  | cons one values inductionHypothesis =>
      rw [List.mapM_cons, succeeds one List.mem_cons_self,
        inductionHypothesis fun other inside => succeeds other (List.mem_cons_of_mem _ inside)]
      rfl

/-- When each index has been handed out, and with its own outcome only, the outcomes are collected
in their order. -/
theorem outcomes_eq_ok {delivered : List (Nat × Outcome)} {outcomes : List Outcome}
    (complete : ∀ index < outcomes.length, ∃ outcome, (index, outcome) ∈ delivered)
    (own : ∀ index outcome, (index, outcome) ∈ delivered → outcomes[index]? = some outcome) :
    Batch.outcomes delivered outcomes.length = .ok outcomes := by
  have found : ∀ index < outcomes.length, delivered.lookup index = outcomes[index]? := by
    intro index within
    obtain ⟨outcome, inside⟩ := complete index within
    cases looked : delivered.lookup index with
    | none => simpa using List.lookup_eq_none_iff.mp looked _ inside
    | some other =>
        obtain ⟨before, after, rfl, -⟩ := List.lookup_eq_some_iff.mp looked
        exact (own index other (by simp)).symm
  have all : (List.range outcomes.length).map (outcomes[·]?.getD default) = outcomes := by
    apply List.ext_getElem
    · simp
    · intro index within _
      simp at within
      simp [within]
  rw [Batch.outcomes, mapM_eq_ok_map (outcomes[·]?.getD default), all]
  intro index inside
  have within := List.mem_range.mp inside
  simp [found index within, within]

/-! ## What the trace of a batch shows -/

section Traced

variable {backend : Backend} {sources : List (List Char)} {outcomes : List Outcome}
  {workers : Nat} {bound : Option Nat} {moments : List (Moment Nat)} {state : State}

/-- The sources have been sent with their indices as numbers and as tickets, nothing has been
cancelled, and what has been handed out is noted. -/
structure Traced (backend : Backend) (sources : List (List Char)) (workers : Nat)
    (bound : Option Nat) (moments : List (Moment Nat)) (state : State) : Prop where
  history : Session.History backend (.start workers bound) moments state.session
  delivered : state.delivered = Trace.delivered (Trace.events moments)
  sent : ∀ id source, .sent id source ∈ Trace.events moments → sources[id.number]? = some source
  accepted : ∀ id ticket, .accepted id ticket ∈ Trace.events moments → id = ⟨ticket⟩
  uncancelled : ∀ id answer, .cancelled id answer ∉ Trace.events moments

namespace Traced

theorem start : Traced backend sources workers bound [] (.start workers bound) where
  history := .refl
  delivered := rfl
  sent := by simp [Trace.events]
  accepted := by simp [Trace.events]
  uncancelled := by simp [Trace.events]

/-- An event that is right in itself keeps the trace right. -/
theorem next (traced : Traced backend sources workers bound moments state) {event : Event Nat}
    {last : Session Nat} (step : Session.Step backend state.session event last) (plan : Plan)
    {noted : List (Nat × Outcome)} (notes : noted = state.delivered ++ Trace.delivered [event])
    (sent : ∀ id source, event = .sent id source → sources[id.number]? = some source)
    (accepted : ∀ id ticket, event = .accepted id ticket → id = ⟨ticket⟩)
    (uncancelled : ∀ id answer, event ≠ .cancelled id answer) :
    Traced backend sources workers bound (moments ++ [⟨state.session, event⟩])
      ⟨plan, last, noted⟩ where
  history := traced.history.next step
  delivered := by
    rw [notes, traced.delivered, Trace.events_append]
    exact (List.filterMap_append ..).symm
  sent id source happened := by
    rw [Trace.events_append] at happened
    rcases List.mem_append.mp happened with before | now
    · exact traced.sent id source before
    · exact sent id source (List.mem_singleton.mp now).symm
  accepted id ticket happened := by
    rw [Trace.events_append] at happened
    rcases List.mem_append.mp happened with before | now
    · exact traced.accepted id ticket before
    · exact accepted id ticket (List.mem_singleton.mp now).symm
  uncancelled id answer happened := by
    rw [Trace.events_append] at happened
    rcases List.mem_append.mp happened with before | now
    · exact traced.uncancelled id answer before
    · exact uncancelled id answer (List.mem_singleton.mp now).symm

/-- What a job of a batch came to is what its source comes to: nobody has cancelled it. -/
theorem settled (traced : Traced backend sources workers bound moments state) {id : JobId}
    {result : Except Crash Outcome}
    (ended : (id, .settled result) ∈ Trace.settled (Trace.events moments)) :
    ∃ source, sources[id.number]? = some source ∧ execute backend source = result := by
  obtain ⟨source, unique, same⟩ :=
    traced.history.settled_of_uncancelled traced.uncancelled ended
  exact ⟨source, traced.sent id source ((unique source).mpr rfl), same⟩

variable (calm : sources.map (execute backend) = outcomes.map .ok)

include calm in
theorem eq_ok_of_settled (traced : Traced backend sources workers bound moments state)
    {id : JobId} {result : Except Crash Outcome}
    (ended : (id, .settled result) ∈ Trace.settled (Trace.events moments)) :
    ∃ outcome, outcomes[id.number]? = some outcome ∧ result = .ok outcome := by
  obtain ⟨source, here, rfl⟩ := traced.settled ended
  have same := congrArg (·[id.number]?) calm
  simp only [List.getElem?_map, here, Option.map_some] at same
  obtain ⟨outcome, found, ok⟩ := Option.map_eq_some_iff.mp same.symm
  exact ⟨outcome, found, ok.symm⟩

include calm in
theorem not_raised (traced : Traced backend sources workers bound moments state) (id : JobId)
    (ticket : Nat) (crash : Crash) : .raised id ticket crash ∉ Trace.events moments := by
  intro happened
  obtain ⟨outcome, -, same⟩ := traced.eq_ok_of_settled calm (Trace.mem_settled_of_raised happened)
  cases same

include calm in
/-- When all sources are submitted and nothing is pending, the outcomes are there. -/
theorem outcomes_eq (traced : Traced backend sources workers bound moments state)
    (all : state.session.pool.nextId = outcomes.length) (rested : state.session.pool.pending = [])
    (none_sent : state.session.stage.sent = []) (going : state.session.stage ≠ .ended) :
    Batch.outcomes state.delivered outcomes.length = .ok outcomes := by
  have run := traced.history.run
  have balance := run.accepted_perm going rested
  have none_raised : Trace.raised (Trace.events moments) = [] := by
    apply List.eq_nil_iff_forall_not_mem.mpr
    rintro ⟨id, ticket⟩ raised
    obtain ⟨crash, happened⟩ := Trace.mem_raised_iff.mp raised
    exact traced.not_raised calm id ticket crash happened
  rw [none_raised, List.append_nil] at balance
  have numbers := run.numbers
  rw [none_sent, List.append_nil, all] at numbers
  have own (id : JobId) (ticket : Nat) (outcome : Outcome)
      (handled : .handled id ticket outcome ∈ Trace.events moments) :
      id = ⟨ticket⟩ ∧ outcomes[ticket]? = some outcome := by
    have accepted := balance.mem_iff.mpr (Trace.mem_handled_iff.mpr ⟨outcome, handled⟩)
    obtain rfl := traced.accepted id ticket (Trace.mem_accepted_iff.mp accepted)
    obtain ⟨own, found, same⟩ :=
      traced.eq_ok_of_settled calm (Trace.mem_settled_of_handled handled)
    cases same
    exact ⟨rfl, found⟩
  rw [traced.delivered]
  apply outcomes_eq_ok
  · intro index within
    obtain ⟨⟨id, ticket⟩, accepted, rfl⟩ :=
      List.mem_map.mp (numbers ▸ List.mem_range.mpr within)
    obtain ⟨outcome, handled⟩ := Trace.mem_handled_iff.mp (balance.mem_iff.mp accepted)
    obtain ⟨rfl, -⟩ := own id ticket outcome handled
    exact ⟨outcome, List.mem_filterMap.mpr ⟨_, handled, rfl⟩⟩
  · intro index outcome inside
    obtain ⟨event, happened, same⟩ := List.mem_filterMap.mp inside
    cases event <;> cases same
    exact (own _ _ _ happened).2

end Traced

end Traced

/-! ## Steps of a batch -/

section Steps

variable {backend : Backend} {sources : List (List Char)} {outcomes : List Outcome}
  {workers : Nat} {bound : Option Nat} {state later : State} {event : Event Nat}

theorem work_send (pool : Pool Nat) (source : List Char) :
    (pool.send source).work = pool.work + 5 := by
  simp only [Pool.work, Pool.send, List.length_append, List.length_singleton]
  omega

/-- A full queue holds a job that is pending. -/
theorem pending_of_isFull {pool : Pool Nat} {gone : List Nat}
    (placed : Session.Placed ⟨pool, .free, gone⟩) (full : pool.isFull) : pool.pending ≠ [] := by
  have waiting : pool.queue ≠ [] := by
    intro empty
    unfold Pool.isFull at full
    split at full
    · cases full
    · simp [empty] at full
  intro rested
  have places := placed.places (by simp)
  rw [Session.live, rested] at places
  have empty := places.eq_nil
  simp only [Pool.places, List.append_eq_nil_iff, List.map_eq_nil_iff] at empty
  exact waiting empty.1

/-- Workers neither submit nor take completions. -/
theorem Fits.of_same {total : Nat} {plan : Plan} {pool moved : Pool Nat} {stage : Stage Nat}
    {gone : List Nat} (fits : Fits total plan ⟨pool, stage, gone⟩)
    (nextId : moved.nextId = pool.nextId) (pending : moved.pending = pool.pending)
    (left : List Nat) : Fits total plan ⟨moved, stage, left⟩ := by
  cases fits <;> constructor <;> simp_all

/-- A step brings a batch on if the plan fits behind it and less of it is left. -/
structure Advances (total : Nat) (state later : State) : Prop where
  fits : Fits total later.plan later.session
  lessens : later.remaining total < state.remaining total

/-- A worker's step keeps the plan and lessens what is left. -/
theorem Fits.worker {plan : Plan} {session last : Session Nat} {delivered : List (Nat × Outcome)}
    {total : Nat} (fits : Fits total plan session) (step : Session.Step backend session event last)
    (foreign : ∃ index, event = .worked index ∨ event = .left index) :
    Advances total ⟨plan, session, delivered⟩ ⟨plan, last, delivered⟩ := by
  cases step with
  | work present heard stepped =>
      have works := Pool.advance?_eq_some_iff.mp stepped
      have less := Pool.work_lt_of_advance? stepped
      refine ⟨fits.of_same works.nextId_eq works.pending_eq _, ?_⟩
      simp only [State.remaining, Session.staff, works.length_workers_eq, works.nextId_eq]
      omega
  | leave present released =>
      have less := Session.length_staff_leave present released
      refine ⟨fits.of_same rfl rfl _, ?_⟩
      simp only [State.remaining]
      omega
  | _ => simp at foreign

/-! ### What the owner does -/

section Owner

variable {total index : Nat} {session last : Session Nat} {noted notes : List (Nat × Outcome)}

theorem Fits.send {id : JobId} {source : List Char} (fits : Fits total (.submit index) session)
    (within : index < total) (step : Session.Step backend session (.sent id source) last)
    (stands : last.stage = .registering id index) :
    Advances total ⟨.submit index, session, noted⟩ ⟨.submit index, last, notes⟩ := by
  cases fits with
  | submitting _ same =>
      subst same
      cases step with
      | send =>
          cases stands
          refine ⟨.registering within rfl, ?_⟩
          simp only [State.remaining, work_send, Plan.weight, Session.staff]
          simp only [Pool.send]
          omega
  | registering => cases step

theorem Fits.accept {id : JobId} {ticket : Nat} (fits : Fits total (.submit index) session)
    (step : Session.Step backend session (.accepted id ticket) last) :
    Advances total ⟨.submit index, session, noted⟩ ⟨.submit (index + 1), last, notes⟩ := by
  cases fits with
  | submitting => cases step
  | registering within same =>
      cases step with
      | accept => exact ⟨.submitting within same, Nat.lt_succ_self _⟩

/-- A queue that refuses a job holds another, so there is a completion to wait for. -/
theorem Fits.crowd {bound : Nat} (fits : Fits total (.submit index) session)
    (placed : Session.Placed session) (within : index < total)
    (step : Session.Step backend session (.refused index (.queueFull bound)) last) :
    Advances total ⟨.submit index, session, noted⟩ ⟨.makeRoom index bound, last, notes⟩ := by
  cases fits with
  | @submitting _ pool _ _ same =>
      cases step with
      | refuse source staffed refused =>
          have full : pool.isFull := by
            unfold Pool.submit at refused
            split at refused
            · assumption
            · cases refused
          exact ⟨.crowded within same (pending_of_isFull placed full), Nat.lt_succ_self _⟩
  | registering => cases step

theorem Fits.wait {bound : Nat} (fits : Fits total (.makeRoom index bound) session)
    (step : Session.Step backend session (.began .waitOne) last) :
    Advances total ⟨.makeRoom index bound, session, noted⟩
      ⟨.makeRoom index bound, last, notes⟩ := by
  cases fits with
  | crowded within same left =>
      cases step with
      | begin => exact ⟨.waiting within same fun _ => left, Nat.lt_succ_self _⟩
  | waiting => cases step

theorem Fits.retry {bound count : Nat} (fits : Fits total (.makeRoom index bound) session)
    (step : Session.Step backend session (.returned .waitOne (count + 1)) last) :
    Advances total ⟨.makeRoom index bound, session, noted⟩ ⟨.submit index, last, notes⟩ := by
  cases fits with
  | crowded => cases step
  | waiting within same left =>
      cases step with
      | comeBack => exact ⟨.submitting (Nat.le_of_lt within) same, Nat.lt_succ_self _⟩

/-- Waiting for a completion does not come back without one, since a job is pending. -/
theorem Fits.not_giveUp {bound : Nat} (fits : Fits total (.makeRoom index bound) session) :
    ¬ Session.Step backend session (.returned .waitOne 0) last := by
  intro step
  cases fits with
  | crowded => cases step
  | waiting within same left =>
      cases step with
      | comeBack notLast done =>
          rcases done with rested | enough | ⟨poll, -⟩
          · exact left rfl rested
          · cases enough
          · cases poll

theorem Fits.beginEmptying (fits : Fits total (.submit total) session)
    (step : Session.Step backend session (.began .runUntilIdle) last) :
    Advances total ⟨.submit total, session, noted⟩ ⟨.empty, last, notes⟩ := by
  cases fits with
  | submitting _ same =>
      cases step with
      | begin => exact ⟨.emptying same, Nat.lt_succ_self _⟩
  | registering within => exact absurd within (Nat.lt_irrefl _)

theorem Fits.endEmptying {count : Nat} (fits : Fits total .empty session)
    (placed : Session.Placed session)
    (step : Session.Step backend session (.returned .runUntilIdle count) last) :
    Advances total ⟨.empty, session, noted⟩ ⟨.close, last, notes⟩ := by
  cases fits with
  | emptying all =>
      have rested := (step.pending_of_returned placed (by decide) (by decide)).2
      cases step with
      | comeBack => exact ⟨.emptied all rested, Nat.lt_succ_self _⟩

theorem Fits.beginClosing (fits : Fits total .close session)
    (step : Session.Step backend session (.began .shutDown) last) :
    Advances total ⟨.close, session, noted⟩ ⟨.close, last, notes⟩ := by
  cases fits with
  | emptied all =>
      cases step with
      | begin => exact ⟨.closing all, Nat.lt_succ_self _⟩
  | closing | joining => cases step

theorem Fits.dismiss (fits : Fits total .close session)
    (step : Session.Step backend session .dismissed last) :
    Advances total ⟨.close, session, noted⟩ ⟨.close, last, notes⟩ := by
  cases fits with
  | closing all =>
      cases step with
      | dismiss _ done => exact ⟨.joining all done, Nat.lt_succ_self _⟩
  | emptied | joining => cases step

/-- The pool that is shut down has been given all sources, and nothing in it is pending. -/
theorem Fits.endClosing {count : Nat} (fits : Fits total .close session)
    (step : Session.Step backend session (.returned .shutDown count) last) :
    session.pool.nextId = total ∧ session.pool.pending = [] ∧ session.stage.sent = [] ∧
      session.stage ≠ .ended := by
  cases fits with
  | emptied => cases step
  | closing all =>
      cases step with
      | comeBack notLast => cases notLast
  | joining all rested => exact ⟨all, rested, rfl, by simp⟩

/-- A handler that raises nothing is called by a call that goes on. -/
theorem of_handled {id : JobId} {ticket : Nat} {outcome : Outcome} {call : Call} {count : Nat}
    (step : Session.Step backend session (.handled id ticket outcome) last)
    (inside : last.stage = .taking call count) :
    ∃ pool earlier, session = ⟨pool, .taking call earlier, last.gone⟩ ∧ count = earlier + 1 ∧
      call.wantsMore earlier ∧
      pool.takeOne? = some ⟨last.pool, id, .ok (some (ticket, outcome))⟩ := by
  cases step with
  | handle wants taken =>
      cases inside
      exact ⟨_, _, rfl, rfl, wants, taken⟩
  | handleBreaking wants taken =>
      unfold Stage.brokenOff at inside
      split at inside <;> cases inside

theorem Fits.handle {plan : Plan} {id : JobId} {ticket : Nat} {outcome : Outcome} {call : Call}
    {count : Nat} (fits : Fits total plan session)
    (step : Session.Step backend session (.handled id ticket outcome) last)
    (inside : last.stage = .taking call count) :
    Advances total ⟨plan, session, noted⟩ ⟨plan, last, notes⟩ := by
  rcases last with ⟨pool, stage, gone⟩
  cases inside
  obtain ⟨before, earlier, rfl, rfl, wants, taken⟩ := of_handled step rfl
  have less := Pool.work_takeOne?_lt taken
  have workers := Pool.workers_of_takeOne? taken
  have nextId := Pool.nextId_of_takeOne? taken
  dsimp only at less workers nextId
  have weight := plan.weight_taking_succ_le call earlier
  refine ⟨?_, ?_⟩
  · cases fits with
    | waiting within same left => exact .waiting within (nextId.trans same) (by simp)
    | emptying all => exact .emptying (nextId.trans all)
    | closing all => exact .closing (nextId.trans all)
  · simp only [State.remaining, Session.staff, workers, nextId]
    omega

/-- What the owner does brings the batch on, until the outcomes are collected. Nothing is refused
for good, and the plan fails only when a crash is raised. -/
theorem Fits.own {plan planned : Plan} (fits : Fits sources.length plan session)
    (placed : Session.Placed session) (step : Session.Step backend session event last)
    (follows : Follows sources plan event last.stage planned)
    (unraised : ∀ id ticket crash, event ≠ .raised id ticket crash) :
    (planned = .collect ∧ Trace.delivered [event] = [] ∧
        session.pool.nextId = sources.length ∧ session.pool.pending = [] ∧
        session.stage.sent = [] ∧ session.stage ≠ .ended) ∨
      Advances sources.length ⟨plan, session, noted⟩ ⟨planned, last, notes⟩ := by
  generalize stands : last.stage = stage at follows
  cases follows with
  | send next => exact .inr (fits.send (List.getElem?_eq_some_iff.mp next).1 step stands)
  | accept => exact .inr (fits.accept step)
  | crowd next => exact .inr (fits.crowd placed next step)
  | wait => exact .inr (fits.wait step)
  | retry => exact .inr (fits.retry step)
  | giveUp => exact absurd step fits.not_giveUp
  | beginEmptying => exact .inr (fits.beginEmptying step)
  | endEmptying => exact .inr (fits.endEmptying placed step)
  | beginClosing => exact .inr (fits.beginClosing step)
  | dismiss => exact .inr (fits.dismiss step)
  | endClosing => exact .inl ⟨rfl, rfl, fits.endClosing step⟩
  | handle => exact .inr (fits.handle step stands)
  | turnAway => exact (step.not_refused_shutDown placed).elim
  | skip => exact (step.not_unknown placed).elim
  | desert => exact (step.not_deserted placed).elim
  | raise => exact absurd rfl (unraised _ _ _)

end Owner

/-! ## Every schedule ends -/

/-- What holds of a batch under way. -/
def Sound (backend : Backend) (sources : List (List Char)) (workers : Nat) (bound : Option Nat)
    (state : State) : Prop :=
  (∃ moments, Traced backend sources workers bound moments state) ∧
    Fits sources.length state.plan state.session

theorem Sound.start : Sound backend sources workers bound (.start workers bound) :=
  ⟨⟨[], .start⟩, .submitting (Nat.zero_le _) rfl⟩

theorem Sound.placed (sound : Sound backend sources workers bound state) :
    Session.Placed state.session := by
  obtain ⟨⟨moments, traced⟩, -⟩ := sound
  exact traced.history.placed

/-- A batch sends its sources with their indices, and cancels nothing. -/
theorem Step.exists_traced (step : Step backend sources state event later)
    (sound : Sound backend sources workers bound state) :
    ∃ moments, Traced backend sources workers bound moments later ∧
      event ∈ Trace.events moments := by
  obtain ⟨⟨moments, traced⟩, fits⟩ := sound
  cases step with
  | @own plan planned session last delivered event step follows =>
      rcases last with ⟨pool, stage, gone⟩
      refine ⟨moments ++ [⟨session, event⟩], traced.next step planned rfl ?_ ?_ ?_, by
        simp [Trace.events]⟩
      · rintro id source rfl
        cases follows with
        | send here =>
            cases fits with
            | submitting within same =>
                cases step with
                | send => rwa [same]
            | registering => cases step
      · rintro id ticket rfl
        cases follows with
        | accept =>
            cases fits with
            | submitting => cases step
            | registering =>
                cases step with
                | accept => rfl
      · rintro id answer rfl
        cases follows
  | @worker plan session last delivered event step foreign =>
      refine ⟨moments ++ [⟨session, event⟩], ?_, by simp [Trace.events]⟩
      obtain ⟨index, rfl | rfl⟩ := foreign
      · exact traced.next step plan (List.append_nil _).symm (by simp) (by simp) (by simp)
      · exact traced.next step plan (List.append_nil _).symm (by simp) (by simp) (by simp)

/-- Each step of a batch keeps it sound and lessens what is left, until it has collected the
outcomes. -/
theorem Step.sound (calm : sources.map (execute backend) = outcomes.map .ok)
    (step : Step backend sources state event later)
    (sound : Sound backend sources workers bound state) :
    (later.plan = .collect ∧ Batch.outcomes later.delivered sources.length = .ok outcomes) ∨
      Sound backend sources workers bound later ∧
        later.remaining sources.length < state.remaining sources.length := by
  obtain ⟨moments, traced, happened⟩ := step.exists_traced sound
  have unraised : ∀ id ticket crash, event ≠ .raised id ticket crash := by
    rintro id ticket crash rfl
    exact traced.not_raised calm id ticket crash happened
  have placed := sound.placed
  have total : sources.length = outcomes.length := by
    simpa using congrArg List.length calm
  obtain ⟨⟨earlier, tracedEarlier⟩, fits⟩ := sound
  have goesOn (advances : Advances sources.length state later) :
      Sound backend sources workers bound later ∧
        later.remaining sources.length < state.remaining sources.length :=
    ⟨⟨⟨moments, traced⟩, advances.fits⟩, advances.lessens⟩
  cases step with
  | own step follows =>
      rcases fits.own placed step follows unraised with
        ⟨collects, silent, all, rested, none_sent, going⟩ | advances
      · refine .inl ⟨collects, ?_⟩
        have collected := tracedEarlier.outcomes_eq calm (all.trans total) rested none_sent going
        rw [silent, List.append_nil, total]
        exact collected
      · exact .inr (goesOn advances)
  | worker step foreign => exact .inr (goesOn (fits.worker step foreign))

/-- A call of a batch goes on. -/
theorem exists_step_taking {plan : Plan} {pool : Pool Nat} {call : Call} {count : Nat}
    {gone : List Nat} (placed : Session.Placed ⟨pool, .taking call count, gone⟩)
    (delivered : List (Nat × Outcome))
    (returns : ∀ stage, ∃ planned, Follows sources plan (.returned call count) stage planned)
    (dismisses : call.isLast → ∀ stage, Follows sources plan .dismissed stage plan) :
    ∃ event later,
      Step backend sources ⟨plan, ⟨pool, .taking call count, gone⟩, delivered⟩ event later := by
  obtain ⟨event, next, step, unbroken⟩ := placed.exists_step_taking backend
  cases step with
  | handle wants taken => exact ⟨_, _, .own (.handle wants taken) .handle⟩
  | handleBreaking => simp [Event.handled?] at unbroken
  | skip wants taken => exact ⟨_, _, .own (.skip wants taken) .skip⟩
  | raise wants taken known => exact ⟨_, _, .own (.raise wants taken known) .raise⟩
  | desert wants left silent empty => exact ⟨_, _, .own (.desert wants left silent empty) .desert⟩
  | comeBack notLast done =>
      obtain ⟨planned, follows⟩ := returns .free
      exact ⟨_, _, .own (.comeBack notLast done) follows⟩
  | dismiss last done => exact ⟨_, _, .own (.dismiss last done) (dismisses last _)⟩
  | abandon unwound => simp at unwound
  | work present heard stepped =>
      exact ⟨_, _, .worker (.work present heard stepped) ⟨_, .inl rfl⟩⟩
  | leave present released => exact ⟨_, _, .worker (.leave present released) ⟨_, .inr rfl⟩⟩

/-- There is always a step to take. -/
theorem Sound.exists_step (sound : Sound backend sources workers bound state) :
    ∃ event later, Step backend sources state event later := by
  have placed := sound.placed
  rcases sound with ⟨-, fits⟩
  rcases state with ⟨plan, session, delivered⟩
  cases fits with
  | @submitting index pool gone within same =>
      have staffed := placed.not_isDeserted rfl
      rcases Nat.lt_or_eq_of_le within with less | rfl
      · cases full : pool.isFull with
        | true =>
            have refused : pool.submit [] index = .error (.queueFull (pool.bound.getD 0)) :=
              if_pos full
            exact ⟨_, _, .own (.refuse [] staffed refused) (.crowd less)⟩
        | false =>
            subst same
            exact ⟨_, _, .own (.send pool.nextId staffed full)
              (.send (List.getElem?_eq_getElem less))⟩
      · exact ⟨_, _, .own .begin .beginEmptying⟩
  | registering => exact ⟨_, _, .own .accept .accept⟩
  | crowded => exact ⟨_, _, .own .begin .wait⟩
  | @waiting index bound count =>
      apply exists_step_taking placed delivered
      · intro stage
        cases count with
        | zero => exact ⟨_, .giveUp⟩
        | succ count => exact ⟨_, .retry⟩
      · simp [Call.isLast]
  | emptying =>
      apply exists_step_taking placed delivered (fun _ => ⟨_, .endEmptying⟩)
      simp [Call.isLast]
  | emptied => exact ⟨_, _, .own .begin .beginClosing⟩
  | closing =>
      exact exists_step_taking placed delivered (fun _ => ⟨_, .endClosing⟩) fun _ _ => .dismiss
  | joining =>
      obtain ⟨event, next, step⟩ := placed.exists_step_joining backend
      cases step with
      | finish empty => exact ⟨_, _, .own (.finish empty) .endClosing⟩
      | work present heard stepped =>
          exact ⟨_, _, .worker (.work present heard stepped) ⟨_, .inl rfl⟩⟩
      | leave present released => exact ⟨_, _, .worker (.leave present released) ⟨_, .inr rfl⟩⟩
      | abandon unwound => simp at unwound

theorem remaining_start (total workers : Nat) (bound : Option Nat) :
    (State.start workers bound).remaining total = 22 * total + max workers 1 + 4 := by
  have idle (count : Nat) : Worker.totalWeight (List.replicate count .idle) = 0 := by
    induction count with
    | zero => rfl
    | succ count inductionHypothesis =>
        rw [List.replicate_succ, Worker.totalWeight, inductionHypothesis]
        rfl
  have staff : (Session.start workers bound : Session Nat).staff.length = max workers 1 := by
    simp [Session.staff, Session.start, Pool.start]
  have work : (Session.start workers bound : Session Nat).pool.work = 0 := by
    simp [Session.start, Pool.start, Pool.work, idle]
  have unsent : (Session.start workers bound : Session Nat).pool.nextId = 0 := rfl
  have weight : (Plan.submit 0).weight (Session.start workers bound : Session Nat).stage = 4 := rfl
  rw [State.remaining, State.start, staff, work, unsent, weight]
  omega

/-- Every schedule of a batch comes to its end, and then there is an outcome for every source, and
it is its own. -/
theorem happensWithin (calm : sources.map (execute backend) = outcomes.map .ok) (workers : Nat)
    (bound : Option Nat) :
    HappensWithin (Step backend sources)
      (fun _ later => later.plan = .collect ∧
        Batch.outcomes later.delivered sources.length = .ok outcomes)
      (22 * sources.length + max workers 1 + 5) (.start workers bound) := by
  have within := HappensWithin.of_measure (Sound backend sources workers bound)
    (State.remaining sources.length) (fun _ sound => sound.exists_step)
    (fun _ _ _ sound step => step.sound calm sound) .start
  rw [remaining_start] at within
  exact within

end Steps

end Batch

end Sequencer
