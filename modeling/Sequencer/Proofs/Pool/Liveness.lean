import Sequencer.Proofs.Pool.Calls

/-!
# Liveness

An open pool cannot get stuck. While a job is pending, a completion can be taken or a worker has
something to do, and no worker has left. Every step of a worker and every completion that is taken
lessen the work that is left, so a call of the owner comes to its end in whatever order the owner
and the workers act.
-/

namespace Sequencer

/-! ## What is bound to happen -/

section Within

variable {σ ε : Type} {step : σ → ε → σ → Prop} {wanted : ε → σ → Prop}

/-- Whatever steps are taken, a wanted one is among the first of them, and until then there is a
step to take. -/
def HappensWithin (step : σ → ε → σ → Prop) (wanted : ε → σ → Prop) : Nat → σ → Prop
  | 0, _ => False
  | steps + 1, state =>
      (∃ event next, step state event next) ∧
        ∀ event next, step state event next →
          wanted event next ∨ HappensWithin step wanted steps next

theorem HappensWithin.mono {steps more : Nat} {state : σ}
    (within : HappensWithin step wanted steps state) (enough : steps ≤ more) :
    HappensWithin step wanted more state := by
  induction steps generalizing more state with
  | zero => exact within.elim
  | succ steps inductionHypothesis =>
      cases more with
      | zero => exact absurd enough (Nat.not_succ_le_zero steps)
      | succ more =>
          refine ⟨within.1, fun event next taken => ?_⟩
          rcases within.2 event next taken with here | later
          · exact .inl here
          · exact .inr (inductionHypothesis later (Nat.le_of_succ_le_succ enough))

/-- Where there is always a step to take and every step lessens a measure, a wanted one is taken. -/
theorem HappensWithin.of_measure (invariant : σ → Prop) (measure : σ → Nat)
    (goesOn : ∀ state, invariant state → ∃ event next, step state event next)
    (lessens : ∀ state event next, invariant state → step state event next →
      wanted event next ∨ invariant next ∧ measure next < measure state)
    {state : σ} (holds : invariant state) :
    HappensWithin step wanted (measure state + 1) state := by
  induction bound : measure state using Nat.strongRecOn generalizing state with
  | ind bound inductionHypothesis =>
      subst bound
      refine ⟨goesOn state holds, fun event next taken => ?_⟩
      rcases lessens state event next holds taken with here | ⟨still, less⟩
      · exact .inl here
      · exact .inr ((inductionHypothesis _ less still rfl).mono less)

end Within

/-! ## The steps that are left -/

variable {τ : Type} {backend : Backend}

namespace Event

/-- Whether an event is a step of a worker with a job, or a completion taken. -/
def isProgress : Event τ → Bool
  | .worked _ | .handled .. | .unknown _ | .raised .. => true
  | _ => false

/-- Whether the owner takes a completion. -/
def isTaking : Event τ → Bool
  | .handled .. | .unknown _ | .raised .. => true
  | _ => false

/-- Whether a call may end with an event: it comes back, or something is raised. -/
def isWayOut : Event τ → Bool
  | .returned .. | .raised .. | .handled .. => true
  | _ => false

end Event

/-- A completion that is taken lessens the work that is left. -/
theorem Pool.work_takeOne?_lt {pool : Pool τ} {receipt : Receipt τ}
    (taken : pool.takeOne? = some receipt) : receipt.pool.work < pool.work := by
  rcases takeOne?_eq_some_iff.mp taken with ⟨-, completion, rest, completed, rfl⟩
  simp [work, release, completed]

namespace Session

/-- The workers that have not left. -/
def staff (session : Session τ) : List Nat :=
  (List.range session.pool.workers.length).diff session.gone

/-- The number of steps that are left for a call that is not interrupted. -/
def remaining (session : Session τ) : Nat :=
  session.pool.work + session.staff.length +
    match session.stage with
    | .taking .. => 1
    | _ => 0

/-- Every step of a worker and every completion taken lessen the work that is left. -/
theorem Step.work_lt {first last : Session τ} {event : Event τ}
    (step : Step backend first event last) (progress : event.isProgress) :
    last.pool.work < first.pool.work := by
  cases step with
  | handle wants taken | handleBreaking wants taken | skip wants taken | raise wants taken known =>
      exact Pool.work_takeOne?_lt taken
  | work present heard stepped => exact Pool.work_lt_of_advance? stepped
  | refuse | refuseDeserted | send | accept | cancel | begin | desert | comeBack | dismiss
  | finish | abandon | leave =>
      cases progress

/-- A worker that leaves is missing afterwards. -/
theorem length_staff_leave {pool : Pool τ} {stage : Stage τ} {gone : List Nat} {index : Nat}
    (present : index ∉ gone) (released : pool.MayLeave stage index) :
    (staff ⟨pool, stage, index :: gone⟩).length < (staff ⟨pool, stage, gone⟩).length := by
  have inside : index < pool.workers.length := by
    rcases released with ⟨found, -⟩ | ⟨⟨completion, found⟩, -⟩
    · exact (List.getElem?_eq_some_iff.mp found).1
    · exact (List.getElem?_eq_some_iff.mp found).1
  have staying : index ∈ staff ⟨pool, stage, gone⟩ :=
    List.mem_diff_of_mem (List.mem_range.mpr inside) present
  have same : staff ⟨pool, stage, index :: gone⟩ = (staff ⟨pool, stage, gone⟩).erase index :=
    List.diff_cons_right ..
  rw [same, List.length_erase_of_mem staying]
  exact Nat.sub_one_lt (List.ne_nil_of_mem staying ∘ List.length_eq_zero_iff.mp)

/-- A step of a worker lessens the steps that are left, and the owner stays where it is. -/
theorem Step.remaining_lt_of_worked {first last : Session τ} {index : Nat}
    (step : Step backend first (.worked index) last) :
    last.stage = first.stage ∧ last.remaining < first.remaining := by
  cases step with
  | work present heard stepped =>
      have less := Pool.work_lt_of_advance? stepped
      have workers := (Pool.advance?_eq_some_iff.mp stepped).length_workers_eq
      refine ⟨rfl, ?_⟩
      simp only [remaining, staff, workers]
      omega

/-- While the owner is in a call, a step ends the call or lessens the steps that are left. -/
theorem Step.ends_or_remaining_lt {first last : Session τ} {event : Event τ}
    (step : Step backend first event last) (placed : Placed first)
    (inside : first.stage.call?.isSome) :
    (event.isWayOut ∧ last.stage.call? = none) ∨
      last.stage.call?.isSome ∧ last.remaining < first.remaining := by
  cases step with
  | refuse | refuseDeserted | send | accept | cancel | begin => cases inside
  | handle wants taken =>
      have less := Pool.work_takeOne?_lt taken
      have workers := Pool.workers_of_takeOne? taken
      refine .inr ⟨rfl, ?_⟩
      dsimp only at less workers
      simp only [remaining, staff, workers]
      omega
  | handleBreaking wants taken => exact .inl ⟨rfl, Stage.call?_brokenOff _⟩
  | skip wants taken => exact absurd rfl (placed.answer_ne_none taken)
  | raise wants taken known => exact .inl ⟨rfl, Stage.call?_brokenOff _⟩
  | desert wants left silent empty => exact absurd empty (placed.not_isDeserted rfl)
  | comeBack notLast done => exact .inl ⟨rfl, rfl⟩
  | dismiss last done => exact .inr ⟨rfl, Nat.lt_succ_self _⟩
  | finish empty => exact .inl ⟨rfl, rfl⟩
  | abandon unwound => rcases unwound with rfl | rfl <;> cases inside
  | work present heard stepped =>
      have worked : Step backend _ (.worked _) _ := .work present heard stepped
      exact .inr ⟨inside, worked.remaining_lt_of_worked.2⟩
  | leave present released =>
      have less := length_staff_leave present released
      refine .inr ⟨inside, ?_⟩
      simp only [remaining]
      omega

/-! ## There is always a step to take -/

/-- While a job is pending and none is completed, a worker has something to do. -/
theorem Placed.exists_advance? (backend : Backend) {pool : Pool τ} {stage : Stage τ}
    {gone : List Nat} (placed : Placed ⟨pool, stage, gone⟩) (kept : stage.isDismissed = false)
    (left : pool.pending ≠ []) (silent : pool.completions = []) :
    ∃ index next, pool.advance? backend index = some next := by
  by_contra stuck
  have stopped (index : Nat) : pool.advance? backend index = none := by
    cases advanced : pool.advance? backend index with
    | none => rfl
    | some next => exact absurd ⟨index, next, advanced⟩ stuck
  have rest := Pool.atRest_of_advance? placed.staffed stopped
  have places := placed.places (by rintro rfl; cases kept)
  rw [rest.places_eq, silent] at places
  have live : pool.pending ++ stage.sent = [] := List.map_eq_nil_iff.mp places.symm.eq_nil
  exact left (List.append_eq_nil_iff.mp live).1

/-- While a job is pending in an open pool, a completion can be taken or a worker has something to
do. -/
theorem Placed.exists_completion_or_worked (backend : Backend) {session : Session τ}
    (placed : Placed session) (kept : session.stage.isDismissed = false)
    (left : session.pool.pending ≠ []) :
    session.pool.completions ≠ [] ∨
      ∃ index next, Step backend session (.worked index) next := by
  rcases session with ⟨pool, stage, gone⟩
  by_cases silent : pool.completions = []
  · obtain ⟨index, next, advanced⟩ := placed.exists_advance? backend kept left silent
    have none_gone : gone = [] := placed.present kept
    refine .inr ⟨index, _, .work ?_ (pool.not_mayLeave kept index) advanced⟩
    simp [none_gone]
  · exact .inl silent

/-- A completion that is there can be taken by a call that takes another one, and a handler need not
break the call off. -/
theorem Placed.exists_take {pool : Pool τ} {call : Call} {count : Nat} {gone : List Nat}
    (placed : Placed ⟨pool, .taking call count, gone⟩) (wants : call.wantsMore count)
    (left : pool.pending ≠ []) (completed : pool.completions ≠ []) :
    ∃ event next, Step backend ⟨pool, .taking call count, gone⟩ event next ∧ event.isTaking ∧
      (event.handled?.isSome → next.stage.call?.isSome) := by
  cases taken : pool.takeOne? with
  | none =>
      rcases Pool.takeOne?_eq_none_iff.mp taken with none_pending | none_completed
      · exact absurd none_pending left
      · exact absurd none_completed completed
  | some receipt =>
      rcases receipt with ⟨next, id, answer⟩
      cases answer with
      | error crash =>
          obtain ⟨ticket, known⟩ := placed.exists_ticket? taken
          exact ⟨_, _, .raise wants taken known, rfl, nofun⟩
      | ok given =>
          cases given with
          | none => exact absurd rfl (placed.answer_ne_none taken)
          | some given => exact ⟨_, _, .handle wants taken, rfl, fun _ => rfl⟩

/-- A call that takes completions can go on, whatever it waits for, and a handler need not break it
off. -/
theorem Placed.exists_step_taking (backend : Backend) {pool : Pool τ} {call : Call} {count : Nat}
    {gone : List Nat} (placed : Placed ⟨pool, .taking call count, gone⟩) :
    ∃ event next, Step backend ⟨pool, .taking call count, gone⟩ event next ∧
      (event.handled?.isSome → next.stage.call?.isSome) := by
  by_cases rested : pool.pending = []
  · cases last : call.isLast with
    | true => exact ⟨_, _, .dismiss last rested, nofun⟩
    | false => exact ⟨_, _, .comeBack last (.inl rested), nofun⟩
  · cases wants : call.wantsMore count with
    | false =>
        have notLast : call.isLast = false := by
          cases call with
          | waitOne => rfl
          | poll | runUntilIdle | shutDown | drop => cases wants
        exact ⟨_, _, .comeBack notLast (.inr (.inl wants)), nofun⟩
    | true =>
        rcases placed.exists_completion_or_worked backend rfl rested with
          completed | ⟨index, next, step⟩
        · obtain ⟨event, next, step, -, unbroken⟩ := placed.exists_take wants rested completed
          exact ⟨event, next, step, unbroken⟩
        · exact ⟨_, _, step, nofun⟩

/-- A call that waits for the workers to leave can go on: nothing is left for them to do. -/
theorem Placed.exists_step_joining (backend : Backend) {pool : Pool τ} {call : Call} {count : Nat}
    {gone : List Nat} (placed : Placed ⟨pool, .joining call count, gone⟩) :
    ∃ event next, Step backend ⟨pool, .joining call count, gone⟩ event next := by
  by_cases deserted : pool.IsDeserted gone
  · exact ⟨_, _, .finish deserted⟩
  · simp only [Pool.IsDeserted, not_forall] at deserted
    obtain ⟨index, inside, present⟩ := deserted
    have places := placed.places nofun
    rw [live, placed.rested call count rfl] at places
    have empty : pool.places = [] := places.eq_nil
    simp only [Pool.places, List.append_eq_nil_iff, List.map_eq_nil_iff,
      List.flatMap_eq_nil_iff] at empty
    have idle : pool.workers[index]? = some .idle := by
      have jobs := empty.2.1 _ (List.getElem_mem inside)
      rw [List.getElem?_eq_getElem inside, Option.some.injEq]
      generalize pool.workers[index] = worker at jobs
      cases worker with
      | idle => rfl
      | holding | compiling | finished => cases jobs
    exact ⟨_, _, .leave present (.inl ⟨idle, empty.1, rfl⟩)⟩

theorem Placed.exists_step {session : Session τ} (placed : Placed session)
    (inside : session.stage.call?.isSome) : ∃ event next, Step backend session event next := by
  rcases session with ⟨pool, stage, gone⟩
  cases stage with
  | taking call count =>
      obtain ⟨event, next, step, -⟩ := placed.exists_step_taking backend
      exact ⟨event, next, step⟩
  | joining call count => exact placed.exists_step_joining backend
  | free | registering | unwinding | ended => cases inside

/-- A call comes to its end, in whatever order the owner and the workers act. -/
theorem Placed.happensWithin {session : Session τ} (placed : Placed session)
    (inside : session.stage.call?.isSome) :
    HappensWithin (Step backend) (fun event next => event.isWayOut ∧ next.stage.call? = none)
      (session.remaining + 1) session := by
  apply HappensWithin.of_measure
    (fun session => Placed session ∧ session.stage.call?.isSome) remaining
  · rintro session ⟨placed, inside⟩
    exact placed.exists_step inside
  · rintro session event next ⟨placed, inside⟩ step
    rcases step.ends_or_remaining_lt placed inside with ended | ⟨still, less⟩
    · exact .inl ended
    · exact .inr ⟨⟨step.placed placed, still⟩, less⟩
  · exact ⟨placed, inside⟩

/-! ## Nothing gets stuck -/

/-- What holds of a session that has come about by a trace: nothing holds its jobs up. -/
structure NeverStuck (backend : Backend) (trace : List (Event τ)) (session : Session τ) :
    Prop where
  /-- While a job is pending in an open pool, a completion can be taken or a worker can act. -/
  moves : session.stage.isDismissed = false → session.pool.pending ≠ [] →
    session.pool.completions ≠ [] ∨ ∃ index next, Step backend session (.worked index) next
  /-- No worker of an open pool has left, and there is one, so that somebody can complete a job. -/
  manned : session.stage.isDismissed = false →
    session.gone = [] ∧ ¬ session.pool.IsDeserted session.gone
  /-- Every step of a worker and every completion taken lessen the work that is left. -/
  lessens : ∀ event next, Step backend session event next → event.isProgress →
    next.pool.work < session.pool.work
  /-- A call that the owner is in comes back or raises something, in whatever order the owner and
  the workers act. -/
  ends : ∀ call count, session.stage.call? = some (call, count) →
    HappensWithin (Step backend) (fun event next => event.isWayOut ∧ next.stage.call? = none)
      (session.remaining + 1) session
  /-- Jobs have never been given up for want of workers. -/
  kept : ∀ jobs, .deserted jobs ∉ trace

/-- No pool gets stuck, whatever its backend, its owner and its workers do. -/
theorem Run.neverStuck {workers : Nat} {bound : Option Nat} {trace : List (Event τ)}
    {session : Session τ} (run : Run backend (start workers bound) trace session) :
    NeverStuck backend trace session where
  moves kept left :=
    (run.placed (.start workers bound)).exists_completion_or_worked backend kept left
  manned kept := by
    have placed := run.placed (.start workers bound)
    exact ⟨placed.present kept, placed.not_isDeserted kept⟩
  lessens _ _ step progress := step.work_lt progress
  ends call count inside := by
    apply (run.placed (.start workers bound)).happensWithin
    rw [inside]
    rfl
  kept jobs happened := by
    obtain ⟨middle, next, placed, step⟩ := run.exists_placed_step happened
    exact step.not_deserted placed

/-- The only worker is about to hand back a crash, another job waits, and the owner waits too. -/
theorem neverStuck_unsteady :
    NeverStuck unsteady
      [.sent ⟨0⟩ ['x'], .worked 0, .accepted ⟨0⟩ 7, .sent ⟨1⟩ [], .accepted ⟨1⟩ 8, .worked 0,
        .began .waitOne, .worked 0]
      ⟨⟨some 0, [⟨⟨1⟩, []⟩], [.finished ⟨⟨0⟩, .error (.brokenContract (.truncatedFrame 0))⟩], [],
        [(⟨0⟩, 7), (⟨1⟩, 8)], [], 2⟩, .taking .waitOne 0, []⟩ := by
  have present : (0 : Nat) ∉ ([] : List Nat) := List.not_mem_nil
  apply @Run.neverStuck _ _ 0 (some 0)
  refine .cons (.send 7 (by decide) rfl) ?_
  refine .cons (.work present (Pool.not_mayLeave _ rfl _) rfl) ?_
  refine .cons .accept ?_
  refine .cons (.send 8 (by decide) rfl) ?_
  refine .cons .accept ?_
  refine .cons (.work present (Pool.not_mayLeave _ rfl _) rfl) ?_
  refine .cons .begin ?_
  exact .cons (.work present (Pool.not_mayLeave _ rfl _) rfl) .refl

end Session

end Sequencer
