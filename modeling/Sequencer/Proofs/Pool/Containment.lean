import Sequencer.Proofs.Job.Classification
import Sequencer.Proofs.Pool.Cancellation
import Sequencer.Proofs.Pool.Liveness
import Sequencer.Proofs.Pool.Omission

/-!
# Containment of crashes

A job whose code cannot be counted crashes, and the crash is raised where the handler of the job
would have been called. Nothing else comes of it: the call that takes the completion is broken off,
the job is pending no longer, and every other job stays where it is and comes to what it would have
come to without the crash. An owner that begins the call again and again sees each crash once and
has then called all other handlers (`Session.History.containsCrashes`).
-/

namespace Sequencer

/-! ## Jobs that crash -/

variable {τ : Type} {backend : Backend}

/-- A job that was sent crashes: no worker has seen its flag set, and the contract is broken over
its source. -/
def Crashes (backend : Backend) (moments : List (Moment τ)) (id : JobId) (crash : Crash) : Prop :=
  ∃ source, .sent id source ∈ Trace.events moments ∧
    .looked true ∉ Trace.marks moments id ∧ backend.BreaksContract source crash

namespace Event

/-- Whether an event may happen while the owner does nothing but empty the pool, again after each
time that something is raised. -/
def isPersistent : Event τ → Bool
  | .refused .. | .sent .. | .accepted .. | .cancelled .. | .dismissed | .abandoned _ => false
  | .began call => call = .runUntilIdle
  | _ => true

end Event

/-- An owner that does nothing but empty the pool submits nothing. -/
theorem Trace.accepted_of_isPersistent {trace : List (Event τ)}
    (persistent : ∀ event ∈ trace, event.isPersistent) : accepted trace = [] := by
  apply List.filterMap_eq_nil_iff.mpr
  intro event happened
  have kept := persistent event happened
  cases event with
  | accepted => cases kept
  | _ => rfl

/-- The owner is between two calls that empty the pool, or in one. -/
def Stage.isPersistent : Stage τ → Bool
  | .free => true
  | .taking call _ => call = .runUntilIdle
  | _ => false

namespace Session

section Recorded

variable {moments : List (Moment τ)} {session : Session τ}

/-- What a settled job came to is a crash if the job crashes, and only then. -/
theorem Recorded.eq_error_iff (recorded : Recorded backend moments session) {id : JobId}
    {result : Except Crash Outcome}
    (settled : (id, .settled result) ∈ Session.known moments session) (crash : Crash) :
    result = .error crash ↔ Crashes backend moments id crash := by
  obtain ⟨source, inSent, records⟩ := recorded.records _ settled
  have sent := Trace.mem_sent_iff.mp inSent
  rcases records.settled with ⟨marks, rfl⟩ | ⟨marks, rfl⟩
  · constructor
    · nofun
    · rintro ⟨-, -, unseen, -⟩
      simp [marks] at unseen
  · rw [execute_eq_error_iff]
    constructor
    · intro breaks
      exact ⟨source, sent, by simp [marks], breaks⟩
    · rintro ⟨other, sent', -, breaks⟩
      rwa [recorded.source_eq sent sent']

/-- A completion that lies in the pool is that of a settled job. -/
theorem mem_known_of_mem_completions {completion : Completion}
    (inside : completion ∈ session.pool.completions) :
    (completion.id, .settled completion.result) ∈ known moments session := by
  have completed : (completion.id, .settled completion.result) ∈
      session.pool.completions.map fun completion =>
        (completion.id, Progress.settled completion.result) :=
    List.mem_map_of_mem inside
  exact List.mem_append_right _ (List.mem_append_right _ (List.mem_append_right _ completed))

end Recorded

/-! ## Taking a completion -/

/-- A completion that the owner takes is the oldest and that of a pending job, and its result says
what becomes of the job. -/
theorem Step.exists_completion {first last : Session τ} {event : Event τ}
    (step : Step backend first event last) (placed : Placed first) (taking : event.isTaking) :
    ∃ completion rest ticket, first.pool.completions = completion :: rest ∧
      (completion.id, ticket) ∈ first.pool.pending ∧
      ((∃ crash, completion.result = .error crash ∧ event = .raised completion.id ticket crash) ∨
        ∃ outcome, completion.result = .ok outcome ∧
          event = .handled completion.id ticket outcome) := by
  cases step with
  | handle wants taken | handleBreaking wants taken =>
      have pending := Pool.mem_pending_of_ticket? (Pool.ticket?_of_answer taken rfl)
      obtain ⟨completion, rest, completed, rfl, -, answered, -⟩ :=
        Pool.exists_completion_of_takeOne? taken
      exact ⟨completion, rest, _, completed, pending, .inr ⟨_, answered _ _ rfl, rfl⟩⟩
  | raise wants taken known =>
      have pending := Pool.mem_pending_of_ticket? known
      obtain ⟨completion, rest, completed, rfl, -, -, crashed⟩ :=
        Pool.exists_completion_of_takeOne? taken
      exact ⟨completion, rest, _, completed, pending, .inl ⟨_, crashed _ rfl, rfl⟩⟩
  | skip wants taken => exact absurd rfl (placed.answer_ne_none taken)
  | refuse | refuseDeserted | send | accept | cancel | begin | desert | comeBack | dismiss |
      finish | abandon | work | leave =>
      cases taking

/-- While there is a completion for a call that wants one, the owner does nothing but take it. -/
theorem Step.isTaking_or_worked {pool : Pool τ} {call : Call} {count : Nat} {gone : List Nat}
    {event : Event τ} {last : Session τ}
    (step : Step backend ⟨pool, .taking call count, gone⟩ event last) (wants : call.wantsMore count)
    (left : pool.pending ≠ []) (completed : pool.completions ≠ []) :
    event.isTaking ∨ ∃ index, event = .worked index := by
  cases step with
  | handle | handleBreaking | skip | raise => exact .inl rfl
  | work => exact .inr ⟨_, rfl⟩
  | desert wants left silent empty => exact absurd silent completed
  | comeBack notLast done =>
      rcases done with rested | enough | ⟨-, silent, -⟩
      · exact absurd rested left
      · rw [wants] at enough
        cases enough
      · exact absurd silent completed
  | dismiss last done => exact absurd done left
  | abandon unwound => simp at unwound
  | leave present released => exact absurd released (pool.not_mayLeave rfl _)

/-- A crash that is raised takes its own job out and leaves everything else as it is. -/
theorem Step.of_raised {first last : Session τ} {id : JobId} {ticket : τ} {crash : Crash}
    (step : Step backend first (.raised id ticket crash) last) (placed : Placed first) :
    ∃ call count rest, first.stage = .taking call count ∧
      first.pool.completions = ⟨id, .error crash⟩ :: rest ∧
      first.pool.pending.Perm ((id, ticket) :: last.pool.pending) ∧
      last = ⟨{ first.pool with
          completions := rest
          pending := first.pool.pending.filter (·.1 ≠ id) },
        .brokenOff call, first.gone⟩ := by
  have balance := step.balance placed
  cases step with
  | @raise pool next gone call count id ticket crash wants taken known =>
      obtain ⟨⟨id, result⟩, rest, completed, rfl, same, -, crashed⟩ :=
        Pool.exists_completion_of_takeOne? taken
      obtain rfl := crashed _ rfl
      obtain rfl : next = { pool with completions := rest }.release id := same
      exact ⟨call, count, rest, rfl, completed, balance, rfl⟩

/-- Whether a crash is raised is told by the job whose completion is taken. -/
theorem Step.raised_iff {moments : List (Moment τ)} {first last : Session τ} {event : Event τ}
    (step : Step backend first event last) (placed : Placed first)
    (recorded : Recorded backend moments first) (taking : event.isTaking) :
    ∃ completion rest ticket, first.pool.completions = completion :: rest ∧
      (completion.id, ticket) ∈ first.pool.pending ∧
      (∀ crash, event = .raised completion.id ticket crash ↔
        Crashes backend moments completion.id crash) ∧
      ((∀ crash, ¬ Crashes backend moments completion.id crash) →
        ∃ outcome, event = .handled completion.id ticket outcome) := by
  obtain ⟨completion, rest, ticket, completed, pending, result⟩ :=
    step.exists_completion placed taking
  have settled := recorded.eq_error_iff (mem_known_of_mem_completions
    (completed ▸ List.mem_cons_self))
  refine ⟨completion, rest, ticket, completed, pending, fun crash => ?_, fun harmless => ?_⟩
  · rw [← settled]
    rcases result with ⟨crash', same, rfl⟩ | ⟨outcome, same, rfl⟩
    · simp [same, eq_comm]
    · simp [same]
  · rcases result with ⟨crash, same, -⟩ | ⟨outcome, -, rfl⟩
    · exact absurd ((settled crash).mp same) (harmless crash)
    · exact ⟨outcome, rfl⟩

/-! ## A broken last call -/

/-- Nothing is handled or raised once a call that would have ended the pool was broken off. -/
theorem Run.not_isTaking {first last : Session τ} {trace : List (Event τ)}
    (run : Run backend first trace last)
    (closed : first.stage = .unwinding ∨ first.stage = .ended) :
    (last.stage = .unwinding ∨ last.stage = .ended) ∧ ∀ event ∈ trace, event.isTaking = false := by
  induction run with
  | refl => exact ⟨closed, by simp⟩
  | @next trace middle event last earlier step inductionHypothesis =>
      obtain ⟨still, before⟩ := inductionHypothesis
      have now : (last.stage = .unwinding ∨ last.stage = .ended) ∧ event.isTaking = false := by
        cases step with
        | work | leave => exact ⟨still, rfl⟩
        | abandon => exact ⟨.inr rfl, rfl⟩
        | _ => simp at still
      refine ⟨now.1, fun other happened => ?_⟩
      rcases List.mem_append.mp happened with earlier | last
      · exact before other earlier
      · rw [List.mem_singleton.mp last]
        exact now.2

/-! ## Emptying the pool in spite of crashes -/

/-- One step while the owner does nothing but empty the pool. -/
def Persists (backend : Backend) (first : Session τ) (event : Event τ) (last : Session τ) : Prop :=
  Step backend first event last ∧ event.isPersistent

/-- The number of steps that are left until the pool is empty. Every call may be broken off, and
then one more step begins it again. -/
def patience (session : Session τ) : Nat :=
  2 * session.pool.work +
    match session.stage with
    | .free => 1
    | _ => 0

/-- Every step of such an owner and of the workers brings the end nearer. -/
theorem Persists.returns_or_patience_lt {first last : Session τ} {event : Event τ}
    (persists : Persists backend first event last) (placed : Placed first)
    (inside : first.stage.isPersistent) :
    (∃ count, event = .returned .runUntilIdle count) ∨
      last.stage.isPersistent ∧ last.patience < first.patience := by
  rcases persists with ⟨step, persistent⟩
  have less := step.work_lt
  cases step with
  | refuse | refuseDeserted | send | accept | cancel | dismiss | abandon => cases persistent
  | finish => cases inside
  | desert wants left silent empty => exact absurd empty (placed.not_isDeserted rfl)
  | skip wants taken => exact absurd rfl (placed.answer_ne_none taken)
  | begin => exact .inr ⟨persistent, Nat.lt_succ_self _⟩
  | comeBack notLast done =>
      obtain rfl := of_decide_eq_true inside
      exact .inl ⟨_, rfl⟩
  | handle wants taken => exact .inr ⟨inside, Nat.mul_lt_mul_of_pos_left (less rfl) Nat.two_pos⟩
  | handleBreaking | raise =>
      obtain rfl := of_decide_eq_true inside
      refine .inr ⟨rfl, ?_⟩
      show 2 * _ + 1 < 2 * _
      have less := less rfl
      omega
  | work present heard stepped =>
      refine .inr ⟨inside, ?_⟩
      exact Nat.add_lt_add_right (Nat.mul_lt_mul_of_pos_left (less rfl) Nat.two_pos) _
  | @leave pool stage gone index present released =>
      have kept : stage.isDismissed = false := by
        cases stage <;> first | rfl | cases inside
      exact absurd released (pool.not_mayLeave kept index)

theorem Placed.exists_persists {session : Session τ} (placed : Placed session)
    (inside : session.stage.isPersistent) :
    ∃ event next, Persists backend session event next := by
  rcases session with ⟨pool, stage, gone⟩
  cases stage with
  | free => exact ⟨.began .runUntilIdle, _, .begin, rfl⟩
  | taking call count =>
      obtain rfl := of_decide_eq_true inside
      obtain ⟨event, next, step, -⟩ := placed.exists_step_taking backend
      refine ⟨event, next, step, ?_⟩
      cases step with
      | dismiss last done => cases last
      | abandon unwound => simp at unwound
      | _ => rfl
  | registering | joining | unwinding | ended => cases inside

/-- Whatever is raised, an owner that begins again empties the pool in the end. -/
theorem Placed.happensWithin_patience {session : Session τ} (placed : Placed session)
    (inside : session.stage.isPersistent) :
    HappensWithin (Persists backend) (fun event _ => ∃ count, event = .returned .runUntilIdle count)
      (session.patience + 1) session := by
  apply HappensWithin.of_measure
    (fun session => Placed session ∧ session.stage.isPersistent) patience
  · rintro session ⟨placed, inside⟩
    exact placed.exists_persists inside
  · rintro session event next ⟨placed, inside⟩ persists
    rcases persists.returns_or_patience_lt placed inside with returned | ⟨still, less⟩
    · exact .inl returned
    · exact .inr ⟨⟨persists.1.placed placed, still⟩, less⟩
  · exact ⟨placed, inside⟩

section Start

variable {workers : Nat} {bound : Option Nat} {moments after : List (Moment τ)}
  {session middle last : Session τ}

/-- What a handler is given is told by the source of its job and by what a worker saw of its
flag. -/
theorem History.answer_eq (history : History backend (start workers bound) moments session)
    {id : JobId} {source : List Char} {ticket : τ} {outcome : Outcome}
    (sent : .sent id source ∈ Trace.events moments)
    (handled : .handled id ticket outcome ∈ Trace.events moments) :
    (if .looked true ∈ Trace.marks moments id then .ok .cancelled else execute backend source) =
      .ok outcome := by
  obtain ⟨own, unique, settled⟩ := history.settled (Trace.mem_settled_of_handled handled)
  obtain rfl := (unique source).mp sent
  rcases settled with ⟨marks, same⟩ | ⟨marks, same⟩
  · rw [if_pos (by simp [marks]), same]
  · rw [if_neg (by simp [marks]), same]

/-- When a call that an owner has begun again and again comes back, each job that was pending was
handled, or raised if it crashes. -/
theorem History.emptied (history : History backend (start workers bound) moments session)
    (more : History backend session after middle)
    (persistent : ∀ event ∈ Trace.events after, event.isPersistent)
    {count : Nat} (step : Step backend middle (.returned .runUntilIdle count) last) :
    last.pool.pending = [] ∧
      (Trace.handled (Trace.events after) ++ Trace.raised (Trace.events after)).Perm
        session.pool.pending ∧
      ∀ id ticket, (id, ticket) ∈ session.pool.pending →
        ((id, ticket) ∈ Trace.raised (Trace.events after) ↔
          ∃ crash, Crashes backend (moments ++ after) id crash) := by
  have whole := history.trans more
  obtain ⟨going, rested⟩ := step.pending_of_returned whole.placed nofun nofun
  have balance := more.run.balance history.placed
  rw [Trace.accepted_of_isPersistent persistent, more.run.dropped_eq_nil history.placed going,
    rested, List.append_nil, List.append_nil, List.nil_append] at balance
  have same := step.balance whole.placed
  rw [rested] at same
  refine ⟨same.nil_eq.symm, balance.symm, fun id ticket pending => ?_⟩
  have crashes {result : Except Crash Outcome}
      (settled : (id, .settled result) ∈ Trace.settled (Trace.events after)) (crash : Crash) :
      result = .error crash ↔ Crashes backend (moments ++ after) id crash := by
    apply whole.recorded.eq_error_iff (List.mem_append_left _ _)
    rw [Trace.events_append, Trace.settled_append]
    exact List.mem_append_right _ settled
  constructor
  · intro raised
    obtain ⟨crash, happened⟩ := Trace.mem_raised_iff.mp raised
    exact ⟨crash, (crashes (Trace.mem_settled_of_raised happened) crash).mp rfl⟩
  · rintro ⟨crash, violates⟩
    rcases List.mem_append.mp (balance.mem_iff.mp pending) with handled | raised
    · obtain ⟨outcome, happened⟩ := Trace.mem_handled_iff.mp handled
      cases (crashes (Trace.mem_settled_of_handled happened) crash).mpr violates
    · exact raised

/-! ## Crashes are contained -/

/-- What holds of a session that has come about by some moments: a crash concerns its own job
only. -/
structure ContainsCrashes (backend : Backend) (workers : Nat) (bound : Option Nat)
    (moments : List (Moment τ)) (session : Session τ) : Prop where
  /-- While a call wants another completion and there is one, the owner takes it and does nothing
  else. -/
  takes : ∀ call count, session.stage = .taking call count → call.wantsMore count →
    session.pool.pending ≠ [] → session.pool.completions ≠ [] →
    (∃ event next, event.isTaking ∧ Step backend session event next) ∧
      ∀ event next, Step backend session event next →
        event.isTaking ∨ ∃ index, event = .worked index
  /-- The completion that the owner takes is the oldest, and a crash is raised exactly when its job
  crashes. Otherwise its handler is called. -/
  raises : ∀ event next, Step backend session event next → event.isTaking →
    ∃ completion rest ticket, session.pool.completions = completion :: rest ∧
      (completion.id, ticket) ∈ session.pool.pending ∧
      (∀ crash, event = .raised completion.id ticket crash ↔
        Crashes backend moments completion.id crash) ∧
      ((∀ crash, ¬ Crashes backend moments completion.id crash) →
        ∃ outcome, event = .handled completion.id ticket outcome)
  /-- When a crash is raised, the call is broken off, the job has left the pending jobs with its
  completion, and everything else is as it was. -/
  removes : ∀ id ticket crash next, Step backend session (.raised id ticket crash) next →
    ∃ call count rest, session.stage = .taking call count ∧
      session.pool.completions = ⟨id, .error crash⟩ :: rest ∧
      session.pool.pending.Perm ((id, ticket) :: next.pool.pending) ∧
      next = ⟨{ session.pool with
          completions := rest
          pending := session.pool.pending.filter (·.1 ≠ id) },
        .brokenOff call, session.gone⟩
  /-- No handler is called twice, and none of a job whose crash was raised. -/
  once : ((Trace.handled (Trace.events moments) ++ Trace.raised (Trace.events moments)).map
    Prod.fst).Nodup
  /-- Without jobs that crash, as long as all whose crashes were raised are left out, the same can
  happen to all the others, in the same order, and they are then where they are now. -/
  without : ∀ kept : JobId → Bool,
    (∀ id, kept id = false → ∃ crash, Crashes backend moments id crash) →
    (∀ id ticket crash, .raised id ticket crash ∈ Trace.events moments → kept id = false) →
    ∃ trace session', Run backend (start workers bound) trace session' ∧
      Trace.ofJobs trace = Trace.without kept (Trace.events moments) ∧
      (session.stage.isDismissed = false → session' = session.without kept)
  /-- A job is given the same outcome whenever its source is submitted, whatever else is submitted
  and crashes, if a worker sees its flag in the same way. -/
  others : ∀ workers' bound' (moments' : List (Moment τ)) session',
    History backend (start workers' bound') moments' session' →
    ∀ id id' source ticket ticket' outcome outcome',
      .sent id source ∈ Trace.events moments → .sent id' source ∈ Trace.events moments' →
      .handled id ticket outcome ∈ Trace.events moments →
      .handled id' ticket' outcome' ∈ Trace.events moments' →
      (.looked true ∈ Trace.marks moments id ↔ .looked true ∈ Trace.marks moments' id') →
        outcome = outcome'
  /-- An owner that begins to empty the pool again whenever something is raised comes to an end. -/
  again : session.stage = .free →
    HappensWithin (Persists backend) (fun event _ => ∃ count, event = .returned .runUntilIdle count)
      (2 * session.pool.work + 2) session
  /-- By then it has seen the crash of each pending job that crashes, has called the handlers of the
  others, each once, and nothing is pending. -/
  emptied : ∀ (after : List (Moment τ)) middle count last,
    History backend session after middle →
    (∀ event ∈ Trace.events after, event.isPersistent) →
    Step backend middle (.returned .runUntilIdle count) last →
      last.pool.pending = [] ∧
      (Trace.handled (Trace.events after) ++ Trace.raised (Trace.events after)).Perm
        session.pool.pending ∧
      ∀ id ticket, (id, ticket) ∈ session.pool.pending →
        ((id, ticket) ∈ Trace.raised (Trace.events after) ↔
          ∃ crash, Crashes backend (moments ++ after) id crash)
  /-- After a crash in a call that would have ended the pool, no handler is called and nothing more
  is raised. -/
  last : ∀ call count, session.stage = .taking call count → call.isLast →
    ∀ id ticket crash next, Step backend session (.raised id ticket crash) next →
    ∀ trace later, Run backend next trace later → ∀ event ∈ trace, event.isTaking = false

/-- Crashes are contained, whatever the backend, the owner and the workers do. -/
theorem History.containsCrashes (history : History backend (start workers bound) moments session) :
    ContainsCrashes backend workers bound moments session where
  takes := by
    rintro call count inCall wants left completed
    rcases session with ⟨pool, stage, gone⟩
    obtain rfl : stage = .taking call count := inCall
    constructor
    · obtain ⟨event, next, step, taking, -⟩ := history.placed.exists_take wants left completed
      exact ⟨event, next, taking, step⟩
    · intro event next step
      exact step.isTaking_or_worked wants left completed
  raises event next step taking := step.raised_iff history.placed history.recorded taking
  removes id ticket crash next step := step.of_raised history.placed
  once := by
    rcases history.run.subperm_accepted with ⟨same, reordered, within⟩
    exact (reordered.map Prod.fst).nodup_iff.mp
      ((within.map Prod.fst).nodup history.run.nodup_accepted)
  without := by
    intro kept crashing raised
    apply history.run.without _ raised
    intro id ticket outcome happened
    by_contra omitted
    obtain ⟨crash, crashes⟩ := crashing id (Bool.eq_false_iff.mpr omitted)
    have settled := Trace.mem_settled_of_handled happened
    cases (history.recorded.eq_error_iff (List.mem_append_left _ settled) crash).mpr crashes
  others := by
    intro workers' bound' moments' session' history' id id' source ticket ticket' outcome outcome'
      sent sent' handled handled' same
    have answer := history.answer_eq sent handled
    rw [if_congr same rfl rfl, history'.answer_eq sent' handled'] at answer
    exact (Except.ok.inj answer).symm
  again free := by
    have patience : session.patience + 1 = 2 * session.pool.work + 2 := by
      rw [patience, free]
    rw [← patience]
    apply history.placed.happensWithin_patience
    rw [free]
    rfl
  emptied after middle count last more persistent step :=
    history.emptied more persistent step
  last := by
    intro call count inCall isLast id ticket crash next step trace later run
    obtain ⟨call', count', rest, inCall', -, -, rfl⟩ := step.of_raised history.placed
    obtain ⟨rfl, -⟩ : call = call' ∧ count = count' := by
      rw [inCall] at inCall'
      cases inCall'
      exact ⟨rfl, rfl⟩
    apply (run.not_isTaking (.inl _)).2
    exact if_pos isLast

end Start

/-- Two of three jobs crash, and the owner begins to empty the pool three times. -/
theorem containsCrashes_unsteady :
    ∃ moments, Trace.events moments =
        [.sent ⟨0⟩ ['x'], .accepted ⟨0⟩ 7, .sent ⟨1⟩ [], .accepted ⟨1⟩ 8, .sent ⟨2⟩ ['y'],
          .accepted ⟨2⟩ 9, .began .runUntilIdle, .worked 0, .worked 0, .worked 0, .worked 0,
          .raised ⟨0⟩ 7 (.brokenContract (.truncatedFrame 0)), .began .runUntilIdle, .worked 0,
          .worked 0, .worked 0, .worked 0, .handled ⟨1⟩ 8 (.ofFailure .unknown), .worked 0,
          .worked 0, .worked 0, .worked 0, .raised ⟨2⟩ 9 (.brokenContract (.truncatedFrame 0)),
          .began .runUntilIdle, .returned .runUntilIdle 0] ∧
      ContainsCrashes unsteady 1 none moments
        ⟨⟨none, [], [.idle], [], [], [], 3⟩, .free, []⟩ := by
  have present : (0 : Nat) ∉ ([] : List Nat) := List.not_mem_nil
  have run : Run unsteady (start 1 none)
      [.sent ⟨0⟩ ['x'], .accepted ⟨0⟩ 7, .sent ⟨1⟩ [], .accepted ⟨1⟩ 8, .sent ⟨2⟩ ['y'],
        .accepted ⟨2⟩ 9, .began .runUntilIdle, .worked 0, .worked 0, .worked 0, .worked 0,
        .raised ⟨0⟩ 7 (.brokenContract (.truncatedFrame 0)), .began .runUntilIdle, .worked 0,
        .worked 0, .worked 0, .worked 0, .handled ⟨1⟩ 8 (.ofFailure .unknown), .worked 0,
        .worked 0, .worked 0, .worked 0, .raised ⟨2⟩ 9 (.brokenContract (.truncatedFrame 0)),
        .began .runUntilIdle, .returned .runUntilIdle 0]
      ⟨⟨none, [], [.idle], [], [], [], 3⟩, .free, []⟩ := by
    refine .cons (.send 7 (by decide) rfl) ?_
    refine .cons .accept ?_
    refine .cons (.send 8 (by decide) rfl) ?_
    refine .cons .accept ?_
    refine .cons (.send 9 (by decide) rfl) ?_
    refine .cons .accept ?_
    refine .cons .begin ?_
    refine .cons (.work present (Pool.not_mayLeave _ rfl _) rfl) ?_
    refine .cons (.work present (Pool.not_mayLeave _ rfl _) rfl) ?_
    refine .cons (.work present (Pool.not_mayLeave _ rfl _) rfl) ?_
    refine .cons (.work present (Pool.not_mayLeave _ rfl _) rfl) ?_
    refine .cons (.raise rfl rfl rfl) ?_
    refine .cons .begin ?_
    refine .cons (.work present (Pool.not_mayLeave _ rfl _) rfl) ?_
    refine .cons (.work present (Pool.not_mayLeave _ rfl _) rfl) ?_
    refine .cons (.work present (Pool.not_mayLeave _ rfl _) rfl) ?_
    refine .cons (.work present (Pool.not_mayLeave _ rfl _) rfl) ?_
    refine .cons (.handle rfl rfl) ?_
    refine .cons (.work present (Pool.not_mayLeave _ rfl _) rfl) ?_
    refine .cons (.work present (Pool.not_mayLeave _ rfl _) rfl) ?_
    refine .cons (.work present (Pool.not_mayLeave _ rfl _) rfl) ?_
    refine .cons (.work present (Pool.not_mayLeave _ rfl _) rfl) ?_
    refine .cons (.raise rfl rfl rfl) ?_
    refine .cons .begin ?_
    exact .cons (.comeBack rfl (.inl rfl)) .refl
  obtain ⟨moments, events, history⟩ := run.exists_history
  exact ⟨moments, events, history.containsCrashes⟩

end Session

end Sequencer
