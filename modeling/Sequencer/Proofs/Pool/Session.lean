import Sequencer.Pool.Completion

/-!
# Sessions of a pool

The owner of a pool and its workers act in any order. A session is a pool together with what its
owner is in the middle of and the workers that have left. It takes one small step at a time: a
submission is two steps, so that a worker may complete a job before it is pending, and a call that
takes completions is a step for each completion, with steps of the workers between them.

Every step has an event, and the events of a run are its trace.
-/

namespace Sequencer

/-! ## Calls and events -/

/-- A call of the owner in which completions are taken. -/
inductive Call where
  | poll
  | waitOne
  | runUntilIdle
  | shutDown
  | drop
  deriving DecidableEq, Repr

namespace Call

/-- Whether the pool ends with the call. -/
def isLast : Call → Bool
  | .shutDown | .drop => true
  | _ => false

/-- Whether the call takes another completion after it has taken some. -/
def wantsMore : Call → Nat → Bool
  | .waitOne, count => count = 0
  | _, _ => true

end Call

/-- What happens in one step. -/
inductive Event (τ : Type) where
  /-- A job was not accepted. -/
  | refused (ticket : τ) (refusal : Refusal)
  /-- A job was put into the queue. -/
  | sent (id : JobId) (source : List Char)
  /-- A job that was put into the queue became pending. -/
  | accepted (id : JobId) (ticket : τ)
  | cancelled (id : JobId) (wasPending : Bool)
  | began (call : Call)
  /-- The handler of a job was called. -/
  | handled (id : JobId) (ticket : τ) (outcome : Outcome)
  /-- A completion was taken of a job that is not pending. -/
  | unknown (id : JobId)
  /-- A crash was raised where a handler would have been called. -/
  | raised (id : JobId) (ticket : τ) (crash : Crash)
  /-- The pending jobs were given up because all workers had left. -/
  | deserted (jobs : List (JobId × τ))
  /-- The owner lets the workers go. -/
  | dismissed
  | returned (call : Call) (count : Nat)
  /-- The pool was dropped together with its pending jobs. -/
  | abandoned (jobs : List (JobId × τ))
  | worked (index : Nat)
  | left (index : Nat)

namespace Event

variable {τ : Type}

def accepted? : Event τ → Option (JobId × τ)
  | .accepted id ticket => some (id, ticket)
  | _ => none

def handled? : Event τ → Option (JobId × τ)
  | .handled id ticket _ => some (id, ticket)
  | _ => none

/-- The ticket and the outcome that an event hands out. -/
def delivered? : Event τ → Option (τ × Outcome)
  | .handled _ ticket outcome => some (ticket, outcome)
  | _ => none

def raised? : Event τ → Option (JobId × τ)
  | .raised id ticket _ => some (id, ticket)
  | _ => none

/-- The jobs that an event takes out of the pending ones without a call of their handlers. -/
def dropped : Event τ → List (JobId × τ)
  | .deserted jobs | .abandoned jobs => jobs
  | _ => []

/-- Whether an event may happen between the beginning and the end of a call. -/
def isInside : Event τ → Bool
  | .handled .. | .dismissed | .worked _ | .left _ => true
  | _ => false

end Event

/-! ## Traces -/

namespace Trace

variable {τ : Type}

/-- The accepted jobs in the order in which they became pending. -/
def accepted (trace : List (Event τ)) : List (JobId × τ) := trace.filterMap Event.accepted?

/-- The jobs whose handlers were called, in that order. -/
def handled (trace : List (Event τ)) : List (JobId × τ) := trace.filterMap Event.handled?

/-- The tickets and outcomes that were handed out, in that order. -/
def delivered (trace : List (Event τ)) : List (τ × Outcome) := trace.filterMap Event.delivered?

/-- The jobs whose crashes were raised. -/
def raised (trace : List (Event τ)) : List (JobId × τ) := trace.filterMap Event.raised?

/-- The jobs that were given up with the pool. -/
def dropped (trace : List (Event τ)) : List (JobId × τ) := trace.flatMap Event.dropped

end Trace

/-! ## Sessions -/

/-- What the owner of a pool is in the middle of. -/
inductive Stage (τ : Type) where
  /-- Nothing. -/
  | free
  /-- A submission whose job is in the queue and not yet pending. -/
  | registering (id : JobId) (ticket : τ)
  /-- A call that has taken a number of completions. -/
  | taking (call : Call) (count : Nat)
  /-- A call that waits for the workers to leave. -/
  | joining (call : Call) (count : Nat)
  /-- The end of a call that would have ended the pool and was broken off. -/
  | unwinding
  /-- The pool is gone. -/
  | ended

namespace Stage

variable {τ : Type}

/-- The job that is in the queue and not yet pending. -/
def sent : Stage τ → List (JobId × τ)
  | .registering id ticket => [(id, ticket)]
  | _ => []

/-- The call that the owner is in, and the number of completions that it has taken. -/
def call? : Stage τ → Option (Call × Nat)
  | .taking call count | .joining call count => some (call, count)
  | _ => none

/-- Whether workers that find the queue empty leave. -/
def isDismissed : Stage τ → Bool
  | .joining .. | .ended => true
  | _ => false

/-- Where the owner is when something was raised in a call. -/
def brokenOff (call : Call) : Stage τ := if call.isLast then .unwinding else .free

@[simp]
theorem sent_brokenOff (call : Call) : (brokenOff call : Stage τ).sent = [] := by
  unfold brokenOff
  split <;> rfl

@[simp]
theorem call?_brokenOff (call : Call) : (brokenOff call : Stage τ).call? = none := by
  unfold brokenOff
  split <;> rfl

end Stage

/-- A pool in use. -/
structure Session (τ : Type) where
  pool : Pool τ
  stage : Stage τ
  /-- The indices of the workers that have left. -/
  gone : List Nat

namespace Pool

variable {τ : Type}

/-- A pool in which a job waits that is not yet pending. -/
def send (pool : Pool τ) (source : List Char) : Pool τ :=
  { pool with queue := pool.queue ++ [⟨⟨pool.nextId⟩, source⟩], nextId := pool.nextId + 1 }

/-- A pool in which a job has become pending. -/
def register (pool : Pool τ) (id : JobId) (ticket : τ) : Pool τ :=
  { pool with pending := pool.pending ++ [(id, ticket)] }

/-- A pool without pending jobs. -/
def giveUp (pool : Pool τ) : Pool τ := { pool with pending := [] }

/-- All workers have left. -/
def IsDeserted (pool : Pool τ) (gone : List Nat) : Prop :=
  ∀ index < pool.workers.length, index ∈ gone

/-- A call that has taken a number of completions comes back with the pool as it is: nothing is
pending, or it waits for one completion and has it, or it does not wait and there is none. -/
def MayReturn (pool : Pool τ) (gone : List Nat) (call : Call) (count : Nat) : Prop :=
  pool.pending = [] ∨ call.wantsMore count = false ∨
    call = .poll ∧ pool.completions = [] ∧ ¬ pool.IsDeserted gone

instance (pool : Pool τ) (gone : List Nat) : Decidable (pool.IsDeserted gone) :=
  inferInstanceAs (Decidable (∀ index < pool.workers.length, index ∈ gone))

/-- A worker leaves when nobody can send it a job, or nobody can take its completion. -/
def MayLeave (pool : Pool τ) (stage : Stage τ) (index : Nat) : Prop :=
  (pool.workers[index]? = some .idle ∧ pool.queue = [] ∧ stage.isDismissed) ∨
    ((∃ completion, pool.workers[index]? = some (.finished completion)) ∧ stage = .ended)

/-- No worker leaves that has not been let go. -/
theorem not_mayLeave (pool : Pool τ) {stage : Stage τ} (kept : stage.isDismissed = false)
    (index : Nat) : ¬ pool.MayLeave stage index := by
  rintro (⟨-, -, dismissed⟩ | ⟨-, rfl⟩)
  · exact absurd dismissed (by simp [kept])
  · cases kept

end Pool

namespace Session

variable {τ : Type}

/-- The session of a new pool. -/
def start (workers : Nat) (bound : Option Nat) : Session τ := ⟨.start workers bound, .free, []⟩

/-- The jobs that have been sent and neither handled nor raised. -/
def live (session : Session τ) : List (JobId × τ) := session.pool.pending ++ session.stage.sent

/-- One step of the owner or of a worker. The owner is ready for a pool whose workers have left and
for completions of unknown jobs, though neither comes about. -/
inductive Step (backend : Backend) : Session τ → Event τ → Session τ → Prop where
  | refuse {pool gone ticket refusal} (source : List Char) (staffed : ¬ pool.IsDeserted gone)
      (refused : pool.submit source ticket = .error refusal) :
      Step backend ⟨pool, .free, gone⟩ (.refused ticket refusal) ⟨pool, .free, gone⟩
  | refuseDeserted {pool gone ticket} (empty : pool.IsDeserted gone) :
      Step backend ⟨pool, .free, gone⟩ (.refused ticket .shutDown) ⟨pool, .free, gone⟩
  | send {pool gone source} (ticket : τ) (staffed : ¬ pool.IsDeserted gone)
      (room : pool.isFull = false) :
      Step backend ⟨pool, .free, gone⟩ (.sent ⟨pool.nextId⟩ source)
        ⟨pool.send source, .registering ⟨pool.nextId⟩ ticket, gone⟩
  | accept {pool gone id ticket} :
      Step backend ⟨pool, .registering id ticket, gone⟩ (.accepted id ticket)
        ⟨pool.register id ticket, .free, gone⟩
  | cancel {pool gone id} :
      Step backend ⟨pool, .free, gone⟩ (.cancelled id (pool.cancel id).1)
        ⟨(pool.cancel id).2, .free, gone⟩
  | begin {pool gone call} :
      Step backend ⟨pool, .free, gone⟩ (.began call) ⟨pool, .taking call 0, gone⟩
  | handle {pool next gone call count id ticket outcome} (wants : call.wantsMore count)
      (taken : pool.takeOne? = some ⟨next, id, .ok (some (ticket, outcome))⟩) :
      Step backend ⟨pool, .taking call count, gone⟩ (.handled id ticket outcome)
        ⟨next, .taking call (count + 1), gone⟩
  /-- The handler that is called raises something itself. -/
  | handleBreaking {pool next gone call count id ticket outcome} (wants : call.wantsMore count)
      (taken : pool.takeOne? = some ⟨next, id, .ok (some (ticket, outcome))⟩) :
      Step backend ⟨pool, .taking call count, gone⟩ (.handled id ticket outcome)
        ⟨next, .brokenOff call, gone⟩
  | skip {pool next gone call count id} (wants : call.wantsMore count)
      (taken : pool.takeOne? = some ⟨next, id, .ok none⟩) :
      Step backend ⟨pool, .taking call count, gone⟩ (.unknown id)
        ⟨next, .taking call (count + 1), gone⟩
  | raise {pool next gone call count id ticket crash} (wants : call.wantsMore count)
      (taken : pool.takeOne? = some ⟨next, id, .error crash⟩)
      (known : pool.ticket? id = some ticket) :
      Step backend ⟨pool, .taking call count, gone⟩ (.raised id ticket crash)
        ⟨next, .brokenOff call, gone⟩
  | desert {pool gone call count} (wants : call.wantsMore count) (left : pool.pending ≠ [])
      (silent : pool.completions = []) (empty : pool.IsDeserted gone) :
      Step backend ⟨pool, .taking call count, gone⟩ (.deserted pool.pending)
        ⟨pool.giveUp, .taking call (count + pool.pending.length), gone⟩
  | comeBack {pool gone call count} (notLast : call.isLast = false)
      (done : pool.MayReturn gone call count) :
      Step backend ⟨pool, .taking call count, gone⟩ (.returned call count) ⟨pool, .free, gone⟩
  | dismiss {pool gone call count} (last : call.isLast) (done : pool.pending = []) :
      Step backend ⟨pool, .taking call count, gone⟩ .dismissed ⟨pool, .joining call count, gone⟩
  | finish {pool gone call count} (empty : pool.IsDeserted gone) :
      Step backend ⟨pool, .joining call count, gone⟩ (.returned call count) ⟨pool, .ended, gone⟩
  /-- The owner is unwound, in or out of a call, and nothing more is handled. -/
  | abandon {pool stage gone} (unwound : stage = .free ∨ stage = .unwinding) :
      Step backend ⟨pool, stage, gone⟩ (.abandoned pool.pending) ⟨pool.giveUp, .ended, gone⟩
  | work {pool next stage gone index} (present : index ∉ gone)
      (heard : ¬ pool.MayLeave stage index) (stepped : pool.advance? backend index = some next) :
      Step backend ⟨pool, stage, gone⟩ (.worked index) ⟨next, stage, gone⟩
  | leave {pool stage gone index} (present : index ∉ gone) (released : pool.MayLeave stage index) :
      Step backend ⟨pool, stage, gone⟩ (.left index) ⟨pool, stage, index :: gone⟩

/-- Steps one after the other, with their trace. -/
inductive Run (backend : Backend) (first : Session τ) : List (Event τ) → Session τ → Prop where
  | refl : Run backend first [] first
  | next {trace middle event last} (earlier : Run backend first trace middle)
      (step : Step backend middle event last) : Run backend first (trace ++ [event]) last

variable {backend : Backend}

theorem Run.trans {first middle last : Session τ} {earlier later : List (Event τ)}
    (run : Run backend first earlier middle) (rest : Run backend middle later last) :
    Run backend first (earlier ++ later) last := by
  induction rest with
  | refl =>
      rw [List.append_nil]
      exact run
  | next before step inductionHypothesis =>
      rw [← List.append_assoc]
      exact .next inductionHypothesis step

theorem Run.cons {first middle last : Session τ} {event : Event τ} {later : List (Event τ)}
    (step : Step backend first event middle) (rest : Run backend middle later last) :
    Run backend first (event :: later) last :=
  (Run.next .refl step).trans rest

/-- A run comes by every event of its trace. -/
theorem Run.exists_step {first last : Session τ} {before after : List (Event τ)} {event : Event τ}
    (run : Run backend first (before ++ event :: after) last) :
    ∃ middle next, Run backend first before middle ∧ Step backend middle event next := by
  generalize same : before ++ event :: after = trace at run
  induction run generalizing after with
  | refl => simp at same
  | @next trace middle final last earlier step inductionHypothesis =>
      rcases List.eq_nil_or_concat after with rfl | ⟨tail, other, rfl⟩
      · obtain ⟨rfl, sameEvent⟩ := List.append_inj' same rfl
        cases sameEvent
        exact ⟨middle, last, earlier, step⟩
      · rw [List.concat_eq_append, ← List.cons_append, ← List.append_assoc] at same
        exact inductionHypothesis (List.append_inj_left' same rfl)

end Session

end Sequencer
