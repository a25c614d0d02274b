import Sequencer.Job.Backend

/-!
# Worker pools

A pool compiles command lists on several workers. Its owner submits jobs, each with
a ticket that says what is to be done with the outcome, and takes completions. An
accepted job waits in the queue, is in the hands of a worker, or is completed; it is
pending in each of these places, and no longer when its completion has been taken.

Whoever owns the pool acts between the steps of the workers, in any order, so the
flag that cancels a job lies in the pool, where both sides see it.
-/

namespace Sequencer

/-- A job as it is handed to a worker. -/
structure Task where
  id : JobId
  source : List Char
  deriving DecidableEq, Repr, Inhabited

/-- What a worker hands back. -/
structure Completion where
  id : JobId
  result : Except Crash Outcome

/-- What a worker is doing. -/
inductive Worker where
  /-- Nothing. -/
  | idle
  /-- It has taken a job and has not yet looked whether it is cancelled. -/
  | holding (task : Task)
  /-- It has seen that the job is not cancelled. -/
  | compiling (task : Task)
  /-- It has a completion to hand back. -/
  | finished (completion : Completion)
  deriving Inhabited

/-- A pool whose jobs carry tickets of a type. -/
structure Pool (τ : Type) where
  /-- The number of jobs that may wait, if it is limited. -/
  bound : Option Nat
  /-- Accepted jobs that no worker has taken, the oldest first. -/
  queue : List Task
  workers : List Worker
  /-- Completions that have not been taken, the oldest first. -/
  completions : List Completion
  /-- The jobs whose completions have not been taken, with their tickets. -/
  pending : List (JobId × τ)
  /-- The jobs whose flag is set. -/
  cancelled : List JobId
  /-- The number of the next job. -/
  nextId : Nat

/-- Why a job is not accepted. -/
inductive Refusal where
  | queueFull (bound : Nat)
  | shutDown
  deriving DecidableEq, Repr

/-- The sentence that reports a refusal. -/
def Refusal.message : Refusal → String
  | .queueFull bound => s!"compile queue is full ({bound} jobs)"
  | .shutDown => "compile service is shut down"

namespace Pool

variable {τ : Type}

/-- A pool without jobs. It has one worker at least. -/
def start (workers : Nat) (bound : Option Nat) : Pool τ where
  bound := bound
  queue := []
  workers := List.replicate (max workers 1) .idle
  completions := []
  pending := []
  cancelled := []
  nextId := 0

/-- Whether as many jobs wait as the bound allows. One job may always wait. -/
def isFull (pool : Pool τ) : Bool :=
  match pool.bound with
  | none => false
  | some bound => max bound 1 ≤ pool.queue.length

/-- The number of pending jobs. -/
def pendingCount (pool : Pool τ) : Nat := pool.pending.length

/-- Whether a job is pending. -/
def isPending (pool : Pool τ) (id : JobId) : Bool := pool.pending.any (·.1 = id)

/-- Submit a job. A refused job leaves the pool as it is. -/
def submit (pool : Pool τ) (source : List Char) (ticket : τ) : Except Refusal (JobId × Pool τ) :=
  if pool.isFull then .error (.queueFull (pool.bound.getD 0))
  else
    let id : JobId := ⟨pool.nextId⟩
    .ok (id,
      { pool with
        queue := pool.queue ++ [⟨id, source⟩]
        pending := pool.pending ++ [(id, ticket)]
        nextId := pool.nextId + 1 })

/-- Set the flag of a job. The answer says whether the job was pending. -/
def cancel (pool : Pool τ) (id : JobId) : Bool × Pool τ :=
  if pool.isPending id then (true, { pool with cancelled := id :: pool.cancelled })
  else (false, pool)

end Pool

end Sequencer
