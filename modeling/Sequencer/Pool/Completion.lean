import Sequencer.Pool.Progress

/-!
# Taking completions

The owner of a pool takes completions one at a time, the oldest first. With its
completion a job leaves the pending jobs, and its ticket and its outcome are handed
out. A crash is handed out as a crash: the job has left the pending jobs, its ticket
is not used, and whatever was being done to the pool ends there.
-/

namespace Sequencer

/-- What the owner of a pool gets for one completion. -/
structure Receipt (τ : Type) where
  pool : Pool τ
  id : JobId
  /-- The ticket and the outcome. There is nothing to hand out for a job that is not
  pending. -/
  answer : Except Crash (Option (τ × Outcome))

/-- What the owner of a pool gets for several completions. -/
structure Drained (τ : Type) where
  pool : Pool τ
  /-- The number of completions taken, without one that crashed. -/
  count : Nat
  /-- Tickets and outcomes in the order in which they are handed out. -/
  delivered : List (τ × Outcome)
  /-- The crash that ended it. -/
  crash : Option Crash

namespace Pool

variable {τ : Type}

/-- The ticket of a pending job. -/
def ticket? (pool : Pool τ) (id : JobId) : Option τ :=
  (pool.pending.find? (·.1 = id)).map (·.2)

/-- A pool in which a job is pending no longer. -/
def release (pool : Pool τ) (id : JobId) : Pool τ :=
  { pool with pending := pool.pending.filter (·.1 ≠ id) }

/-- Take the oldest completion. -/
def receive? (pool : Pool τ) : Option (Receipt τ) :=
  match pool.completions with
  | [] => none
  | completion :: rest =>
      let taken := { pool with completions := rest }
      some
        { pool := taken.release completion.id
          id := completion.id
          answer :=
            match pool.ticket? completion.id with
            | none => .ok none
            | some ticket => completion.result.map fun outcome => some (ticket, outcome) }

/-- A completion taken is one step less. -/
theorem work_receive?_lt {pool : Pool τ} {receipt : Receipt τ}
    (received : pool.receive? = some receipt) : receipt.pool.work < pool.work := by
  unfold receive? at received
  split at received
  · simp at received
  · rename_i completion rest completed
    simp only [Option.some.injEq] at received
    subst received
    simp [work, release, completed]

/-- A completion taken leaves one less. -/
theorem length_completions_receive?_lt {pool : Pool τ} {receipt : Receipt τ}
    (received : pool.receive? = some receipt) :
    receipt.pool.completions.length < pool.completions.length := by
  unfold receive? at received
  split at received
  · simp at received
  · rename_i completion rest completed
    simp only [Option.some.injEq] at received
    subst received
    simp [release, completed]

/-- Take one completion, if a job is pending and completed. -/
def takeOne? (pool : Pool τ) : Option (Receipt τ) :=
  if pool.pending.isEmpty then none else pool.receive?

/-- Take completions as long as jobs are pending and completed, or up to a crash. -/
def drain (pool : Pool τ) : Drained τ :=
  match _received : pool.takeOne? with
  | none => { pool, count := 0, delivered := [], crash := none }
  | some receipt =>
      match receipt.answer with
      | .error crash => { pool := receipt.pool, count := 0, delivered := [], crash := some crash }
      | .ok answer =>
          let more := receipt.pool.drain
          { more with count := more.count + 1, delivered := answer.toList ++ more.delivered }
termination_by pool.completions.length
decreasing_by
  unfold takeOne? at _received
  split at _received
  · simp at _received
  · exact length_completions_receive?_lt _received

/-- Let the workers come to rest and take one completion. -/
def waitOne? (backend : Backend) (pool : Pool τ) : Option (Receipt τ) :=
  (pool.settle backend []).takeOne?

/-- Waiting for a completion lessens the work that is left. -/
theorem work_waitOne?_lt {backend : Backend} {pool : Pool τ} {receipt : Receipt τ}
    (received : pool.waitOne? backend = some receipt) : receipt.pool.work < pool.work := by
  unfold waitOne? takeOne? at received
  split at received
  · simp at received
  · exact Nat.lt_of_lt_of_le (work_receive?_lt received) (work_settle_le backend [] pool)

/-- Let the workers come to rest and take all completions. -/
def runUntilIdle (backend : Backend) (pool : Pool τ) : Drained τ :=
  (pool.settle backend []).drain

/-- Run a pool for the last time. Jobs that are pending behind a crash are lost. -/
def shutDown (backend : Backend) (pool : Pool τ) : Drained τ :=
  let drained := pool.runUntilIdle backend
  { drained with pool := { drained.pool with pending := [] } }

end Pool

end Sequencer
