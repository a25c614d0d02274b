import Sequencer.Job.Delivery
import Sequencer.Pool.Completion

/-!
# Compiling many sources

A batch submits all its sources to one pool. When the queue is full it waits for a
completion and tries again. The results stand in the order of the sources, whatever
order the jobs were completed in.
-/

namespace Sequencer

/-- Why a batch comes to no result. -/
inductive BatchError where
  | refused (refusal : Refusal)
  | crashed (crash : Crash)
  /-- The source with this index has got no outcome. -/
  | unanswered (index : Nat)
  deriving DecidableEq, Repr

namespace Pool

/-- Submit a source, and take completions to make room for it as often as needed. -/
def submitWaiting {τ : Type} (backend : Backend) (pool : Pool τ) (source : List Char) (ticket : τ) :
    Except BatchError (Pool τ × List (τ × Outcome)) :=
  match pool.submit source ticket with
  | .ok (_, pool) => .ok (pool, [])
  | .error .shutDown => .error (.refused .shutDown)
  | .error (.queueFull bound) =>
      match _received : pool.waitOne? backend with
      | none => .error (.refused (.queueFull bound))
      | some receipt =>
          match receipt.answer with
          | .error crash => .error (.crashed crash)
          | .ok answer =>
              (receipt.pool.submitWaiting backend source ticket).map fun (pool, delivered) =>
                (pool, answer.toList ++ delivered)
termination_by pool.work
decreasing_by exact work_waitOne?_lt _received

/-- Submit sources, whose tickets are their indices, counted from `index`. -/
def submitAll (backend : Backend) (pool : Pool Nat) (index : Nat) :
    List (List Char) → Except BatchError (Pool Nat × List (Nat × Outcome))
  | [] => .ok (pool, [])
  | source :: rest =>
      match pool.submitWaiting backend source index with
      | .error error => .error error
      | .ok (pool, delivered) =>
          (submitAll backend pool (index + 1) rest).map fun (pool, more) =>
            (pool, delivered ++ more)

end Pool

namespace Batch

/-- The outcomes of sources, in the order of the sources. -/
def outcomes (delivered : List (Nat × Outcome)) (count : Nat) : Except BatchError (List Outcome) :=
  (List.range count).mapM fun index =>
    match delivered.lookup index with
    | none => .error (.unanswered index)
    | some outcome => .ok outcome

/-- Compile sources on a new pool. No more workers are started than there are sources, since
the others would have nothing to do. -/
def compile (backend : Backend) (workers : Nat) (bound : Option Nat)
    (sources : List (List Char)) : Except BatchError (List Outcome) := do
  let pool := Pool.start (min workers sources.length) bound
  let (pool, early) ← pool.submitAll backend 0 sources
  let drained := pool.shutDown backend
  match drained.crash with
  | some crash => .error (.crashed crash)
  | none => outcomes (early ++ drained.delivered) sources.length

end Batch

end Sequencer
