import Sequencer.Pool.Basic

/-!
# The steps of workers

A worker takes the oldest waiting job, looks at its flag, compiles it, and hands the
completion back. Each of these is one step; between two steps anything else may
happen. Every step lessens the work that is left, so workers come to rest.
-/

namespace Sequencer

namespace Worker

/-- The steps that a worker has still to do, one of its owner's included. -/
def weight : Worker → Nat
  | .idle => 0
  | .holding _ => 4
  | .compiling _ => 3
  | .finished _ => 2

/-- The steps that workers have still to do. -/
def totalWeight : List Worker → Nat
  | [] => 0
  | worker :: rest => worker.weight + totalWeight rest

/-- Replacing a worker replaces its share in the steps. -/
theorem totalWeight_set {workers : List Worker} {index : Nat} {old : Worker} (new : Worker)
    (found : workers[index]? = some old) :
    totalWeight (workers.set index new) + old.weight = totalWeight workers + new.weight := by
  induction workers generalizing index with
  | nil => simp at found
  | cons first rest inductionHypothesis =>
      cases index with
      | zero =>
          simp only [List.getElem?_cons_zero, Option.some.injEq] at found
          subst found
          simp only [List.set_cons_zero, totalWeight]
          omega
      | succ index =>
          simp only [List.getElem?_cons_succ] at found
          have := inductionHypothesis found
          simp only [List.set_cons_succ, totalWeight]
          omega

/-- Whether a worker would compile one of the given jobs next. -/
def isHeld (held : List JobId) : Worker → Bool
  | .compiling task => held.contains task.id
  | _ => false

end Worker

namespace Pool

variable {τ : Type}

/-- A pool in which a worker does something else. -/
def setWorker (pool : Pool τ) (index : Nat) (worker : Worker) : Pool τ :=
  { pool with workers := pool.workers.set index worker }

/-- The pool after a step of a worker, if there is anything for it to do. -/
def advance? (backend : Backend) (pool : Pool τ) (index : Nat) : Option (Pool τ) :=
  match pool.workers[index]? with
  | none => none
  | some .idle =>
      match pool.queue with
      | [] => none
      | task :: queue => some ({ pool with queue }.setWorker index (.holding task))
  | some (.holding task) =>
      if pool.cancelled.contains task.id then
        some (pool.setWorker index (.finished ⟨task.id, .ok .cancelled⟩))
      else some (pool.setWorker index (.compiling task))
  | some (.compiling task) =>
      some (pool.setWorker index (.finished ⟨task.id, execute backend task.source⟩))
  | some (.finished completion) =>
      some ({ pool with completions := pool.completions ++ [completion] }.setWorker index .idle)

/-- The number of steps that are left for the jobs of a pool, until the last completion
is taken. -/
def work (pool : Pool τ) : Nat :=
  5 * pool.queue.length + Worker.totalWeight pool.workers + pool.completions.length

end Pool

namespace Pool

variable {τ : Type}

/-- Every step of a worker lessens the work that is left. -/
theorem work_lt_of_advance? {backend : Backend} {pool next : Pool τ} {index : Nat}
    (stepped : pool.advance? backend index = some next) : next.work < pool.work := by
  unfold advance? at stepped
  split at stepped
  · simp at stepped
  · rename_i found
    have shares := fun new => Worker.totalWeight_set new found
    split at stepped
    · simp at stepped
    · rename_i task queue waiting
      have share := shares (.holding task)
      simp only [Option.some.injEq] at stepped
      subst stepped
      simp only [work, setWorker, waiting, List.length_cons, Worker.weight] at share ⊢
      omega
  · rename_i task found
    have shares := fun new => Worker.totalWeight_set new found
    split at stepped
    · have share := shares (.finished ⟨task.id, .ok .cancelled⟩)
      simp only [Option.some.injEq] at stepped
      subst stepped
      simp only [work, setWorker, Worker.weight] at share ⊢
      omega
    · have share := shares (.compiling task)
      simp only [Option.some.injEq] at stepped
      subst stepped
      simp only [work, setWorker, Worker.weight] at share ⊢
      omega
  · rename_i task found
    have share := Worker.totalWeight_set
      (.finished ⟨task.id, execute backend task.source⟩) found
    simp only [Option.some.injEq] at stepped
    subst stepped
    simp only [work, setWorker, Worker.weight] at share ⊢
    omega
  · rename_i completion found
    have share := Worker.totalWeight_set .idle found
    simp only [Option.some.injEq] at stepped
    subst stepped
    simp only [work, setWorker, Worker.weight, List.length_append, List.length_cons,
      List.length_nil] at share ⊢
    omega

/-- The pool after the step of the first worker that has anything to do. Workers that
would compile one of the held jobs are passed over. -/
def advanceFirst? (backend : Backend) (held : List JobId) (pool : Pool τ) : Option (Pool τ) :=
  (List.range pool.workers.length).findSome? fun index =>
    if (pool.workers[index]?.map (·.isHeld held)).getD false then none
    else pool.advance? backend index

/-- A step of the first worker that has anything to do lessens the work that is left. -/
theorem work_lt_of_advanceFirst? {backend : Backend} {held : List JobId} {pool next : Pool τ}
    (stepped : pool.advanceFirst? backend held = some next) : next.work < pool.work := by
  obtain ⟨index, -, stepped⟩ := List.exists_of_findSome?_eq_some stepped
  split at stepped
  · simp at stepped
  · exact work_lt_of_advance? stepped

/-- Let the workers do all that they can, without compiling the held jobs. -/
def settle (backend : Backend) (held : List JobId) (pool : Pool τ) : Pool τ :=
  match _stepped : pool.advanceFirst? backend held with
  | none => pool
  | some next => next.settle backend held
termination_by pool.work
decreasing_by exact work_lt_of_advanceFirst? _stepped

/-- Letting the workers act leaves no more work than there was. -/
theorem work_settle_le (backend : Backend) (held : List JobId) (pool : Pool τ) :
    (pool.settle backend held).work ≤ pool.work := by
  fun_induction settle backend held pool with
  | case1 pool stepped => exact Nat.le_refl _
  | case2 pool next stepped inductionHypothesis =>
      exact Nat.le_trans inductionHypothesis (Nat.le_of_lt (work_lt_of_advanceFirst? stepped))

end Pool

end Sequencer
