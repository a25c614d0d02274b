import Sequencer.Pool.Completion
import Mathlib.Data.List.Nodup
import Mathlib.Data.List.Perm.Subperm

/-!
# Where the jobs of a pool are

A job that has been sent is in the queue, in the hands of a worker, or completed, until its
completion is taken. Each operation of a pool is described by what it does to these places and to
the pending jobs.
-/

namespace Sequencer

/-! ## Workers -/

namespace Worker

/-- The job that a worker has in its hands. -/
def jobs : Worker → List JobId
  | .idle => []
  | .holding task | .compiling task => [task.id]
  | .finished completion => [completion.id]

/-- What a worker has a share in is its share and those of the others, whatever it does. -/
theorem exists_flatMap_set_perm {α : Type} (share : Worker → List α) {workers : List Worker}
    {index : Nat} {old : Worker} (found : workers[index]? = some old) :
    ∃ others, (workers.flatMap share).Perm (share old ++ others) ∧
      ∀ new, ((workers.set index new).flatMap share).Perm (share new ++ others) := by
  induction workers generalizing index with
  | nil => simp at found
  | cons first rest inductionHypothesis =>
      cases index with
      | zero =>
          rw [List.getElem?_cons_zero, Option.some.injEq] at found
          subst found
          refine ⟨rest.flatMap share, ?_, fun new => ?_⟩
          · rw [List.flatMap_cons]
          · rw [List.set_cons_zero, List.flatMap_cons]
      | succ index =>
          rw [List.getElem?_cons_succ] at found
          obtain ⟨others, before, after⟩ := inductionHypothesis found
          refine ⟨share first ++ others, ?_, fun new => ?_⟩
          · rw [List.flatMap_cons]
            exact (before.append_left _).trans (List.perm_append_comm_assoc _ _ _)
          · rw [List.set_cons_succ, List.flatMap_cons]
            exact ((after new).append_left _).trans (List.perm_append_comm_assoc _ _ _)

/-- Replacing a worker replaces its job. -/
theorem perm_flatMap_jobs_set {workers : List Worker} {index : Nat} {old : Worker} (new : Worker)
    (found : workers[index]? = some old) :
    (old.jobs ++ (workers.set index new).flatMap jobs).Perm
      (new.jobs ++ workers.flatMap jobs) := by
  obtain ⟨others, before, after⟩ := exists_flatMap_set_perm jobs found
  calc
    List.Perm (old.jobs ++ (workers.set index new).flatMap jobs)
        (old.jobs ++ (new.jobs ++ others)) := (after new).append_left _
    List.Perm _ (new.jobs ++ (old.jobs ++ others)) := List.perm_append_comm_assoc _ _ _
    List.Perm _ (new.jobs ++ workers.flatMap jobs) := before.symm.append_left _

end Worker

/-! ## Steps of workers -/

namespace Pool

variable {τ : Type}

/-- The steps of a worker of a pool, and the pools that they lead to: it takes the oldest waiting
job, heeds the flag of the job or compiles it, completes it, and hands the completion back. -/
inductive Works (backend : Backend) (pool : Pool τ) (index : Nat) : Pool τ → Prop where
  | take {task rest} (found : pool.workers[index]? = some .idle)
      (waiting : pool.queue = task :: rest) :
      Works backend pool index ({ pool with queue := rest }.setWorker index (.holding task))
  | heed {task} (found : pool.workers[index]? = some (.holding task))
      (flagged : task.id ∈ pool.cancelled) :
      Works backend pool index (pool.setWorker index (.finished ⟨task.id, .ok .cancelled⟩))
  | compile {task} (found : pool.workers[index]? = some (.holding task))
      (unflagged : task.id ∉ pool.cancelled) :
      Works backend pool index (pool.setWorker index (.compiling task))
  | complete {task} (found : pool.workers[index]? = some (.compiling task)) :
      Works backend pool index
        (pool.setWorker index (.finished ⟨task.id, execute backend task.source⟩))
  | handBack {completion} (found : pool.workers[index]? = some (.finished completion)) :
      Works backend pool index
        ({ pool with completions := pool.completions ++ [completion] }.setWorker index .idle)

theorem advance?_eq_some_iff {backend : Backend} {pool next : Pool τ} {index : Nat} :
    pool.advance? backend index = some next ↔ Works backend pool index next := by
  constructor
  · intro stepped
    unfold advance? at stepped
    split at stepped
    · contradiction
    · rename_i found
      split at stepped
      · contradiction
      · rename_i task rest waiting
        cases stepped
        exact .take found waiting
    · rename_i task found
      split at stepped
      · rename_i flagged
        cases stepped
        exact .heed found (List.contains_iff_mem.mp flagged)
      · rename_i unflagged
        cases stepped
        apply Works.compile found
        intro flagged
        exact unflagged (List.contains_iff_mem.mpr flagged)
    · rename_i task found
      cases stepped
      exact .complete found
    · rename_i completion found
      cases stepped
      exact .handBack found
  · intro works
    cases works with
    | take found waiting => simp [advance?, found, waiting]
    | heed found flagged => simp [advance?, found, flagged]
    | compile found unflagged => simp [advance?, found, unflagged]
    | complete found => simp [advance?, found]
    | handBack found => simp [advance?, found]

namespace Works

variable {backend : Backend} {pool next : Pool τ} {index : Nat}

/-- Workers leave the pending jobs alone. -/
theorem pending_eq (works : Works backend pool index next) : next.pending = pool.pending := by
  cases works <;> rfl

theorem nextId_eq (works : Works backend pool index next) : next.nextId = pool.nextId := by
  cases works <;> rfl

theorem cancelled_eq (works : Works backend pool index next) :
    next.cancelled = pool.cancelled := by
  cases works <;> rfl

theorem length_workers_eq (works : Works backend pool index next) :
    next.workers.length = pool.workers.length := by
  cases works <;> exact List.length_set

end Works

end Pool

/-! ## Places -/

namespace Pool

variable {τ : Type}

/-- The jobs in the queue, in the hands of workers, and completed. -/
def places (pool : Pool τ) : List JobId :=
  pool.queue.map Task.id ++
    (pool.workers.flatMap Worker.jobs ++ pool.completions.map Completion.id)

@[simp]
theorem places_start (workers : Nat) (bound : Option Nat) :
    (start workers bound : Pool τ).places = [] := by
  simp [start, places, Worker.jobs]

/-- A worker that does something else has another job in its hands. -/
theorem places_setWorker_perm (pool : Pool τ) {index : Nat} {old : Worker} (new : Worker)
    (found : pool.workers[index]? = some old) :
    (old.jobs ++ (pool.setWorker index new).places).Perm (new.jobs ++ pool.places) := by
  have moved := Worker.perm_flatMap_jobs_set new found
  rw [List.perm_iff_count] at moved ⊢
  intro id
  have movedId := moved id
  simp only [places, setWorker, List.count_append] at movedId ⊢
  omega

/-- A worker that keeps its job leaves the job where it is. -/
theorem places_setWorker_perm_of_eq (pool : Pool τ) {index : Nat} {old new : Worker}
    (found : pool.workers[index]? = some old) (same : old.jobs = new.jobs) :
    (pool.setWorker index new).places.Perm pool.places := by
  have moved := places_setWorker_perm pool new found
  rw [same] at moved
  exact (List.perm_append_left_iff _).mp moved

/-- A step of a worker moves a job from one place to another. -/
theorem Works.places_perm {backend : Backend} {pool next : Pool τ} {index : Nat}
    (works : Works backend pool index next) : next.places.Perm pool.places := by
  cases works with
  | @take task rest found waiting =>
      have moved := places_setWorker_perm { pool with queue := rest } (.holding task) found
      have taken : pool.places = task.id :: { pool with queue := rest : Pool τ }.places := by
        rw [places, waiting]
        rfl
      rw [taken]
      exact moved
  | heed found flagged => exact places_setWorker_perm_of_eq pool found rfl
  | compile found unflagged => exact places_setWorker_perm_of_eq pool found rfl
  | complete found => exact places_setWorker_perm_of_eq pool found rfl
  | @handBack completion found =>
      have moved := places_setWorker_perm
        { pool with completions := pool.completions ++ [completion] } .idle found
      have handed : { pool with completions := pool.completions ++ [completion] : Pool τ }.places =
          pool.places ++ [completion.id] := by
        simp [places]
      rw [handed] at moved
      exact (moved.trans (List.perm_append_singleton _ _)).cons_inv

/-! ## Completions -/

/-- A completion can be taken while a job is pending, and is the oldest one. -/
theorem takeOne?_eq_some_iff {pool : Pool τ} {receipt : Receipt τ} :
    pool.takeOne? = some receipt ↔ pool.pending ≠ [] ∧
      ∃ completion rest, pool.completions = completion :: rest ∧
        receipt = ⟨{ pool with completions := rest }.release completion.id, completion.id,
          match pool.ticket? completion.id with
          | none => .ok none
          | some ticket => completion.result.map fun outcome => some (ticket, outcome)⟩ := by
  unfold takeOne? receive?
  cases left : pool.pending with
  | nil => simp
  | cons job others =>
      cases completed : pool.completions with
      | nil => simp
      | cons completion rest =>
          rw [if_neg (by simp), Option.some.injEq]
          constructor
          · intro same
            exact ⟨by simp, completion, rest, rfl, same.symm⟩
          · rintro ⟨-, _, _, same, rfl⟩
            cases same
            rfl

/-- What is handed out for a completion is its result. -/
theorem exists_completion_of_takeOne? {pool : Pool τ} {receipt : Receipt τ}
    (taken : pool.takeOne? = some receipt) :
    ∃ completion rest, pool.completions = completion :: rest ∧ receipt.id = completion.id ∧
      receipt.pool = { pool with completions := rest }.release completion.id ∧
      (∀ ticket outcome, receipt.answer = .ok (some (ticket, outcome)) →
        completion.result = .ok outcome) ∧
      ∀ crash, receipt.answer = .error crash → completion.result = .error crash := by
  rcases takeOne?_eq_some_iff.mp taken with ⟨-, completion, rest, completed, rfl⟩
  refine ⟨completion, rest, completed, rfl, rfl, ?_, ?_⟩
  · intro ticket outcome answer
    cases known : pool.ticket? completion.id <;> cases result : completion.result <;>
      simp_all [Except.map]
  · intro crash answer
    cases known : pool.ticket? completion.id <;> cases result : completion.result <;>
      simp_all [Except.map]

/-- With a completion its job leaves its place and the pending jobs. -/
theorem places_perm_of_takeOne? {pool : Pool τ} {receipt : Receipt τ}
    (taken : pool.takeOne? = some receipt) :
    pool.places.Perm (receipt.id :: receipt.pool.places) := by
  rcases takeOne?_eq_some_iff.mp taken with ⟨-, completion, rest, completed, rfl⟩
  rw [places, completed, List.map_cons, ← List.append_assoc]
  apply List.perm_middle.trans
  rw [List.append_assoc]
  rfl

theorem pending_of_takeOne? {pool : Pool τ} {receipt : Receipt τ}
    (taken : pool.takeOne? = some receipt) :
    receipt.pool.pending = (pool.release receipt.id).pending := by
  rcases takeOne?_eq_some_iff.mp taken with ⟨-, completion, rest, completed, rfl⟩
  rfl

theorem nextId_of_takeOne? {pool : Pool τ} {receipt : Receipt τ}
    (taken : pool.takeOne? = some receipt) : receipt.pool.nextId = pool.nextId := by
  rcases takeOne?_eq_some_iff.mp taken with ⟨-, completion, rest, completed, rfl⟩
  rfl

theorem workers_of_takeOne? {pool : Pool τ} {receipt : Receipt τ}
    (taken : pool.takeOne? = some receipt) : receipt.pool.workers = pool.workers := by
  rcases takeOne?_eq_some_iff.mp taken with ⟨-, completion, rest, completed, rfl⟩
  rfl

theorem cancelled_of_takeOne? {pool : Pool τ} {receipt : Receipt τ}
    (taken : pool.takeOne? = some receipt) : receipt.pool.cancelled = pool.cancelled := by
  rcases takeOne?_eq_some_iff.mp taken with ⟨-, completion, rest, completed, rfl⟩
  rfl

/-- What is handed out for a job goes to its own ticket. -/
theorem ticket?_of_answer {pool : Pool τ} {receipt : Receipt τ} {ticket : τ} {outcome : Outcome}
    (taken : pool.takeOne? = some receipt)
    (answer : receipt.answer = .ok (some (ticket, outcome))) :
    pool.ticket? receipt.id = some ticket := by
  rcases takeOne?_eq_some_iff.mp taken with ⟨-, completion, rest, completed, rfl⟩
  cases known : pool.ticket? completion.id with
  | none => simp [known] at answer
  | some own =>
      cases result : completion.result with
      | error crash => simp [known, result, Except.map] at answer
      | ok value =>
          simp only [known, result, Except.map, Except.ok.injEq, Option.some.injEq,
            Prod.mk.injEq] at answer
          rw [answer.1]

/-- Nothing is handed out only for a job that is not pending. -/
theorem ticket?_of_no_answer {pool : Pool τ} {receipt : Receipt τ}
    (taken : pool.takeOne? = some receipt) (answer : receipt.answer = .ok none) :
    pool.ticket? receipt.id = none := by
  rcases takeOne?_eq_some_iff.mp taken with ⟨-, completion, rest, completed, rfl⟩
  cases known : pool.ticket? completion.id with
  | none => rfl
  | some own =>
      cases result : completion.result with
      | error crash => simp [known, result, Except.map] at answer
      | ok value => simp [known, result, Except.map] at answer

/-- A job with a ticket is pending with it. -/
theorem mem_pending_of_ticket? {pool : Pool τ} {id : JobId} {ticket : τ}
    (known : pool.ticket? id = some ticket) : (id, ticket) ∈ pool.pending := by
  rcases Option.map_eq_some_iff.mp known with ⟨⟨other, _⟩, found, rfl⟩
  have same : other = id := by simpa using List.find?_some found
  exact same ▸ List.mem_of_find?_eq_some found

/-- A pending job has a ticket. -/
theorem exists_ticket?_of_mem {pool : Pool τ} {id : JobId}
    (pending : id ∈ pool.pending.map Prod.fst) : ∃ ticket, pool.ticket? id = some ticket := by
  rcases List.mem_map.mp pending with ⟨job, inside, rfl⟩
  have found : (pool.pending.find? (·.1 = job.1)).isSome :=
    List.find?_isSome.mpr ⟨job, inside, by simp⟩
  rcases Option.isSome_iff_exists.mp found with ⟨other, same⟩
  exact ⟨other.2, congrArg (Option.map Prod.snd) same⟩

/-- Where no job is pending twice, releasing one takes it out of the pending jobs. -/
theorem perm_cons_release {pool : Pool τ} {id : JobId} {ticket : τ}
    (once : (pool.pending.map Prod.fst).Nodup) (pending : (id, ticket) ∈ pool.pending) :
    pool.pending.Perm ((id, ticket) :: (pool.release id).pending) := by
  have kept : ((pool.release id).pending).Nodup := (List.Nodup.of_map _ once).filter _
  have apart : (id, ticket) ∉ (pool.release id).pending := by simp [release]
  rw [List.perm_ext_iff_of_nodup (List.Nodup.of_map _ once) (List.nodup_cons.mpr ⟨apart, kept⟩)]
  intro job
  simp only [release, List.mem_cons, List.mem_filter, decide_eq_true_eq]
  constructor
  · intro inside
    by_cases same : job.1 = id
    · exact .inl (List.inj_on_of_nodup_map once inside pending same)
    · exact .inr ⟨inside, same⟩
  · rintro (rfl | ⟨inside, -⟩)
    · exact pending
    · exact inside

end Pool

end Sequencer
