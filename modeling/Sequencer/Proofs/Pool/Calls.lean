import Sequencer.Proofs.Pool.Delivery

/-!
# Calls as runs

The functions that run a pool let the owner and the workers act in one particular order. Each is a
run of a session, so what holds of all runs holds of them, and what they hand out is what the trace
of the run hands out. When nothing is raised, running a pool until it is idle leaves no job pending.
-/

namespace Sequencer

variable {τ : Type} (backend : Backend)

@[simp]
theorem Trace.delivered_append (first last : List (Event τ)) :
    delivered (first ++ last) = delivered first ++ delivered last :=
  List.filterMap_append

theorem Trace.delivered_append_of_silent (trace : List (Event τ)) {event : Event τ}
    (silent : event.delivered? = none) : delivered (trace ++ [event]) = delivered trace := by
  simp [delivered, silent]

/-! ## Submitting -/

/-- A submission is accepted when there is room, and the job is then the last one in the queue and
among the pending ones. -/
theorem Pool.submit_eq_ok_iff {pool next : Pool τ} {source : List Char} {ticket : τ} {id : JobId} :
    pool.submit source ticket = .ok (id, next) ↔
      pool.isFull = false ∧ id = ⟨pool.nextId⟩ ∧ next = (pool.send source).register id ticket := by
  unfold submit
  cases pool.isFull with
  | true => simp
  | false =>
      rw [if_neg Bool.false_ne_true, Except.ok.injEq, Prod.mk.injEq]
      constructor
      · rintro ⟨rfl, rfl⟩
        exact ⟨rfl, rfl, rfl⟩
      · rintro ⟨-, rfl, rfl⟩
        exact ⟨rfl, rfl⟩

namespace Session

/-- An accepted submission is two steps. -/
theorem run_submit {pool next : Pool τ} {gone : List Nat} {source : List Char} {ticket : τ}
    {id : JobId} (staffed : ¬ pool.IsDeserted gone)
    (submitted : pool.submit source ticket = .ok (id, next)) :
    Run backend ⟨pool, .free, gone⟩ [.sent id source, .accepted id ticket] ⟨next, .free, gone⟩ := by
  obtain ⟨room, rfl, rfl⟩ := Pool.submit_eq_ok_iff.mp submitted
  exact .cons (.send ticket staffed room) (.cons .accept .refl)

/-! ## Settling -/

/-- Letting the workers act is a run of their steps. -/
theorem run_settle (held : List JobId) (pool : Pool τ) (stage : Stage τ)
    (kept : stage.isDismissed = false) :
    ∃ trace, (∀ event ∈ trace, ∃ index, event = .worked index) ∧
      Run backend ⟨pool, stage, []⟩ trace ⟨pool.settle backend held, stage, []⟩ := by
  fun_induction Pool.settle backend held pool with
  | case1 pool stopped => exact ⟨[], by simp, .refl⟩
  | case2 pool next stepped inductionHypothesis =>
      obtain ⟨index, -, advanced⟩ := List.exists_of_findSome?_eq_some stepped
      split at advanced
      · cases advanced
      · rcases inductionHypothesis with ⟨trace, worked, run⟩
        have first : Step backend ⟨pool, stage, []⟩ (.worked index) ⟨next, stage, []⟩ :=
          .work List.not_mem_nil (pool.not_mayLeave kept index) advanced
        refine ⟨.worked index :: trace, ?_, .cons first run⟩
        intro event happened
        rcases List.mem_cons.mp happened with rfl | later
        · exact ⟨index, rfl⟩
        · exact worked event later

/-- Workers hand out nothing. -/
theorem delivered_of_worked {trace : List (Event τ)}
    (worked : ∀ event ∈ trace, ∃ index, event = .worked index) : Trace.delivered trace = [] := by
  apply List.filterMap_eq_nil_iff.mpr
  intro event happened
  obtain ⟨index, rfl⟩ := worked event happened
  rfl

/-! ## Draining -/

/-- Where the owner is after taking completions. -/
def afterDrain (call : Call) (count : Nat) (drained : Drained τ) : Stage τ :=
  match drained.crash with
  | none => .taking call (count + drained.count)
  | some _ => .brokenOff call

/-- A completion taken before the others is counted with them. -/
theorem afterDrain_next (call : Call) (count : Nat) (drained : Drained τ)
    (delivered : List (τ × Outcome)) :
    afterDrain call count { drained with count := drained.count + 1, delivered } =
      afterDrain call (count + 1) drained := by
  unfold afterDrain
  cases drained.crash with
  | none => simp [Nat.add_assoc, Nat.add_comm 1]
  | some crash => rfl

/-- A completion that comes with a crash is that of a pending job. -/
theorem exists_ticket?_of_crash {pool : Pool τ} {receipt : Receipt τ} {crash : Crash}
    (taken : pool.takeOne? = some receipt) (answer : receipt.answer = .error crash) :
    ∃ ticket, pool.ticket? receipt.id = some ticket := by
  rcases Pool.takeOne?_eq_some_iff.mp taken with ⟨-, completion, rest, completed, rfl⟩
  cases known : pool.ticket? completion.id with
  | none => simp [known] at answer
  | some ticket => exact ⟨ticket, rfl⟩

/-- Taking completions is a run that hands out the same. -/
theorem run_drain (pool : Pool τ) (call : Call) (wants : ∀ count, call.wantsMore count)
    (count : Nat) (gone : List Nat) :
    ∃ trace, Trace.delivered trace = pool.drain.delivered ∧
      Run backend ⟨pool, .taking call count, gone⟩ trace
        ⟨pool.drain.pool, afterDrain call count pool.drain, gone⟩ := by
  fun_induction Pool.drain pool generalizing count with
  | case1 pool stopped => exact ⟨[], rfl, .refl⟩
  | case2 pool receipt taken crash answer =>
      rcases receipt with ⟨next, id, result⟩
      cases answer
      obtain ⟨ticket, known⟩ := exists_ticket?_of_crash taken rfl
      exact ⟨[.raised id ticket crash], rfl, .cons (.raise (wants count) taken known) .refl⟩
  | case3 pool receipt taken given answer more inductionHypothesis =>
      rcases receipt with ⟨next, id, result⟩
      cases answer
      rcases inductionHypothesis (count + 1) with ⟨trace, delivered, run⟩
      cases given with
      | none =>
          rw [afterDrain_next]
          exact ⟨.unknown id :: trace, delivered, .cons (.skip (wants count) taken) run⟩
      | some given =>
          rcases given with ⟨ticket, outcome⟩
          rw [afterDrain_next]
          refine ⟨.handled id ticket outcome :: trace, ?_, .cons (.handle (wants count) taken) run⟩
          exact congrArg ((ticket, outcome) :: ·) delivered

end Session

/-! ## Workers at rest -/

namespace Pool

variable {backend}

/-- Nothing is left for the workers to do. -/
structure AtRest (pool : Pool τ) : Prop where
  queue : pool.queue = []
  workers : ∀ worker ∈ pool.workers, worker = .idle

/-- Workers that cannot do a step are at rest. -/
theorem atRest_of_advance? {pool : Pool τ} (staffed : pool.workers ≠ [])
    (stopped : ∀ index, pool.advance? backend index = none) : pool.AtRest := by
  have stuck : ∀ index next, ¬ pool.Works backend index next := by
    intro index next works
    rw [← advance?_eq_some_iff, stopped] at works
    cases works
  have idle : ∀ worker ∈ pool.workers, worker = .idle := by
    intro worker inside
    obtain ⟨index, found⟩ := List.getElem?_of_mem inside
    cases worker with
    | idle => rfl
    | holding task =>
        by_cases flagged : task.id ∈ pool.cancelled
        · exact (stuck _ _ (.heed found flagged)).elim
        · exact (stuck _ _ (.compile found flagged)).elim
    | compiling task => exact (stuck _ _ (.complete found)).elim
    | finished completion => exact (stuck _ _ (.handBack found)).elim
  refine ⟨?_, idle⟩
  cases waiting : pool.queue with
  | nil => rfl
  | cons task rest =>
      have first := List.getElem?_eq_getElem (List.length_pos_iff.mpr staffed)
      rw [idle _ (List.getElem_mem _)] at first
      exact (stuck _ _ (.take first waiting)).elim

/-- Letting the workers act goes on until none of them can do a step. -/
theorem advanceFirst?_settle (held : List JobId) (pool : Pool τ) :
    (pool.settle backend held).advanceFirst? backend held = none := by
  fun_induction settle backend held pool with
  | case1 pool stopped => exact stopped
  | case2 pool next stepped inductionHypothesis => exact inductionHypothesis

theorem advance?_eq_none_of_advanceFirst? {pool : Pool τ}
    (stopped : pool.advanceFirst? backend [] = none) (index : Nat) :
    pool.advance? backend index = none := by
  by_cases inside : index < pool.workers.length
  · have none_steps := List.findSome?_eq_none_iff.mp stopped index (List.mem_range.mpr inside)
    have not_held : ∀ worker : Worker, worker.isHeld [] = false := by
      intro worker
      cases worker <;> rfl
    rw [List.getElem?_eq_getElem inside, Option.map_some, not_held] at none_steps
    exact none_steps
  · rw [advance?, List.getElem?_eq_none (Nat.le_of_not_lt inside)]

theorem atRest_settle {pool : Pool τ} (staffed : (pool.settle backend []).workers ≠ []) :
    (pool.settle backend []).AtRest :=
  atRest_of_advance? staffed
    (advance?_eq_none_of_advanceFirst? (advanceFirst?_settle [] pool))

theorem AtRest.places_eq {pool : Pool τ} (rest : pool.AtRest) :
    pool.places = pool.completions.map Completion.id := by
  have empty_handed : pool.workers.flatMap Worker.jobs = [] := by
    rw [List.flatMap_eq_nil_iff]
    intro worker inside
    rw [rest.workers worker inside, Worker.jobs]
  rw [places, rest.queue, empty_handed]
  rfl

theorem AtRest.drain {pool : Pool τ} (rest : pool.AtRest) : pool.drain.pool.AtRest := by
  fun_induction Pool.drain pool with
  | case1 pool stopped => exact rest
  | case2 pool receipt taken crash answer =>
      rcases takeOne?_eq_some_iff.mp taken with ⟨-, completion, others, -, rfl⟩
      exact ⟨rest.queue, rest.workers⟩
  | case3 pool receipt taken given answer more inductionHypothesis =>
      apply inductionHypothesis
      rcases takeOne?_eq_some_iff.mp taken with ⟨-, completion, others, -, rfl⟩
      exact ⟨rest.queue, rest.workers⟩

/-- Without a crash, completions are taken as long as that can be done. -/
theorem takeOne?_drain {pool : Pool τ} (calm : pool.drain.crash = none) :
    pool.drain.pool.takeOne? = none := by
  fun_induction Pool.drain pool with
  | case1 pool stopped => exact stopped
  | case2 pool receipt taken crash answer => cases calm
  | case3 pool receipt taken given answer more inductionHypothesis =>
      exact inductionHypothesis calm

theorem takeOne?_eq_none_iff {pool : Pool τ} :
    pool.takeOne? = none ↔ pool.pending = [] ∨ pool.completions = [] := by
  unfold takeOne? receive?
  cases pool.pending with
  | nil => simp
  | cons job others => cases pool.completions <;> simp

end Pool

/-! ## Running until idle -/

namespace Session

/-- When no more can be taken and the workers are at rest, nothing is pending. -/
theorem Placed.pending_eq_nil {pool : Pool τ} {call : Call} {count : Nat} {gone : List Nat}
    (placed : Placed ⟨pool, .taking call count, gone⟩) (rest : pool.AtRest)
    (stopped : pool.takeOne? = none) : pool.pending = [] := by
  rcases Pool.takeOne?_eq_none_iff.mp stopped with none_pending | none_completed
  · exact none_pending
  · have places := placed.places nofun
    rw [rest.places_eq, none_completed] at places
    simpa [live, Stage.sent] using places.symm.eq_nil

/-- A call that waits for all completions is a run up to the last one that it takes. -/
theorem run_emptying (pool : Pool τ) (call : Call) (wants : ∀ count, call.wantsMore count) :
    ∃ trace, Trace.delivered trace = (pool.runUntilIdle backend).delivered ∧
      Run backend ⟨pool, .free, []⟩ trace
        ⟨(pool.runUntilIdle backend).pool, afterDrain call 0 (pool.runUntilIdle backend), []⟩ := by
  obtain ⟨settling, worked, settled⟩ := run_settle backend [] pool (.taking call 0) rfl
  obtain ⟨draining, delivered, drained⟩ :=
    run_drain backend (pool.settle backend []) call wants 0 []
  have none_delivered := delivered_of_worked worked
  refine ⟨.began call :: (settling ++ draining), ?_, .cons .begin (settled.trans drained)⟩
  calc
    Trace.delivered (.began call :: (settling ++ draining)) =
        Trace.delivered settling ++ Trace.delivered draining := Trace.delivered_append _ _
    _ = (pool.runUntilIdle backend).delivered := by
        rw [none_delivered, delivered]
        rfl

theorem afterDrain_of_calm {call : Call} {count : Nat} {drained : Drained τ}
    (calm : drained.crash = none) :
    afterDrain call count drained = .taking call (count + drained.count) := by
  rw [afterDrain, calm]

/-- The workers are at rest afterwards. -/
theorem Placed.atRest_runUntilIdle {pool : Pool τ} (placed : Placed ⟨pool, .free, []⟩) :
    (pool.runUntilIdle backend).pool.AtRest := by
  obtain ⟨settling, -, settled⟩ := run_settle backend [] pool .free rfl
  exact (Pool.atRest_settle (settled.placed placed).staffed).drain

/-- Without a crash nothing is pending afterwards. -/
theorem Placed.pending_runUntilIdle {pool : Pool τ} (placed : Placed ⟨pool, .free, []⟩)
    (calm : (pool.runUntilIdle backend).crash = none) :
    (pool.runUntilIdle backend).pool.pending = [] := by
  obtain ⟨trace, -, run⟩ := run_emptying backend pool .runUntilIdle fun _ => rfl
  rw [afterDrain_of_calm calm] at run
  exact (run.placed placed).pending_eq_nil (placed.atRest_runUntilIdle backend)
    (Pool.takeOne?_drain calm)

variable {backend}

/-- A call that has taken its completions comes back unless something was raised. -/
theorem Run.comeBack {first : Session τ} {trace : List (Event τ)} {call : Call}
    {drained : Drained τ}
    (run : Run backend first trace ⟨drained.pool, afterDrain call 0 drained, []⟩)
    (notLast : call.isLast = false)
    (done : drained.crash = none → drained.pool.MayReturn [] call drained.count) :
    ∃ whole, Trace.delivered whole = Trace.delivered trace ∧
      Run backend first whole ⟨drained.pool, .free, []⟩ ∧
      (drained.crash = none → ∃ earlier, whole = earlier ++ [.returned call drained.count]) := by
  cases ended : drained.crash with
  | some crash =>
      rw [afterDrain, ended] at run
      simp only [Stage.brokenOff, notLast] at run
      exact ⟨trace, rfl, run, nofun⟩
  | none =>
      rw [afterDrain_of_calm ended, Nat.zero_add] at run
      exact ⟨trace ++ [.returned call drained.count], Trace.delivered_append_of_silent trace rfl,
        .next run (.comeBack notLast (done ended)), fun _ => ⟨trace, rfl⟩⟩

variable (backend)

/-- Running a pool until it is idle is a run, which comes back unless something is raised. -/
theorem Placed.run_runUntilIdle {pool : Pool τ} (placed : Placed ⟨pool, .free, []⟩) :
    ∃ trace, Trace.delivered trace = (pool.runUntilIdle backend).delivered ∧
      Run backend ⟨pool, .free, []⟩ trace ⟨(pool.runUntilIdle backend).pool, .free, []⟩ ∧
      ((pool.runUntilIdle backend).crash = none →
        ∃ earlier, trace = earlier ++
          [.returned .runUntilIdle (pool.runUntilIdle backend).count]) := by
  obtain ⟨trace, delivered, run⟩ := run_emptying backend pool .runUntilIdle fun _ => rfl
  rw [← delivered]
  apply run.comeBack rfl
  intro calm
  exact .inl (placed.pending_runUntilIdle backend calm)

/-- Taking the completions that there are is a run of a poll. -/
theorem Placed.run_drain {pool : Pool τ} (placed : Placed ⟨pool, .free, []⟩) :
    ∃ trace, Trace.delivered trace = pool.drain.delivered ∧
      Run backend ⟨pool, .free, []⟩ trace ⟨pool.drain.pool, .free, []⟩ ∧
      (pool.drain.crash = none →
        ∃ earlier, trace = earlier ++ [.returned .poll pool.drain.count]) := by
  obtain ⟨trace, delivered, run⟩ := Session.run_drain backend pool .poll (fun _ => rfl) 0 []
  have whole : Run backend ⟨pool, .free, []⟩ (.began .poll :: trace)
      ⟨pool.drain.pool, afterDrain .poll 0 pool.drain, []⟩ := .cons .begin run
  have same : Trace.delivered (.began .poll :: trace) = pool.drain.delivered := delivered
  rw [← same]
  apply whole.comeBack rfl
  intro calm
  rw [afterDrain_of_calm calm] at whole
  rcases Pool.takeOne?_eq_none_iff.mp (Pool.takeOne?_drain calm) with none_pending | none_completed
  · exact .inl none_pending
  · exact .inr (.inr ⟨rfl, none_completed, (whole.placed placed).not_isDeserted rfl⟩)

/-- Waiting for one completion is a run that hands it out and comes back, or raises its crash. -/
theorem run_waitOne {pool : Pool τ} {receipt : Receipt τ}
    (received : pool.waitOne? backend = some receipt) :
    ∃ trace, Run backend ⟨pool, .free, []⟩ trace ⟨receipt.pool, .free, []⟩ ∧
      match receipt.answer with
      | .ok given => Trace.delivered trace = given.toList ∧
          ∃ earlier, trace = earlier ++ [.returned .waitOne 1]
      | .error crash => Trace.delivered trace = [] ∧
          ∃ earlier ticket, trace = earlier ++ [.raised receipt.id ticket crash] := by
  obtain ⟨settling, worked, settled⟩ := run_settle backend [] pool (.taking .waitOne 0) rfl
  have silent := delivered_of_worked worked
  have begun : Run backend ⟨pool, .free, []⟩ (.began .waitOne :: settling)
      ⟨pool.settle backend [], .taking .waitOne 0, []⟩ := .cons .begin settled
  rcases receipt with ⟨next, id, answer⟩
  cases answer with
  | error crash =>
      obtain ⟨ticket, known⟩ := exists_ticket?_of_crash received rfl
      refine ⟨_, begun.next (.raise rfl received known), ?_, _, ticket, rfl⟩
      rw [Trace.delivered_append_of_silent _ rfl]
      exact silent
  | ok given =>
      cases given with
      | none =>
          have whole := (begun.next (.skip rfl received)).next (.comeBack rfl (.inr (.inl rfl)))
          refine ⟨_, whole, ?_, _, rfl⟩
          rw [Trace.delivered_append_of_silent _ rfl, Trace.delivered_append_of_silent _ rfl]
          exact silent
      | some handed =>
          rcases handed with ⟨ticket, outcome⟩
          have whole := (begun.next (.handle rfl received)).next (.comeBack rfl (.inr (.inl rfl)))
          refine ⟨_, whole, ?_, _, rfl⟩
          rw [Trace.delivered_append_of_silent _ rfl, Trace.delivered_append]
          exact congrArg (· ++ [(ticket, outcome)]) silent

/-! ## Shutting down -/

/-- Workers that are at rest and have been let go leave one after the other. -/
theorem run_leaving {pool : Pool τ} (rest : pool.AtRest) (call : Call) (count number : Nat)
    (enough : number ≤ pool.workers.length) :
    ∃ trace, Trace.delivered trace = [] ∧
      Run backend ⟨pool, .joining call count, []⟩ trace
        ⟨pool, .joining call count, (List.range number).reverse⟩ := by
  induction number with
  | zero => exact ⟨[], rfl, .refl⟩
  | succ number inductionHypothesis =>
      rcases inductionHypothesis (Nat.le_of_succ_le enough) with ⟨trace, delivered, run⟩
      have found := List.getElem?_eq_getElem enough
      rw [rest.workers _ (List.getElem_mem _)] at found
      refine ⟨trace ++ [.left number], ?_, ?_⟩
      · rw [Trace.delivered_append_of_silent _ rfl, delivered]
      · rw [List.range_succ, List.reverse_append]
        exact .next run (.leave (by simp) (.inl ⟨found, rest.queue, rfl⟩))

theorem isDeserted_range (pool : Pool τ) :
    pool.IsDeserted (List.range pool.workers.length).reverse := by
  intro index inside
  simpa using inside

/-- Shutting a pool down is a run, which comes back unless something is raised. -/
theorem Placed.run_shutDown {pool : Pool τ} (placed : Placed ⟨pool, .free, []⟩) :
    ∃ trace gone, Trace.delivered trace = (pool.shutDown backend).delivered ∧
      Run backend ⟨pool, .free, []⟩ trace ⟨(pool.shutDown backend).pool, .ended, gone⟩ ∧
      ((pool.shutDown backend).crash = none →
        ∃ earlier, trace = earlier ++ [.returned .shutDown (pool.shutDown backend).count]) := by
  obtain ⟨trace, delivered, run⟩ := run_emptying backend pool .shutDown fun _ => rfl
  cases ended : (pool.runUntilIdle backend).crash with
  | some crash =>
      rw [afterDrain, ended] at run
      refine ⟨_, [], ?_, .next run (.abandon (.inr rfl)), ?_⟩
      · rw [Trace.delivered_append_of_silent _ rfl]
        exact delivered
      · intro calm
        exact absurd (ended.symm.trans calm) nofun
  | none =>
      have idle := placed.pending_runUntilIdle backend ended
      have given_up : (pool.shutDown backend).pool = (pool.runUntilIdle backend).pool := by
        rw [Pool.shutDown, ← idle]
      obtain ⟨leaving, silent, left⟩ := run_leaving backend (placed.atRest_runUntilIdle backend)
        .shutDown (pool.runUntilIdle backend).count _ (Nat.le_refl _)
      rw [afterDrain_of_calm ended, Nat.zero_add] at run
      rw [given_up]
      have whole := ((run.next (.dismiss rfl idle)).trans left).next
        (.finish (isDeserted_range _))
      refine ⟨_, _, ?_, whole, fun _ => ⟨_, rfl⟩⟩
      rw [Trace.delivered_append_of_silent _ rfl, Trace.delivered_append, silent, List.append_nil,
        Trace.delivered_append_of_silent _ rfl]
      exact delivered

end Session

end Sequencer
