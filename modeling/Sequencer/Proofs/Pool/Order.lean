import Sequencer.Proofs.Pool.Cancellation
import Sequencer.Proofs.Pool.Line

/-!
# Order with one worker

With one worker jobs are handled or raised in the order in which they were accepted, and a call
takes the first of the pending ones. What is handed out for jobs that nobody cancels is then told by
their sources alone (`Session.History.keepsOrder`).
-/

namespace Sequencer

/-! ## Numbered lists -/

/-- An element of a numbered list has its place as its number. -/
theorem key_of_getElem? {α : Type} {key : α → Nat} {list : List α} {index : Nat} {element : α}
    (numbered : list.map key = List.range list.length) (found : list[index]? = some element) :
    key element = index := by
  have small := (List.getElem?_eq_some_iff.mp found).1
  have here := congrArg (·[index]?) numbered
  rw [List.getElem?_map, found, List.getElem?_range small] at here
  exact Option.some.inj here

/-- Of two numbered lists, one that has nothing but what the other has is the beginning of it. -/
theorem prefix_of_numbered {α : Type} {key : α → Nat} {first second : List α}
    (numbered : first.map key = List.range first.length)
    (numbered' : second.map key = List.range second.length)
    (within : ∀ element ∈ first, element ∈ second) : first <+: second := by
  rw [List.prefix_iff_getElem?]
  intro index small
  obtain ⟨other, found⟩ := List.getElem?_of_mem (within _ (List.getElem_mem small))
  have same := (key_of_getElem? numbered' found).symm.trans
    (key_of_getElem? numbered (List.getElem?_eq_getElem small))
  rwa [same] at found

variable {τ : Type}

/-! ## Outcomes in order -/

namespace Trace

/-- The sources of the jobs that were sent, in that order. -/
def sources (trace : List (Event τ)) : List (List Char) := (sent trace).map Prod.snd

/-- The outcomes that were handed out, in that order. -/
def outcomes (trace : List (Event τ)) : List Outcome := (delivered trace).map Prod.snd

theorem map_fst_settled (trace : List (Event τ)) :
    (settled trace).map Prod.fst = (departed trace).map Prod.fst := by
  rw [settled, departed, List.map_filterMap, List.map_filterMap]
  apply List.filterMap_congr
  intro event happened
  cases event <;> rfl

end Trace

/-- The outcome that a job has come to. -/
def Progress.outcome? : Progress → Option Outcome
  | .settled (.ok outcome) => some outcome
  | _ => none

theorem Trace.outcomes_eq (trace : List (Event τ)) :
    outcomes trace = (settled trace).filterMap (·.2.outcome?) := by
  rw [outcomes, delivered, settled, List.map_filterMap, List.filterMap_filterMap]
  apply List.filterMap_congr
  intro event happened
  cases event <;> rfl

/-- The outcomes that sources come to, in their order. One that crashes comes to none. -/
def Backend.outcomes (backend : Backend) (sources : List (List Char)) : List Outcome :=
  sources.filterMap fun source => (execute backend source).toOption

theorem Backend.outcomes_sources (backend : Backend) (trace : List (Event τ)) :
    backend.outcomes (Trace.sources trace) =
      ((Trace.sent trace).map fun job =>
        (job.1, Progress.settled (execute backend job.2))).filterMap (·.2.outcome?) := by
  rw [outcomes, Trace.sources, List.filterMap_map, List.filterMap_map]
  apply List.filterMap_congr
  intro job inside
  rw [Function.comp_apply, Function.comp_apply]
  cases execute backend job.2 <;> rfl

namespace Session

variable {backend : Backend}

/-! ## One worker from the start -/

section Start

variable {workers : Nat} {bound : Option Nat} {trace : List (Event τ)}
  {moments : List (Moment τ)} {session : Session τ}

theorem Run.le_one_of_waitOne (run : Run backend (start workers bound) trace session)
    {count : Nat} (inCall : session.stage.call? = some (.waitOne, count)) : count ≤ 1 := by
  induction run generalizing count with
  | refl => cases inCall
  | next earlier step inductionHypothesis =>
      exact step.le_one_of_waitOne (earlier.placed (.start workers bound))
        (fun count inCall => inductionHypothesis inCall) count inCall

/-- Jobs are accepted in the order of their numbers. -/
theorem Run.pairwise_accepted (run : Run backend (start workers bound) trace session) :
    (Trace.accepted trace).Pairwise fun first second => first.1.number < second.1.number :=
  List.pairwise_map.mp (run.map_number_accepted ▸ List.pairwise_lt_range)

variable (few : workers ≤ 1)

include few in
/-- The accepted jobs are, in their order, those that have left and those that are pending. -/
theorem Run.accepted_eq (run : Run backend (start workers bound) trace session) :
    Trace.accepted trace =
      Trace.departed trace ++ (Trace.dropped trace ++ session.pool.pending) :=
  run.order (.start workers bound) (.start few bound)

include few in
theorem Run.departed_prefix (run : Run backend (start workers bound) trace session) :
    Trace.departed trace <+: Trace.accepted trace :=
  ⟨_, (run.accepted_eq few).symm⟩

include few in
theorem Run.pairwise_pending (run : Run backend (start workers bound) trace session) :
    session.pool.pending.Pairwise fun first second => first.1.number < second.1.number := by
  apply List.Pairwise.sublist _ run.pairwise_accepted
  rw [run.accepted_eq few, ← List.append_assoc]
  exact List.sublist_append_right _ _

include few in
/-- A call that comes back has called the handlers of the first pending jobs. -/
theorem History.pending_eq_append {before during after : List (Moment τ)} {middle last : Session τ}
    {call : Call} {count : Nat}
    (history : History backend (start workers bound)
      (before ++ ⟨middle, .began call⟩ :: (during ++ ⟨last, .returned call count⟩ :: after))
      session)
    (inside : ∀ event ∈ Trace.events during, event.isInside) :
    middle.pool.pending = Trace.handled (Trace.events during) ++ last.pool.pending ∧
      (Trace.handled (Trace.events during)).length = count := by
  obtain ⟨started, next, begun, rest⟩ := history.split
  obtain ⟨within, final, returned, -⟩ := rest.split
  have placed := (started.next begun).placed
  have inLine := (started.next begun).run.inLine (.start workers bound) (.start few bound)
  have inCall := returned.call?_of_returned
  obtain ⟨unmoved, noneTaken⟩ :
      next.pool = middle.pool ∧ next.stage.call? = some (call, 0) := by
    cases begun
    exact ⟨rfl, rfl⟩
  constructor
  · have going : last.stage ≠ .ended := by
      intro ended
      rw [ended] at inCall
      cases inCall
    have order := within.run.order placed inLine
    rwa [Trace.accepted_eq_nil_of_inside inside, Trace.departed_eq_handled inside,
      within.run.dropped_eq_nil placed going, List.append_nil, List.nil_append, unmoved] at order
  · obtain ⟨earlier, begun, counted⟩ := within.run.call?_of_isInside inside inCall
    rw [noneTaken] at begun
    cases begun
    rw [counted, Nat.zero_add]

include few in
/-- A call that waits for one completion and comes back has called the handler of the first pending
job, if one was pending. -/
theorem History.handled_eq_head? {before during after : List (Moment τ)}
    {middle last : Session τ} {count : Nat}
    (history : History backend (start workers bound)
      (before ++ ⟨middle, .began .waitOne⟩ :: (during ++ ⟨last, .returned .waitOne count⟩ :: after))
      session)
    (inside : ∀ event ∈ Trace.events during, event.isInside) :
    Trace.handled (Trace.events during) = middle.pool.pending.head?.toList := by
  obtain ⟨order, counted⟩ := history.pending_eq_append few inside
  obtain ⟨started, next, begun, rest⟩ := history.split
  obtain ⟨within, final, returned, -⟩ := rest.split
  have whole := (started.next begun).trans within
  have atMostOne := whole.run.le_one_of_waitOne returned.call?_of_returned
  have ended := returned.of_returned_waitOne whole.placed
  rw [order]
  cases handled : Trace.handled (Trace.events during) with
  | nil =>
      rw [handled] at counted
      rw [ended.resolve_right (not_not_intro counted.symm)]
      rfl
  | cons job others =>
      rw [handled, List.length_cons] at counted
      obtain rfl : others = [] := List.length_eq_zero_iff.mp (by omega)
      rfl

/-! ## Waiting for one completion -/

include few in
/-- Waiting for one completion takes that of the first pending job, if one is pending. -/
theorem Run.map_id_waitOne? (run : Run backend (start workers bound) trace session)
    (free : session.stage = .free) :
    (session.pool.waitOne? backend).map Receipt.id = session.pool.pending.head?.map Prod.fst := by
  rcases session with ⟨pool, stage, gone⟩
  obtain rfl : stage = .free := free
  obtain rfl : gone = [] := (run.placed (.start workers bound)).present rfl
  obtain ⟨settling, -, settled⟩ := run_settle backend [] pool (.taking .waitOne 0) rfl
  have whole := run.trans (.cons .begin settled)
  have placed := whole.placed (.start workers bound)
  have inLine := whole.inLine (.start workers bound) (.start few bound)
  have kept : (pool.settle backend []).pending = pool.pending := Pool.pending_settle ..
  rw [← kept, Pool.waitOne?]
  cases taken : (pool.settle backend []).takeOne? with
  | none =>
      rw [placed.pending_eq_nil (Pool.atRest_settle placed.staffed) taken]
      rfl
  | some receipt =>
      obtain ⟨ticket, known⟩ := placed.exists_ticket? taken
      rw [inLine.pending_eq placed taken known]
      rfl

end Start

/-! ## Results in order -/

section Start

variable {workers : Nat} {bound : Option Nat} {trace : List (Event τ)}
  {moments : List (Moment τ)} {session : Session τ} (few : workers ≤ 1)

include few in
theorem Run.map_number_settled (run : Run backend (start workers bound) trace session) :
    (Trace.settled trace).map (·.1.number) = List.range (Trace.settled trace).length := by
  have total := congrArg List.length (Trace.map_fst_settled trace)
  rw [List.length_map, List.length_map] at total
  have within := (run.departed_prefix few).length_le
  have beginning := List.prefix_iff_eq_take.mp ((run.departed_prefix few).map (·.1.number))
  rw [run.map_number_accepted, List.length_map, List.take_range,
    Nat.min_eq_left within] at beginning
  have same := congrArg (List.map JobId.number) (Trace.map_fst_settled trace)
  rw [List.map_map, List.map_map] at same
  rw [total, ← beginning]
  exact same

include few in
/-- Where nothing is cancelled, jobs come in their order to what their sources are executed to. -/
theorem History.settled_prefix (history : History backend (start workers bound) moments session)
    (uncancelled : ∀ id answer, .cancelled id answer ∉ Trace.events moments) :
    Trace.settled (Trace.events moments) <+:
      (Trace.sent (Trace.events moments)).map fun job =>
        (job.1, .settled (execute backend job.2)) := by
  have sent := history.recorded.sent
  have total := congrArg List.length sent
  rw [List.length_map, List.length_range] at total
  apply prefix_of_numbered (history.run.map_number_settled few)
  · rw [List.map_map, List.length_map, total, ← sent]
    rfl
  · rintro ⟨id, progress⟩ ended
    obtain ⟨result, rfl⟩ : ∃ result, progress = .settled result := by
      obtain ⟨event, -, same⟩ := List.mem_filterMap.mp ended
      cases event <;> cases same <;> exact ⟨_, rfl⟩
    obtain ⟨source, unique, rfl⟩ := history.settled_of_uncancelled uncancelled ended
    exact List.mem_map.mpr ⟨(id, source), Trace.mem_sent_iff.mpr ((unique source).mpr rfl), rfl⟩

include few in
/-- Where nothing is cancelled, the outcomes that were handed out are the first of those that the
sources come to, and all of them when no job is left. -/
theorem History.outcomes_prefix (history : History backend (start workers bound) moments session)
    (uncancelled : ∀ id answer, .cancelled id answer ∉ Trace.events moments) :
    Trace.outcomes (Trace.events moments) <+:
        backend.outcomes (Trace.sources (Trace.events moments)) ∧
      (session.stage ≠ .ended → session.live = [] →
        Trace.outcomes (Trace.events moments) =
          backend.outcomes (Trace.sources (Trace.events moments))) := by
  have settled := history.settled_prefix few uncancelled
  rw [Trace.outcomes_eq, Backend.outcomes_sources]
  refine ⟨settled.filterMap _, fun going rested => congrArg _ (settled.eq_of_length ?_)⟩
  obtain ⟨idle, unsent⟩ := List.append_eq_nil_iff.mp rested
  have accepted := history.run.accepted_eq few
  rw [history.run.dropped_eq_nil (.start workers bound) going, idle, List.append_nil,
    List.append_nil] at accepted
  have numbers := congrArg List.length history.run.numbers
  have sent := congrArg List.length history.recorded.sent
  have total := congrArg List.length (Trace.map_fst_settled (Trace.events moments))
  rw [unsent, List.append_nil, accepted] at numbers
  simp only [List.length_map, List.length_range] at numbers sent total ⊢
  rw [total, numbers, sent]

/-- What holds of a session with one worker that has come about by some moments: jobs come first in,
first out. -/
structure KeepsOrder (backend : Backend) (moments : List (Moment τ)) (session : Session τ) :
    Prop where
  /-- Handlers are called in the order of the numbers of their jobs. -/
  handled : (Trace.handled (Trace.events moments)).Pairwise fun first second =>
    first.1.number < second.1.number
  /-- The jobs that were handled or raised are the first of the accepted ones. -/
  departed : Trace.departed (Trace.events moments) <+: Trace.accepted (Trace.events moments)
  /-- The other ones are pending until the pool is gone. -/
  pending : session.stage ≠ .ended → Trace.accepted (Trace.events moments) =
    Trace.departed (Trace.events moments) ++ session.pool.pending
  /-- The pending jobs are in the order of their numbers. -/
  ascends : session.pool.pending.Pairwise fun first second => first.1.number < second.1.number
  /-- The next job that is handled or raised is the first of the pending ones. -/
  leaves : ∀ event next job, Step backend session event next → event.departed? = some job →
    session.pool.pending = job :: next.pool.pending
  /-- A call that comes back has called the handlers of the first pending jobs, as many as it
  says. -/
  called : ∀ before during after middle last call count,
    moments = before ++ ⟨middle, .began call⟩ :: (during ++ ⟨last, .returned call count⟩ :: after) →
    (∀ event ∈ Trace.events during, event.isInside) →
      Trace.handled (Trace.events during) = middle.pool.pending.take count ∧
        (Trace.handled (Trace.events during)).length = count
  /-- If it waits for one completion, that is the one handler of the smallest pending job, or none
  if nothing is pending. -/
  waited : ∀ before during after middle last count,
    moments = before ++
      ⟨middle, .began .waitOne⟩ :: (during ++ ⟨last, .returned .waitOne count⟩ :: after) →
    (∀ event ∈ Trace.events during, event.isInside) →
      (Trace.handled (Trace.events during) = [] ∧ middle.pool.pending = []) ∨
      ∃ job ∈ middle.pool.pending, Trace.handled (Trace.events during) = [job] ∧
        ∀ other ∈ middle.pool.pending, job.1.number ≤ other.1.number
  /-- Waiting for one completion gives that of the first pending job as long as there is one. -/
  waits : session.stage = .free →
    (session.pool.waitOne? backend).map Receipt.id = session.pool.pending.head?.map Prod.fst
  /-- If nothing was cancelled, the outcomes that were handed out are the first of those that the
  sources come to, and all of them when no job is left. -/
  outcomes : (∀ id answer, .cancelled id answer ∉ Trace.events moments) →
    Trace.outcomes (Trace.events moments) <+:
        backend.outcomes (Trace.sources (Trace.events moments)) ∧
      (session.stage ≠ .ended → session.live = [] →
        Trace.outcomes (Trace.events moments) =
          backend.outcomes (Trace.sources (Trace.events moments)))
  /-- If nothing was cancelled and the same sources are sent on another occasion, then what has been
  handed out on one of the two is the beginning of what has been on the other one, and it is the
  same when no job is left on either. -/
  alike : ∀ workers bound (moments' : List (Moment τ)) session', workers ≤ 1 →
    History backend (start workers bound) moments' session' →
    (∀ id answer, .cancelled id answer ∉ Trace.events moments) →
    (∀ id answer, .cancelled id answer ∉ Trace.events moments') →
    Trace.sources (Trace.events moments) = Trace.sources (Trace.events moments') →
      (Trace.outcomes (Trace.events moments) <+: Trace.outcomes (Trace.events moments') ∨
        Trace.outcomes (Trace.events moments') <+: Trace.outcomes (Trace.events moments)) ∧
      (session.stage ≠ .ended → session.live = [] →
        session'.stage ≠ .ended → session'.live = [] →
          Trace.outcomes (Trace.events moments) = Trace.outcomes (Trace.events moments'))

/-- With one worker jobs come first in, first out, whatever the owner and the worker do and in
whatever order. -/
theorem History.keepsOrder {workers : Nat} {bound : Option Nat} {moments : List (Moment τ)}
    {session : Session τ} (few : workers ≤ 1)
    (history : History backend (start workers bound) moments session) :
    KeepsOrder backend moments session where
  handled := history.run.pairwise_accepted.sublist
    ((Trace.handled_sublist_departed _).trans (history.run.departed_prefix few).sublist)
  departed := history.run.departed_prefix few
  pending going := by
    rw [history.run.accepted_eq few, history.run.dropped_eq_nil (.start workers bound) going,
      List.nil_append]
  ascends := history.run.pairwise_pending few
  leaves event next job step leaves := by
    have inLine := history.run.inLine (.start workers bound) (.start few bound)
    obtain ⟨order, -⟩ := step.order history.placed inLine
    cases event with
    | handled | raised =>
        cases leaves
        exact (List.append_nil _).symm.trans order
    | _ => cases leaves
  called := by
    rintro before during after middle last call count rfl inside
    obtain ⟨order, counted⟩ := history.pending_eq_append few inside
    rw [order, ← counted, List.take_left]
    exact ⟨rfl, rfl⟩
  waited := by
    rintro before during after middle last count rfl inside
    have handled := history.handled_eq_head? few inside
    obtain ⟨started, -⟩ := history.split
    have ascends := started.run.pairwise_pending few
    cases pending : middle.pool.pending with
    | nil =>
        rw [pending] at handled
        exact .inl ⟨handled, rfl⟩
    | cons job others =>
        rw [pending] at handled ascends
        refine .inr ⟨job, List.mem_cons_self, handled, fun other among => ?_⟩
        rcases List.mem_cons.mp among with rfl | behind
        · exact Nat.le_refl _
        · exact Nat.le_of_lt ((List.pairwise_cons.mp ascends).1 other behind)
  waits free := history.run.map_id_waitOne? few free
  outcomes uncancelled := history.outcomes_prefix few uncancelled
  alike := by
    intro workers' bound' moments' session' few' history' uncancelled uncancelled' same
    obtain ⟨within, whole⟩ := history.outcomes_prefix few uncancelled
    obtain ⟨within', whole'⟩ := history'.outcomes_prefix few' uncancelled'
    rw [← same] at within' whole'
    refine ⟨List.prefix_or_prefix_of_prefix within within', ?_⟩
    intro going rested going' rested'
    exact (whole going rested).trans (whole' going' rested').symm

/-- Three jobs of a worker, the second of which crashes, are waited for, emptied and polled. Another
one is refused. -/
theorem keepsOrder_unsteady :
    ∃ moments, Trace.events moments =
        [.sent ⟨0⟩ [], .accepted ⟨0⟩ 7, .refused 6 (.queueFull 1), .worked 0, .sent ⟨1⟩ ['x'],
          .accepted ⟨1⟩ 8, .worked 0, .worked 0, .worked 0, .worked 0, .sent ⟨2⟩ [],
          .accepted ⟨2⟩ 9, .began .waitOne, .handled ⟨0⟩ 7 (.ofFailure .unknown), .worked 0,
          .returned .waitOne 1, .began .runUntilIdle, .worked 0, .worked 0,
          .raised ⟨1⟩ 8 (.brokenContract (.truncatedFrame 0)), .worked 0, .worked 0, .worked 0,
          .worked 0, .began .poll, .handled ⟨2⟩ 9 (.ofFailure .unknown), .returned .poll 1] ∧
      KeepsOrder unsteady moments ⟨⟨some 1, [], [.idle], [], [], [], 3⟩, .free, []⟩ := by
  have present : (0 : Nat) ∉ ([] : List Nat) := List.not_mem_nil
  have run : Run unsteady (start 0 (some 1))
      [.sent ⟨0⟩ [], .accepted ⟨0⟩ 7, .refused 6 (.queueFull 1), .worked 0, .sent ⟨1⟩ ['x'],
        .accepted ⟨1⟩ 8, .worked 0, .worked 0, .worked 0, .worked 0, .sent ⟨2⟩ [],
        .accepted ⟨2⟩ 9, .began .waitOne, .handled ⟨0⟩ 7 (.ofFailure .unknown), .worked 0,
        .returned .waitOne 1, .began .runUntilIdle, .worked 0, .worked 0,
        .raised ⟨1⟩ 8 (.brokenContract (.truncatedFrame 0)), .worked 0, .worked 0, .worked 0,
        .worked 0, .began .poll, .handled ⟨2⟩ 9 (.ofFailure .unknown), .returned .poll 1]
      ⟨⟨some 1, [], [.idle], [], [], [], 3⟩, .free, []⟩ := by
    refine .cons (.send 7 (by decide) rfl) ?_
    refine .cons .accept ?_
    refine .cons (.refuse [] (by decide) rfl) ?_
    refine .cons (.work present (Pool.not_mayLeave _ rfl _) rfl) ?_
    refine .cons (.send 8 (by decide) rfl) ?_
    refine .cons .accept ?_
    refine .cons (.work present (Pool.not_mayLeave _ rfl _) rfl) ?_
    refine .cons (.work present (Pool.not_mayLeave _ rfl _) rfl) ?_
    refine .cons (.work present (Pool.not_mayLeave _ rfl _) rfl) ?_
    refine .cons (.work present (Pool.not_mayLeave _ rfl _) rfl) ?_
    refine .cons (.send 9 (by decide) rfl) ?_
    refine .cons .accept ?_
    refine .cons .begin ?_
    refine .cons (.handle rfl rfl) ?_
    refine .cons (.work present (Pool.not_mayLeave _ rfl _) rfl) ?_
    refine .cons (.comeBack rfl (.inr (.inl rfl))) ?_
    refine .cons .begin ?_
    refine .cons (.work present (Pool.not_mayLeave _ rfl _) rfl) ?_
    refine .cons (.work present (Pool.not_mayLeave _ rfl _) rfl) ?_
    refine .cons (.raise rfl rfl rfl) ?_
    refine .cons (.work present (Pool.not_mayLeave _ rfl _) rfl) ?_
    refine .cons (.work present (Pool.not_mayLeave _ rfl _) rfl) ?_
    refine .cons (.work present (Pool.not_mayLeave _ rfl _) rfl) ?_
    refine .cons (.work present (Pool.not_mayLeave _ rfl _) rfl) ?_
    refine .cons .begin ?_
    refine .cons (.handle rfl rfl) ?_
    exact .cons (.comeBack rfl (.inl rfl)) .refl
  obtain ⟨moments, events, history⟩ := run.exists_history
  exact ⟨moments, events, history.keepsOrder (Nat.zero_le 1)⟩

end Start

end Session
end Sequencer
