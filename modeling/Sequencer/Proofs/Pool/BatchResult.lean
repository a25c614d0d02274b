import Sequencer.Proofs.Job.Execution
import Sequencer.Proofs.Pool.Batch
import Sequencer.Proofs.Pool.Calls

/-!
# The results of batches

The function that compiles a batch lets the owner and the workers act in one particular order. Each
of its parts goes from one sound state of the batch to another one, so where no source crashes it
returns the outcomes of the sources, in their order (`Batch.compile_eq_ok`).
-/

namespace Sequencer

namespace Batch

variable {backend : Backend} {sources : List (List Char)} {outcomes : List Outcome}
  {workers : Nat} {bound : Option Nat} {plan : Plan} {session last : Session Nat}
  {delivered : List (Nat × Outcome)} {event : Event Nat}

/-! ## From one sound state to another -/

namespace Sound

theorem not_collect {state : State} (sound : Sound backend sources workers bound state) :
    state.plan ≠ .collect := by
  rcases sound with ⟨-, fits⟩
  rintro collects
  rw [collects] at fits
  cases fits

variable (calm : sources.map (execute backend) = outcomes.map .ok)

include calm in
/-- A step of the owner that is planned. -/
theorem own {planned : Plan} {noted : List (Nat × Outcome)}
    (sound : Sound backend sources workers bound ⟨plan, session, delivered⟩)
    (step : Session.Step backend session event last)
    (follows : Follows sources plan event last.stage planned)
    (notes : noted = delivered ++ Trace.delivered [event]) (going : planned ≠ .collect) :
    Sound backend sources workers bound ⟨planned, last, noted⟩ := by
  subst notes
  rcases (Step.own step follows).sound calm sound with ⟨collects, -⟩ | ⟨sound, -⟩
  · exact absurd collects going
  · exact sound

include calm in
/-- The workers act for a while. -/
theorem of_worked {trace : List (Event Nat)}
    (sound : Sound backend sources workers bound ⟨plan, session, delivered⟩)
    (run : Session.Run backend session trace last)
    (worked : ∀ event ∈ trace, ∃ index, event = .worked index) :
    Sound backend sources workers bound ⟨plan, last, delivered⟩ := by
  induction run with
  | refl => exact sound
  | next earlier step inductionHypothesis =>
      have before := inductionHypothesis fun event happened =>
        worked event (List.mem_append_left _ happened)
      obtain ⟨index, rfl⟩ := worked _ (List.mem_append_right _ List.mem_cons_self)
      rcases (Step.worker step ⟨index, .inl rfl⟩).sound calm before with ⟨collects, -⟩ | ⟨after, -⟩
      · exact absurd collects before.not_collect
      · exact after

include calm in
/-- The workers come to rest. -/
theorem settle {pool : Pool Nat} {stage : Stage Nat} (kept : stage.isDismissed = false)
    (sound : Sound backend sources workers bound ⟨plan, ⟨pool, stage, []⟩, delivered⟩) :
    Sound backend sources workers bound
      ⟨plan, ⟨pool.settle backend [], stage, []⟩, delivered⟩ := by
  obtain ⟨trace, worked, run⟩ := Session.run_settle backend [] pool stage kept
  exact sound.of_worked calm run worked

include calm in
/-- A completion that is taken in a batch hands out an outcome. -/
theorem exists_answer {pool : Pool Nat} {call : Call} {count : Nat} {receipt : Receipt Nat}
    (sound : Sound backend sources workers bound
      ⟨plan, ⟨pool, .taking call count, []⟩, delivered⟩)
    (wants : call.wantsMore count) (taken : pool.takeOne? = some receipt) :
    ∃ ticket outcome, receipt.answer = .ok (some (ticket, outcome)) ∧
      Sound backend sources workers bound
        ⟨plan, ⟨receipt.pool, .taking call (count + 1), []⟩, delivered ++ [(ticket, outcome)]⟩ := by
  rcases receipt with ⟨next, id, answer⟩
  cases answer with
  | error crash =>
      obtain ⟨ticket, known⟩ := sound.placed.exists_ticket? taken
      have step : Step backend sources ⟨plan, ⟨pool, .taking call count, []⟩, delivered⟩
          (.raised id ticket crash) _ := .own (.raise wants taken known) .raise
      obtain ⟨moments, traced, happened⟩ := step.exists_traced sound
      exact absurd happened (traced.not_raised calm id ticket crash)
  | ok given =>
      cases given with
      | none => exact absurd rfl (sound.placed.answer_ne_none taken)
      | some given =>
          rcases given with ⟨ticket, outcome⟩
          refine ⟨ticket, outcome, rfl, ?_⟩
          exact sound.own calm (.handle wants taken) .handle rfl sound.not_collect

/-! ## Submitting -/

include calm in
/-- When the queue is full, waiting for one completion hands out an outcome, and the batch can try
again. -/
theorem exists_waitOne {pool : Pool Nat} {index limit : Nat} {source : List Char}
    (sound : Sound backend sources workers bound ⟨.submit index, ⟨pool, .free, []⟩, delivered⟩)
    (within : index < sources.length)
    (refused : pool.submit source index = .error (.queueFull limit)) :
    ∃ receipt ticket outcome, pool.waitOne? backend = some receipt ∧
      receipt.answer = .ok (some (ticket, outcome)) ∧
      Sound backend sources workers bound
        ⟨.submit index, ⟨receipt.pool, .free, []⟩, delivered ++ [(ticket, outcome)]⟩ := by
  have staffed := sound.placed.not_isDeserted rfl
  have crowded := sound.own calm (.refuse source staffed refused) (.crowd within)
    (List.append_nil _).symm (by simp)
  have waiting := crowded.own calm .begin .wait (List.append_nil _).symm (by simp)
  have rested := waiting.settle calm rfl
  have placed := rested.placed
  cases taken : (pool.settle backend []).takeOne? with
  | none =>
      have none_pending := placed.pending_eq_nil (Pool.atRest_settle placed.staffed) taken
      rcases rested with ⟨-, fits⟩
      cases fits with
      | waiting _ _ left => exact absurd none_pending (left rfl)
  | some receipt =>
      obtain ⟨ticket, outcome, answer, noted⟩ := rested.exists_answer calm rfl taken
      refine ⟨receipt, ticket, outcome, taken, answer, ?_⟩
      exact noted.own calm (.comeBack rfl (.inr (.inl rfl))) .retry (List.append_nil _).symm
        (by simp)

include calm in
/-- A source is submitted in the end, however often the queue is full. -/
theorem submitWaiting {pool : Pool Nat} {index : Nat} {source : List Char}
    (sound : Sound backend sources workers bound ⟨.submit index, ⟨pool, .free, []⟩, delivered⟩)
    (here : sources[index]? = some source) :
    ∃ later more, pool.submitWaiting backend source index = .ok (later, more) ∧
      Sound backend sources workers bound
        ⟨.submit (index + 1), ⟨later, .free, []⟩, delivered ++ more⟩ := by
  have within := (List.getElem?_eq_some_iff.mp here).1
  have staffed := sound.placed.not_isDeserted rfl
  fun_induction Pool.submitWaiting backend pool source index generalizing delivered with
  | case1 pool id later submitted =>
      unfold Pool.submit at submitted
      split at submitted
      · cases submitted
      · rename_i room
        cases submitted
        have sent := sound.own calm (.send index staffed (by simpa using room)) (.send here)
          (List.append_nil _).symm (by simp)
        refine ⟨_, [], rfl, ?_⟩
        exact sent.own calm .accept .accept rfl (by simp)
  | case2 pool refused =>
      unfold Pool.submit at refused
      split at refused <;> cases refused
  | case3 pool limit refused stuck =>
      obtain ⟨receipt, ticket, outcome, waited, -⟩ := sound.exists_waitOne calm within refused
      rw [stuck] at waited
      cases waited
  | case4 pool limit refused receipt waits crash crashed =>
      obtain ⟨other, ticket, outcome, waited, answer, -⟩ :=
        sound.exists_waitOne calm within refused
      rw [waits] at waited
      cases waited
      rw [crashed] at answer
      cases answer
  | case5 pool limit refused receipt waits given answer inductionHypothesis =>
      obtain ⟨other, ticket, outcome, waited, answered, again⟩ :=
        sound.exists_waitOne calm within refused
      rw [waits] at waited
      cases waited
      rw [answer] at answered
      cases answered
      obtain ⟨later, more, submitted, after⟩ :=
        inductionHypothesis again (again.placed.not_isDeserted rfl)
      refine ⟨later, (ticket, outcome) :: more, ?_, ?_⟩
      · rw [submitted]
        rfl
      · rwa [List.append_assoc] at after

include calm in
theorem submitAll {pool : Pool Nat} {index : Nat} {rest : List (List Char)}
    (sound : Sound backend sources workers bound ⟨.submit index, ⟨pool, .free, []⟩, delivered⟩)
    (left : sources.drop index = rest) :
    ∃ later more, pool.submitAll backend index rest = .ok (later, more) ∧
      Sound backend sources workers bound
        ⟨.submit sources.length, ⟨later, .free, []⟩, delivered ++ more⟩ := by
  induction rest generalizing pool index delivered with
  | nil =>
      have all : sources.length = index := by
        have within : index ≤ sources.length := by
          rcases sound with ⟨-, fits⟩
          cases fits with
          | submitting within => exact within
        exact Nat.le_antisymm (List.drop_eq_nil_iff.mp left) within
      subst all
      refine ⟨pool, [], rfl, ?_⟩
      rwa [List.append_nil]
  | cons source rest inductionHypothesis =>
      have here : sources[index]? = some source := by
        have first := congrArg List.head? left
        simpa using first
      have behind : sources.drop (index + 1) = rest := by
        rw [← List.tail_drop, left]
        rfl
      obtain ⟨middle, early, submitted, after⟩ := sound.submitWaiting calm here
      obtain ⟨later, more, others, last⟩ := inductionHypothesis after behind
      refine ⟨later, early ++ more, ?_, ?_⟩
      · rw [Pool.submitAll, submitted]
        simp only [others]
        rfl
      · rwa [List.append_assoc] at last

/-! ## Emptying the pool -/

include calm in
theorem drain {pool : Pool Nat} {call : Call} {count : Nat}
    (sound : Sound backend sources workers bound
      ⟨plan, ⟨pool, .taking call count, []⟩, delivered⟩)
    (wants : ∀ count, call.wantsMore count) :
    pool.drain.crash = none ∧
      Sound backend sources workers bound
        ⟨plan, ⟨pool.drain.pool, .taking call (count + pool.drain.count), []⟩,
          delivered ++ pool.drain.delivered⟩ := by
  fun_induction Pool.drain pool generalizing count delivered with
  | case1 pool stopped =>
      refine ⟨rfl, ?_⟩
      simpa using sound
  | case2 pool receipt taken crash answer =>
      obtain ⟨ticket, outcome, answered, -⟩ := sound.exists_answer calm (wants count) taken
      rw [answer] at answered
      cases answered
  | case3 pool receipt taken given answer more =>
      rename_i inductionHypothesis
      obtain ⟨ticket, outcome, answered, after⟩ := sound.exists_answer calm (wants count) taken
      rw [answer] at answered
      cases answered
      obtain ⟨silent, last⟩ := inductionHypothesis after
      refine ⟨silent, ?_⟩
      rw [List.append_assoc, Nat.add_assoc, Nat.add_comm 1] at last
      exact last

include calm in
/-- Emptying the pool hands out all that is missing. -/
theorem runUntilIdle {pool : Pool Nat}
    (sound : Sound backend sources workers bound
      ⟨.submit sources.length, ⟨pool, .free, []⟩, delivered⟩) :
    (pool.runUntilIdle backend).crash = none ∧
      Batch.outcomes (delivered ++ (pool.runUntilIdle backend).delivered) sources.length =
        .ok outcomes := by
  have emptying := sound.own calm .begin .beginEmptying (List.append_nil _).symm (by simp)
  obtain ⟨silent, drained⟩ := (emptying.settle calm rfl).drain calm fun _ => rfl
  have rested := sound.placed.pending_runUntilIdle backend silent
  have total : sources.length = outcomes.length := by
    simpa using congrArg List.length calm
  obtain ⟨⟨moments, traced⟩, fits⟩ := drained
  cases fits with
  | emptying all =>
      refine ⟨silent, ?_⟩
      have collected := traced.outcomes_eq calm (all.trans total) rested rfl (by simp)
      rw [total]
      exact collected

end Sound

/-! ## Compiling -/

/-- Where no source crashes, a batch returns the outcomes of its sources in their order, whatever
the number of workers and the bound of the queue. -/
theorem compile_eq_ok (calm : sources.map (execute backend) = outcomes.map .ok) (workers : Nat)
    (bound : Option Nat) : Batch.compile backend workers bound sources = .ok outcomes := by
  have start : Sound backend sources (min workers sources.length) bound
      (.start (min workers sources.length) bound) := .start
  obtain ⟨later, early, submitted, sound⟩ := start.submitAll calm List.drop_zero
  obtain ⟨silent, collected⟩ := sound.runUntilIdle calm
  have ended : (later.shutDown backend).crash = none := silent
  rw [Batch.compile, submitted, ← collected]
  simp only [bind, Except.bind, ended]
  rfl

end Batch

end Sequencer
