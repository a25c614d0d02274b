import Sequencer.Job.Backend
import Sequencer.Job.Delivery
import Sequencer.Proofs.Frame.RoundTrip

/-!
# What jobs come to

A backend may do anything: its compiler may find an error with or without a place, or crash, with
words or without; its estimator may reject code, or crash. Crashes of the two are treated in
opposite ways. That of the compiler is an outcome, and only what goes wrong over compiled code is
raised (`execute_iff`). Every outcome can be told from what its handler is given
(`Outcome.ofDelivered_delivered`).
-/

namespace Sequencer

/-! ## What a backend does -/

/-- A source whose compiled code the estimator rejects, or crashes over. -/
inductive Backend.BreaksContract (backend : Backend) (source : List Char) : Crash → Prop
  | crash {compiled crash} (made : backend.compile source = .ok (.ok compiled))
      (crashed : backend.totalSteps compiled.code = .error crash) :
      BreaksContract backend source crash
  | fault {compiled fault} (made : backend.compile source = .ok (.ok compiled))
      (rejected : backend.totalSteps compiled.code = .ok (.error fault)) :
      BreaksContract backend source (.brokenContract fault)

/-- A source over which the compiler fails without a place, and the words that it has for it, which
may be none. -/
inductive Backend.FailsWith (backend : Backend) (source : List Char) : String → Prop
  | message {text} (failed : backend.compile source = .ok (.error (.message text))) :
      FailsWith backend source text
  | unknown (failed : backend.compile source = .ok (.error .unknown)) :
      FailsWith backend source ""
  | crash {crash} (crashed : backend.compile source = .error crash) :
      FailsWith backend source (crash.text.getD "")

/-- What a job comes to, by what the backend does. -/
inductive Backend.Executes (backend : Backend) (source : List Char) : Except Crash Outcome → Prop
  | breakContract {crash} (breaks : backend.BreaksContract source crash) :
      Executes backend source (.error crash)
  | succeed {compiled steps} (made : backend.compile source = .ok (.ok compiled))
      (counted : backend.totalSteps compiled.code = .ok (.ok steps)) :
      Executes backend source (.ok (.success ⟨.ofSteps steps compiled.ttlMask, compiled.code⟩))
  | reject {diagnostic} (rejected : backend.compile source = .ok (.error (.located diagnostic))) :
      Executes backend source (.ok (.rejected diagnostic))
  | fail {words} (fails : backend.FailsWith source words) :
      Executes backend source
        (.ok (.failed (if words = "" then "Unknown parser error" else words)))

/-- Words that say nothing are replaced. -/
theorem Outcome.ofText_eq (words : String) :
    Outcome.ofText words = .failed (if words = "" then "Unknown parser error" else words) := by
  simp [ofText, CompileFailure.unknownText]

theorem execute_iff {backend : Backend} {source : List Char} {result : Except Crash Outcome} :
    execute backend source = result ↔ backend.Executes source result := by
  constructor
  · rintro rfl
    unfold execute
    split
    · rename_i crashed
      rw [Outcome.ofText_eq]
      exact .fail (.crash crashed)
    · rename_i failure failed
      cases failure with
      | located diagnostic => exact .reject failed
      | message text =>
          rw [Outcome.ofFailure, Outcome.ofText_eq]
          exact .fail (.message failed)
      | unknown =>
          rw [Outcome.ofFailure, Outcome.ofText_eq]
          exact .fail (.unknown failed)
    · rename_i compiled made
      split
      · rename_i counted
        exact .breakContract (.crash made counted)
      · rename_i counted
        exact .breakContract (.fault made counted)
      · rename_i counted
        exact .succeed made counted
  · intro executes
    cases executes with
    | breakContract breaks =>
        cases breaks with
        | crash made crashed => simp [execute, made, crashed]
        | fault made rejected => simp [execute, made, rejected]
    | succeed made counted => simp [execute, made, counted]
    | reject rejected => simp [execute, rejected, Outcome.ofFailure]
    | fail fails =>
        rw [← Outcome.ofText_eq]
        cases fails with
        | message failed => simp [execute, failed, Outcome.ofFailure]
        | unknown failed => simp [execute, failed, Outcome.ofFailure]
        | crash crashed => simp [execute, crashed, Crash.message]

/-- A job crashes when the contract is broken over its compiled code, and never otherwise. -/
theorem execute_eq_error_iff {backend : Backend} {source : List Char} {crash : Crash} :
    execute backend source = .error crash ↔ backend.BreaksContract source crash := by
  rw [execute_iff]
  constructor
  · rintro ⟨breaks⟩
    exact breaks
  · exact .breakContract

/-- A job crashes exactly over code that the compiler has made and whose steps are not counted. -/
theorem exists_execute_eq_error_iff {backend : Backend} {source : List Char} :
    (∃ crash, execute backend source = .error crash) ↔
      ∃ compiled, backend.compile source = .ok (.ok compiled) ∧
        ∀ steps, backend.totalSteps compiled.code ≠ .ok (.ok steps) := by
  simp only [execute_eq_error_iff]
  constructor
  · rintro ⟨crash, breaks⟩
    cases breaks with
    | crash made crashed => exact ⟨_, made, by simp [crashed]⟩
    | fault made rejected => exact ⟨_, made, by simp [rejected]⟩
  · rintro ⟨compiled, made, uncounted⟩
    cases counted : backend.totalSteps compiled.code with
    | error crash => exact ⟨crash, .crash made counted⟩
    | ok answer =>
        cases answer with
        | error fault => exact ⟨_, .fault made counted⟩
        | ok steps => exact absurd counted (uncounted steps)

/-! ## Outcomes -/

/-- A job succeeds when its list is compiled and its steps are counted. The bytes of the frame are
cut into ten nanoseconds a step, the mask, and the code. -/
theorem execute_eq_success_iff {backend : Backend} {source : List Char} {frame : Frame} :
    execute backend source = .ok (.success frame) ↔
      ∃ compiled steps duration, backend.compile source = .ok (.ok compiled) ∧
        backend.totalSteps compiled.code = .ok (.ok steps) ∧
        duration.toNat = 10 * steps.toNat % 2 ^ 64 ∧
        Frame.decode frame.encode = .ok ⟨⟨duration, compiled.ttlMask⟩, compiled.code⟩ := by
  rw [execute_iff, Frame.decode_encode]
  constructor
  · intro executes
    cases executes with
    | succeed made counted => exact ⟨_, _, _, made, counted, toNat_nanoseconds _, rfl⟩
  · rintro ⟨compiled, steps, duration, made, counted, lasts, same⟩
    obtain rfl : duration = nanoseconds steps :=
      UInt64.toNat_inj.mp (lasts.trans (toNat_nanoseconds steps).symm)
    cases same
    exact .succeed made counted

theorem execute_eq_rejected_iff {backend : Backend} {source : List Char} {diagnostic : Diagnostic} :
    execute backend source = .ok (.rejected diagnostic) ↔
      backend.compile source = .ok (.error (.located diagnostic)) := by
  rw [execute_iff]
  constructor
  · intro executes
    cases executes with
    | reject rejected => exact rejected
  · exact .reject

theorem execute_eq_failed_iff {backend : Backend} {source : List Char} {text : String} :
    execute backend source = .ok (.failed text) ↔
      ∃ words, backend.FailsWith source words ∧
        text = if words = "" then "Unknown parser error" else words := by
  rw [execute_iff]
  constructor
  · intro executes
    cases executes with
    | fail fails => exact ⟨_, fails, rfl⟩
  · rintro ⟨words, fails, rfl⟩
    exact .fail fails

/-! ## What handlers are given -/

/-- A factory as it is in a monad in which it does nothing but make errors. -/
def ErrorFactory.lift {ε : Type} (m : Type → Type) [Monad m] (factory : ErrorFactory Id ε) :
    ErrorFactory m ε where
  located message line lineNumber column rangeStart rangeStop :=
    pure (factory.located message line lineNumber column rangeStart rangeStop).run
  generic text := pure (factory.generic text).run

namespace Outcome

/-- The outcome that a handler is told of. -/
def ofDelivered : Except DeliveredError Frame → Outcome
  | .ok frame => .success frame
  | .error (.located diagnostic) => .rejected diagnostic
  | .error (.generic text) => .failed text

@[simp]
theorem ofDelivered_delivered (outcome : Outcome) : ofDelivered outcome.delivered = outcome := by
  cases outcome <;> rfl

/-- A handler is called once, with what there is to tell. -/
theorem dispatch_lift {m : Type → Type} [Monad m] [LawfulMonad m]
    (handler : Except DeliveredError Frame → m Unit) (outcome : Outcome) :
    outcome.dispatch (DeliveredError.factory.lift m) handler = handler outcome.delivered := by
  cases outcome <;> simp [dispatch, deliver, ErrorFactory.lift, delivered]

end Outcome

/-- What holds of a backend and a source: the outcome says what the backend did. -/
structure Classifies (backend : Backend) (source : List Char) : Prop where
  /-- A job crashes exactly when the list is compiled and its steps are not counted. -/
  raises : (∃ crash, execute backend source = .error crash) ↔
    ∃ compiled, backend.compile source = .ok (.ok compiled) ∧
      ∀ steps, backend.totalSteps compiled.code ≠ .ok (.ok steps)
  /-- The crash is that of the estimator, or says what it has against the code. -/
  crash : ∀ crash, execute backend source = .error crash ↔ backend.BreaksContract source crash
  /-- The frame of a job that succeeds is cut into ten nanoseconds for each step, counted modulo
  2 ^ 64, and the mask and the code that the compiler has made. -/
  success : ∀ frame, execute backend source = .ok (.success frame) ↔
    ∃ compiled steps duration, backend.compile source = .ok (.ok compiled) ∧
      backend.totalSteps compiled.code = .ok (.ok steps) ∧
      duration.toNat = 10 * steps.toNat % 2 ^ 64 ∧
      Frame.decode frame.encode = .ok ⟨⟨duration, compiled.ttlMask⟩, compiled.code⟩
  /-- An error with a place is passed on as it is. -/
  rejected : ∀ diagnostic, execute backend source = .ok (.rejected diagnostic) ↔
    backend.compile source = .ok (.error (.located diagnostic))
  /-- Any other failure is told with the words that there are for it, if they say anything. -/
  failed : ∀ text, execute backend source = .ok (.failed text) ↔
    ∃ words, backend.FailsWith source words ∧
      text = if words = "" then "Unknown parser error" else words
  /-- No failure is told with nothing. -/
  spoken : execute backend source ≠ .ok (.failed "")
  /-- With the errors that are made by default, a handler is called and nothing else is done. -/
  dispatched : ∀ {m : Type → Type} [Monad m] [LawfulMonad m]
    (handler : Except DeliveredError Frame → m Unit) (outcome : Outcome),
    outcome.dispatch (DeliveredError.factory.lift m) handler = handler outcome.delivered
  /-- A handler that writes down what it is given writes one thing down. -/
  once : ∀ (outcome : Outcome) (written : List (Except DeliveredError Frame)),
    (outcome.dispatch (DeliveredError.factory.lift (StateM (List (Except DeliveredError Frame))))
      fun delivered => modify (· ++ [delivered])).run written =
        ((), written ++ [outcome.delivered])
  /-- The outcome can be told from that. -/
  recovered : ∀ outcome : Outcome, Outcome.ofDelivered outcome.delivered = outcome

/-- Whatever a backend does with a source, the outcome of the job says it. -/
theorem classifies (backend : Backend) (source : List Char) : Classifies backend source where
  raises := exists_execute_eq_error_iff
  crash _ := execute_eq_error_iff
  success _ := execute_eq_success_iff
  rejected _ := execute_eq_rejected_iff
  failed _ := execute_eq_failed_iff
  spoken := by
    intro silent
    obtain ⟨words, -, empty⟩ := execute_eq_failed_iff.mp silent
    split at empty
    · exact absurd empty (by decide)
    · rename_i wordy
      exact wordy empty.symm
  dispatched := Outcome.dispatch_lift
  once outcome written := by
    rw [Outcome.dispatch_lift]
    rfl
  recovered := Outcome.ofDelivered_delivered

end Sequencer
