import Sequencer.Proofs.Command.Joining
import Sequencer.Proofs.Job.Execution

/-!
# Compiling joined sources

Compiling two texts with a line feed between them puts their codes together. The first error of the
two is also that of both together, and its diagnostic changes only in what the line feed changes: in
the number of its line, or in a message that tells of the end of input.
-/

namespace Sequencer

open Sequencer.Source Sequencer.Text

/-! ## Diagnostics -/

/-- An error in the second of two texts is shown as in that text alone, further down. -/
theorem ParseError.diagnostic_shift (first second : List Char) (error : ParseError) :
    ParseError.diagnostic ⟨error.span.shift (byteLength first + 1), error.cause⟩
        (first ++ '\n' :: second) =
      { error.diagnostic second with
        lineNumber := (error.diagnostic second).lineNumber + 1 + first.count '\n' } := by
  have highlight : ParseError.highlight ⟨error.span.shift (byteLength first + 1), error.cause⟩ =
      error.highlight.map (Span.shift (byteLength first + 1)) := by
    unfold ParseError.highlight
    split <;> rfl
  have down (number : Nat) : number + 1 + first.count '\n' =
      (LineTable.ofText first).count + number := by
    rw [LineTable.count_ofText]
    omega
  rw [ParseError.diagnostic, highlight, down]
  exact Diagnostic.locate_append_right first second _ error.span error.highlight

/-- A sentence, and the same sentence with the end of a line in the place of the end of input. -/
def TellsOfLineEnd (message message' : String) : Prop :=
  (∀ beginning, message = beginning ++ "end of input" → message' = beginning ++ "end of line") ∧
    ((∀ beginning, message ≠ beginning ++ "end of input") → message' = message)

theorem ParseError.message_diagnostic (error : ParseError) (source : List Char) :
    (error.diagnostic source).message = error.message :=
  Diagnostic.message_locate ..

theorem ParseError.diagnostic_of_not_isLiteral {error : ParseError}
    (notLiteral : error.cause.isLiteral = false) (source : List Char) :
    error.diagnostic source = Diagnostic.locate source error.message error.span none := by
  simp [diagnostic, highlight, notLiteral]

theorem ParseError.diagnostic_append_left (error : ParseError) {first : List Char}
    (start : error.span.start ≤ byteLength first) (stop : error.span.stop ≤ byteLength first)
    (second : List Char) :
    error.diagnostic (first ++ '\n' :: second) = error.diagnostic first := by
  refine Diagnostic.locate_append_left start fun stretch same => ?_
  unfold highlight at same
  split at same
  · cases same
    exact stop
  · cases same

/-- The first error of a text is shown in the same place in front of more text. -/
theorem ParseError.exists_diagnostic_append {limits : Limits} {first : List Char}
    {error : ParseError} (failed : Program.ofText limits first = .error error)
    (second : List Char) :
    ∃ error' message, Program.ofText limits (first ++ '\n' :: second) = .error error' ∧
      error'.diagnostic (first ++ '\n' :: second) =
        { error.diagnostic first with message := message } ∧
      TellsOfLineEnd (error.diagnostic first).message message := by
  obtain ⟨passed, later, tokens, cause, reads, rfl⟩ := Program.exists_reads_of_eq_error failed
  cases later with
  | nil =>
      obtain ⟨names, ending, span, ends, start, failed'⟩ := reads.append_of_end second
      obtain ⟨beginning, message, notLiteral, others⟩ := ParseError.Cause.exists_message_eq names
      obtain ⟨message', notLiteral'⟩ := others .endOfLine
      refine ⟨_, beginning ++ "end of line", failed', ?_, ?_, ?_⟩
      · rw [diagnostic_of_not_isLiteral notLiteral', diagnostic_of_not_isLiteral notLiteral,
          ParseError.message, message']
        exact Diagnostic.locate_append_atEnd ends start rfl _
      · intro beginning' same
        rw [message_diagnostic] at same
        have same' := congrArg String.toList (message.symm.trans same)
        rw [String.toList_append, String.toList_append] at same'
        rw [String.toList_inj.mp (List.append_cancel_right same')]
      · intro different
        rw [message_diagnostic] at different
        exact absurd message (different beginning)
  | cons item later =>
      obtain ⟨more, reads'⟩ := reads.append_of_item second
      obtain ⟨start, stop⟩ := reads.front_le
      have notEnd : cause.found? ≠ some .endOfInput := fun names =>
        List.cons_ne_nil item later
          (reads.later_eq_nil ((reads.gives.agrees rfl).found_eq names))
      refine ⟨_, _, reads'.ofText_eq_error, diagnostic_append_left _ start stop second, ?_,
        fun _ => rfl⟩
      intro beginning same
      rw [message_diagnostic] at same
      exact absurd same (ParseError.Cause.message_ne_of_found?_ne notEnd beginning)

/-! ## Compiling -/

section

variable {limits : Limits} {source : List Char} {passed later : List Item} {tokens : List Token}

theorem Program.compile_append (first second : List Instruction) :
    Program.compile (first ++ second) =
      ⟨(Program.compile first).code ++ (Program.compile second).code,
        (Program.compile first).ttlMask ||| (Program.compile second).ttlMask⟩ := by
  simp [Program.compile]

theorem compile_eq_ok_of_reads {instructions : List Instruction}
    (reads : Program.Reads limits source passed later tokens (.ok instructions)) :
    compile limits source = .ok (Program.compile instructions) ∧
      totalSteps (Program.compile instructions).code =
        .ok (UInt64.ofNat (Program.steps instructions)) := by
  obtain ⟨statements, read, rfl⟩ := reads.exists_statements
  refine ⟨?_, totalSteps_encode (Program.inRange_of_ofText read)⟩
  rw [compile, read]

theorem exists_reads_of_compile {compiled : Compiled}
    (done : compile limits source = .ok compiled) :
    ∃ passed tokens instructions, Program.Reads limits source passed [] tokens (.ok instructions) ∧
      compiled = Program.compile instructions := by
  unfold compile at done
  split at done
  · cases done
  · rename_i statements read
    cases done
    obtain ⟨passed, tokens, reads⟩ := Program.exists_reads_of_eq_ok read
    exact ⟨passed, tokens, _, reads, rfl⟩

theorem exists_error_of_compile {diagnostic : Diagnostic}
    (failed : compile limits source = .error diagnostic) :
    ∃ error, Program.ofText limits source = .error error ∧
      diagnostic = error.diagnostic source := by
  unfold compile at failed
  split at failed
  · rename_i error failure
    cases failed
    exact ⟨error, failure, rfl⟩
  · cases failed

end

/-- What compiling two texts with a line feed between them comes to. -/
structure CompilesInTurn (limits : Limits) (first second : List Char) : Prop where
  /-- Both together are compiled if and only if each of them is. -/
  succeeds : (∃ compiled, compile limits (first ++ '\n' :: second) = .ok compiled) ↔
    (∃ compiled, compile limits first = .ok compiled) ∧
      ∃ compiled, compile limits second = .ok compiled
  /-- The codes are put together, and so are the masks and the steps. -/
  joins : ∀ compiled compiled', compile limits first = .ok compiled →
    compile limits second = .ok compiled' →
    compile limits (first ++ '\n' :: second) =
        .ok ⟨compiled.code ++ compiled'.code, compiled.ttlMask ||| compiled'.ttlMask⟩ ∧
      ∃ steps steps', totalSteps compiled.code = .ok steps ∧
        totalSteps compiled'.code = .ok steps' ∧
        totalSteps (compiled.code ++ compiled'.code) = .ok (steps + steps')
  /-- An error of the second text is shown further down. -/
  errorBehind : ∀ compiled diagnostic, compile limits first = .ok compiled →
    compile limits second = .error diagnostic →
    compile limits (first ++ '\n' :: second) =
      .error { diagnostic with lineNumber := diagnostic.lineNumber + 1 + first.count '\n' }
  /-- An error of the first text is shown as before, but a message that tells of the end of input
  tells of the end of a line. -/
  errorBefore : ∀ diagnostic, compile limits first = .error diagnostic →
    ∃ message, compile limits (first ++ '\n' :: second) =
        .error { diagnostic with message := message } ∧
      TellsOfLineEnd diagnostic.message message

section

variable {limits : Limits} {first second : List Char}

/-- Two programs are put together. -/
theorem compile_append_of_ok {compiled compiled' : Compiled}
    (done : compile limits first = .ok compiled) (done' : compile limits second = .ok compiled') :
    compile limits (first ++ '\n' :: second) =
        .ok ⟨compiled.code ++ compiled'.code, compiled.ttlMask ||| compiled'.ttlMask⟩ ∧
      ∃ steps steps', totalSteps compiled.code = .ok steps ∧
        totalSteps compiled'.code = .ok steps' ∧
        totalSteps (compiled.code ++ compiled'.code) = .ok (steps + steps') := by
  obtain ⟨passed, tokens, instructions, reads, rfl⟩ := exists_reads_of_compile done
  obtain ⟨passed', tokens', instructions', reads', rfl⟩ := exists_reads_of_compile done'
  obtain ⟨joined, readsBoth, -⟩ := reads.append reads'
  obtain ⟨compiled, steps⟩ := compile_eq_ok_of_reads readsBoth
  rw [Program.compile_append] at compiled steps
  rw [Program.steps_append, UInt64.ofNat_add] at steps
  exact ⟨compiled, _, _, (compile_eq_ok_of_reads reads).2, (compile_eq_ok_of_reads reads').2, steps⟩

/-- Behind a program the error of the second text is shown. -/
theorem compile_append_of_ok_of_error {compiled : Compiled} {diagnostic : Diagnostic}
    (done : compile limits first = .ok compiled)
    (failed : compile limits second = .error diagnostic) :
    compile limits (first ++ '\n' :: second) =
      .error { diagnostic with lineNumber := diagnostic.lineNumber + 1 + first.count '\n' } := by
  obtain ⟨passed, tokens, instructions, reads, rfl⟩ := exists_reads_of_compile done
  obtain ⟨error, read, rfl⟩ := exists_error_of_compile failed
  obtain ⟨passed', later', tokens', cause, reads', rfl⟩ := Program.exists_reads_of_eq_error read
  obtain ⟨joined, readsBoth, front⟩ := reads.append reads'
  have failedBoth := readsBoth.ofText_eq_error
  rw [front] at failedBoth
  rw [compile, failedBoth]
  exact congrArg _ (ParseError.diagnostic_shift first second
    ⟨(Program.left second passed' later').front.span, cause⟩)

/-- The error of the first text is shown whatever the second is. -/
theorem compile_append_of_error {diagnostic : Diagnostic}
    (failed : compile limits first = .error diagnostic) (second : List Char) :
    ∃ message, compile limits (first ++ '\n' :: second) =
        .error { diagnostic with message := message } ∧
      TellsOfLineEnd diagnostic.message message := by
  obtain ⟨error, read, rfl⟩ := exists_error_of_compile failed
  obtain ⟨error', message, read', shown, tells⟩ :=
    ParseError.exists_diagnostic_append read second
  refine ⟨message, ?_, tells⟩
  rw [compile, read']
  exact congrArg _ shown

end

/-- A text and what follows it behind a line feed are compiled in turn. -/
theorem compile_append_lineFeed (limits : Limits) (first second : List Char) :
    CompilesInTurn limits first second := by
  refine ⟨⟨?_, ?_⟩, fun _ _ => compile_append_of_ok, fun _ _ => compile_append_of_ok_of_error,
    fun _ failed => compile_append_of_error failed second⟩
  · rintro ⟨compiled, done⟩
    cases first' : compile limits first with
    | error diagnostic =>
        obtain ⟨message, failed, -⟩ := compile_append_of_error first' second
        rw [done] at failed
        cases failed
    | ok compiled =>
        cases second' : compile limits second with
        | error diagnostic =>
            rw [compile_append_of_ok_of_error first' second'] at done
            cases done
        | ok compiled' => exact ⟨⟨compiled, rfl⟩, compiled', rfl⟩
  · rintro ⟨⟨compiled, done⟩, compiled', done'⟩
    exact ⟨_, (compile_append_of_ok done done').1⟩

/-- A value that is missing at the end of a first text. The carriage return belongs to the line end
then. -/
theorem compile_append_lineFeed_missing_value :
    compile {} "freq(0)=\r".toList =
        .error { message := "expected frequency, found end of input", line := "freq(0)="
                 lineNumber := 1, column := 9 } ∧
      compile {} ("freq(0)=\r".toList ++ '\n' :: "wait(1)".toList) =
        .error { message := "expected frequency, found end of line", line := "freq(0)="
                 lineNumber := 1, column := 9 } := by
  have failed : compile {} "freq(0)=\r".toList =
      .error { message := "expected frequency, found end of input", line := "freq(0)="
               lineNumber := 1, column := 9 } := by
    decide +kernel
  obtain ⟨message, both, tells, -⟩ :=
    (compile_append_lineFeed {} "freq(0)=\r".toList "wait(1)".toList).errorBefore _ failed
  obtain rfl := tells "expected frequency, found " rfl
  exact ⟨failed, both⟩

end Sequencer
