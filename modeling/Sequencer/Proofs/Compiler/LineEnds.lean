import Sequencer.Proofs.Compiler.Pointing
import Sequencer.Proofs.Token.LineEnds

/-!
# Line ends do not matter

A source whose lines end with line feeds alone is compiled to the same code and mask as the same
source with a carriage return in front of every line feed, or it fails with the same diagnostic
(`compile_withReturns`). The same tokens are passed, and an error stands in the same column of the
same line, since the carriage returns stand behind the text of the lines.
-/

namespace Sequencer

open Sequencer.Source Sequencer.Text

/-! ## Lines -/

namespace Source

variable {before rest : List Char}

@[simp]
theorem count_withReturns (text : List Char) : (withReturns text).count '\n' = text.count '\n' := by
  induction text with
  | nil => rfl
  | cons c rest inductionHypothesis =>
      by_cases lineFeed : c = '\n' <;> simp [lineFeed, inductionHypothesis]

@[simp]
theorem lastLine_withReturns (text : List Char) : lastLine (withReturns text) = lastLine text := by
  rcases notMem_or_eq_append_lastLine text with single | ⟨earlier, parts⟩
  · rw [withReturns_of_notMem single]
  · conv_lhs => rw [parts]
    have behind : withReturns (earlier ++ '\n' :: lastLine text) =
        (withReturns earlier ++ ['\r']) ++ '\n' :: lastLine text := by
      simp [withReturns_of_notMem (notMem_lastLine text)]
    rw [behind, lastLine_append_lineFeed, lastLine_of_notMem (notMem_lastLine text)]

/-- The text of a line leaves out the carriage return that stands in front of its line feed. -/
theorem trimReturn_withReturns (plain : IsPlain (before ++ rest)) :
    trimReturn (lastLine (withReturns before) ++ firstLine (withReturns rest)) =
      trimReturn (lastLine before ++ firstLine rest) := by
  rw [lastLine_withReturns]
  rcases notMem_or_eq_firstLine_append rest with single | ⟨after, parts⟩
  · rw [withReturns_of_notMem single]
  · have longer : firstLine (withReturns rest) = firstLine rest ++ ['\r'] := by
      have behind : withReturns (firstLine rest ++ '\n' :: after) =
          (firstLine rest ++ ['\r']) ++ '\n' :: withReturns after := by
        simp [withReturns_of_notMem (notMem_firstLine rest)]
      conv_lhs => rw [parts]
      rw [behind, firstLine_append_lineFeed, firstLine_of_notMem]
      simpa using notMem_firstLine rest
    have whole : (lastLine before ++ firstLine rest).getLast? ≠ some '\r' := by
      intro last
      rw [parts, ← List.append_assoc] at plain
      refine plain.getLast?_ne ?_
      rw [List.getLast?_append] at last ⊢
      cases behind : (firstLine rest).getLast? with
      | some c => rwa [behind] at last
      | none =>
          rw [behind, Option.none_or] at last
          rw [Option.none_or]
          exact getLast?_of_lastLine last
    rw [longer, ← List.append_assoc, trimReturn, trimReturn, if_neg whole]
    simp

end Source

/-! ## Diagnostics -/

namespace ParseError

variable {before rest after literal : List Char} {stop stop' : Nat} {cause : Cause}

/-- An error that is about no literal is shown in the same column of the same line. -/
theorem diagnostic_withReturns_of_not_isLiteral (plain : IsPlain (before ++ rest))
    (notLiteral : cause.isLiteral = false) :
    diagnostic ⟨⟨0, byteLength (withReturns before), stop'⟩, cause⟩
        (withReturns before ++ withReturns rest) =
      diagnostic ⟨⟨0, byteLength before, stop⟩, cause⟩ (before ++ rest) := by
  rw [diagnostic_of_not_isLiteral notLiteral, diagnostic_of_not_isLiteral notLiteral,
    Diagnostic.locate_append, Diagnostic.locate_append, trimReturn_withReturns plain,
    lastLine_withReturns, count_withReturns]
  rfl

/-- An error about a literal is shown in the same columns of the same line. -/
theorem diagnostic_withReturns_of_isLiteral (plain : IsPlain (before ++ (literal ++ after)))
    (isLiteral : cause.isLiteral = true) (filled : literal ≠ [])
    (goesOn : ∀ c ∈ literal, Scan.IsLetter c ∨ Scan.IsDigit c) :
    diagnostic
        ⟨⟨0, byteLength (withReturns before),
          byteLength (withReturns before ++ withReturns literal)⟩, cause⟩
        (withReturns before ++ (withReturns literal ++ withReturns after)) =
      diagnostic ⟨⟨0, byteLength before, byteLength (before ++ literal)⟩, cause⟩
        (before ++ (literal ++ after)) := by
  obtain ⟨single, ends⟩ := Scan.inLine_of_goesOn goesOn
  have shown := trimReturn_withReturns plain
  rw [withReturns_append, withReturns_of_notMem single,
    trimReturn_append_literal _ _ filled single ends, lastLine_withReturns,
    trimReturn_append_literal _ _ filled single ends] at shown
  rw [withReturns_of_notMem single, diagnostic, diagnostic, highlight_of_isLiteral isLiteral,
    highlight_of_isLiteral isLiteral, Diagnostic.locate_append_literal _ _ filled single ends,
    Diagnostic.locate_append_literal _ _ filled single ends, lastLine_withReturns,
    count_withReturns, shown]
  rfl

end ParseError

/-! ## Compiling -/

namespace Program

variable {limits : Limits} {source : List Char} {passed later : List Item} {tokens : List Token}
  {cause : ParseError.Cause}

/-- With carriage returns the same tokens are passed, and the same is found behind them. -/
theorem Reads.withReturns {answer : Except ParseError.Cause (List Instruction)}
    (plain : IsPlain source) (reads : Reads limits source passed later tokens answer) :
    Reads limits (Source.withReturns source) (passed.map Item.withReturns)
      (later.map Item.withReturns) tokens answer where
  items := by rw [Scan.ofText_withReturns plain, reads.items, List.map_append]
  contents := by
    rw [List.map_map, ← reads.contents]
    rfl
  gives := by
    have found : (left (Source.withReturns source) (passed.map Item.withReturns)
        (later.map Item.withReturns)).front.content = (left source passed later).front.content := by
      cases later <;> rfl
    exact found ▸ reads.gives

/-- So an error is shown as before. -/
theorem Reads.diagnostic_withReturns (plain : IsPlain source)
    (reads : Reads limits source passed later tokens (.error cause)) :
    ParseError.diagnostic
        ⟨(left (Source.withReturns source) (passed.map Item.withReturns)
          (later.map Item.withReturns)).front.span, cause⟩ (Source.withReturns source) =
      ParseError.diagnostic ⟨(left source passed later).front.span, cause⟩ source := by
  cases later with
  | nil =>
      rw [← List.append_nil source] at plain
      have shown (stop stop' : Nat) :
          ParseError.diagnostic ⟨⟨0, byteLength (Source.withReturns source), stop'⟩, cause⟩
              (Source.withReturns source ++ Source.withReturns []) =
            ParseError.diagnostic ⟨⟨0, byteLength source, stop⟩, cause⟩ (source ++ []) :=
        ParseError.diagnostic_withReturns_of_not_isLiteral plain reads.isLiteral_of_end
      rw [withReturns_nil, List.append_nil, List.append_nil] at shown
      exact shown ..
  | cons item later =>
      obtain ⟨parts, filled, goesOn⟩ := reads.text_of_item
      have before : Scan.textOf (passed.map Item.withReturns) ++ item.withReturns.gap =
          Source.withReturns (Scan.textOf passed ++ item.gap) := by
        rw [Scan.textOf_withReturns, withReturns_append]
        rfl
      rw [front_left_cons, List.map_cons, front_left_cons, before]
      generalize Scan.textOf later ++ (Scan.ofText source).trailing = after at parts
      subst parts
      rw [withReturns_append _ (item.text ++ after)]
      cases literal : cause.isLiteral with
      | false => exact ParseError.diagnostic_withReturns_of_not_isLiteral plain literal
      | true =>
          rw [withReturns_append item.text]
          exact ParseError.diagnostic_withReturns_of_isLiteral plain literal filled
            (goesOn literal)

end Program

/-- A plain source is compiled to the same with carriage returns in front of its line feeds. -/
theorem compile_withReturns (limits : Limits) {source : List Char}
    (plain : ¬ ['\r', '\n'] <:+: source) :
    compile limits (withReturns source) = compile limits source := by
  cases done : compile limits source with
  | ok compiled =>
      obtain ⟨passed, tokens, instructions, reads, rfl⟩ := exists_reads_of_compile done
      exact (compile_eq_ok_of_reads (reads.withReturns plain)).1
  | error diagnostic =>
      obtain ⟨error, read, rfl⟩ := exists_error_of_compile done
      obtain ⟨passed, later, tokens, cause, reads, rfl⟩ := Program.exists_reads_of_eq_error read
      rw [compile, (reads.withReturns plain).ofText_eq_error]
      exact congrArg _ (reads.diagnostic_withReturns plain)

/-- A comment with a carriage return inside, and a DAC channel that is not there below it. -/
theorem compile_withReturns_missing_channel :
    ¬ ['\r', '\n'] <:+: "wait(5) # \r é\n\tdac(42)=0\n".toList ∧
      withReturns "wait(5) # \r é\n\tdac(42)=0\n".toList =
        "wait(5) # \r é\r\n\tdac(42)=0\r\n".toList ∧
      compile {} "wait(5) # \r é\r\n\tdac(42)=0\r\n".toList =
        .error { message := "DAC channel 42 out of range (0..4)", line := "\tdac(42)=0"
                 lineNumber := 2, column := 6, rangeStart := 6, rangeStop := 7 } := by
  have plain : ¬ ['\r', '\n'] <:+: "wait(5) # \r é\n\tdac(42)=0\n".toList := by decide +kernel
  have returns : withReturns "wait(5) # \r é\n\tdac(42)=0\n".toList =
      "wait(5) # \r é\r\n\tdac(42)=0\r\n".toList := by
    decide +kernel
  refine ⟨plain, returns, ?_⟩
  rw [← returns, compile_withReturns {} plain]
  decide +kernel

end Sequencer
