import Sequencer.Proofs.Compiler.Pointing
import Sequencer.Proofs.Token.Comments

/-!
# Comments make no difference

A source without its comments is compiled to the same code and mask as the source, or it fails with
the same message about the same line and the same range of columns (`compile_withoutComments`, and
`compile?_withoutComments` with places in words). A literal that an error is about stands in front
of the comment of its line, so nothing in front of it in that line is left out. The text of the line
and, at the end of a line, the column may change.
-/

namespace Sequencer

open Sequencer.Source Sequencer.Text

/-! ## Places -/

namespace Source

/-- Two places behind the same number of line feeds, with the same text of their lines in front of
them. -/
structure SamePlace (before before' : List Char) : Prop where
  lineFeeds : before.count '\n' = before'.count '\n'
  lastLine : lastLine before = lastLine before'

variable {before before' gap gap' : List Char}

theorem SamePlace.append (same : SamePlace before before') (text : List Char) :
    SamePlace (before ++ text) (before' ++ text) := by
  constructor
  · rw [List.count_append, List.count_append, same.lineFeeds]
  · rcases notMem_or_eq_append_lastLine text with single | ⟨earlier, parts⟩
    · rw [lastLine_append single, lastLine_append single, same.lastLine]
    · rw [parts, ← List.append_assoc, ← List.append_assoc, lastLine_append_lineFeed,
        lastLine_append_lineFeed]

/-- Behind line ends it does not matter how these are written. -/
theorem SamePlace.lineEnd (same : SamePlace before before') (single : '\n' ∉ gap)
    (single' : '\n' ∉ gap') :
    SamePlace (before ++ (gap ++ ['\n'])) (before' ++ (gap' ++ ['\n'])) := by
  constructor
  · simp [same.lineFeeds, List.count_eq_zero.mpr single, List.count_eq_zero.mpr single']
  · rw [← List.append_assoc, ← List.append_assoc, lastLine_append_lineFeed,
      lastLine_append_lineFeed]

end Source

namespace Scan

variable {items items' : List Item} {before before' : List Char}

theorem map_content_of_alike (alike : List.Forall₂ Item.Alike items items') :
    items'.map Item.content = items.map Item.content := by
  induction alike with
  | nil => rfl
  | cons first others inductionHypothesis =>
      rw [List.map_cons, List.map_cons, first.content_eq, inductionHypothesis]

/-- Items that are alike lead to the same place. -/
theorem samePlace_textOf (alike : List.Forall₂ Item.Alike items items')
    (same : SamePlace before before') :
    SamePlace (before ++ textOf items) (before' ++ textOf items') := by
  induction alike generalizing before before' with
  | nil => exact same.append []
  | cons first others inductionHypothesis =>
      rw [textOf_cons, textOf_cons, ← List.append_assoc before, ← List.append_assoc before']
      apply inductionHypothesis
      cases first with
      | same item => exact same.append _
      | lineEnd single single' =>
          have behind := same.lineEnd single single'
          rwa [List.append_assoc, List.append_assoc] at behind

end Scan

/-! ## Diagnostics -/

namespace ParseError

variable {before before' rest rest' literal after after' : List Char} {stop stop' : Nat}
  {cause : Cause}

/-- An error that is about no literal is shown in the line behind the same line feeds. -/
theorem exists_diagnostic_eq_of_not_isLiteral (notLiteral : cause.isLiteral = false)
    (lineFeeds : before.count '\n' = before'.count '\n') :
    ∃ line column, diagnostic ⟨⟨0, byteLength before', stop'⟩, cause⟩ (before' ++ rest') =
      { diagnostic ⟨⟨0, byteLength before, stop⟩, cause⟩ (before ++ rest) with line, column } := by
  rw [diagnostic_of_not_isLiteral notLiteral, diagnostic_of_not_isLiteral notLiteral,
    Diagnostic.locate_append, Diagnostic.locate_append, lineFeeds]
  exact ⟨_, _, rfl⟩

/-- An error about a literal is shown in the columns of the literal. -/
theorem exists_diagnostic_eq_of_isLiteral (isLiteral : cause.isLiteral = true)
    (same : SamePlace before before') (filled : literal ≠ [])
    (goesOn : ∀ c ∈ literal, Scan.IsLetter c ∨ Scan.IsDigit c) :
    ∃ line column,
      diagnostic ⟨⟨0, byteLength before', byteLength (before' ++ literal)⟩, cause⟩
          (before' ++ (literal ++ after')) =
        { diagnostic ⟨⟨0, byteLength before, byteLength (before ++ literal)⟩, cause⟩
            (before ++ (literal ++ after)) with line, column } := by
  obtain ⟨single, ends⟩ := Scan.inLine_of_goesOn goesOn
  rw [diagnostic, diagnostic, highlight_of_isLiteral isLiteral, highlight_of_isLiteral isLiteral,
    Diagnostic.locate_append_literal _ _ filled single ends,
    Diagnostic.locate_append_literal _ _ filled single ends, same.lineFeeds, same.lastLine]
  exact ⟨_, _, rfl⟩

end ParseError

/-! ## Reading -/

namespace Program

variable {limits : Limits} {source : List Char} {passed passed' later later' : List Item}
  {tokens : List Token} {cause : ParseError.Cause}

/-- Without comments the same tokens are passed, and the same is found behind them. -/
theorem Reads.exists_withoutComments {answer : Except ParseError.Cause (List Instruction)}
    (reads : Reads limits source passed later tokens answer) :
    ∃ passed' later', Reads limits (withoutComments source) passed' later' tokens answer ∧
      List.Forall₂ Item.Alike passed passed' ∧ List.Forall₂ Item.Alike later later' := by
  have alike := Scan.forall₂_alike_withoutComments source
  rw [reads.items] at alike
  have alikePassed := List.forall₂_take passed.length alike
  have alikeLater := List.forall₂_drop passed.length alike
  rw [List.take_left] at alikePassed
  rw [List.drop_left] at alikeLater
  refine ⟨_, _, ⟨(List.take_append_drop passed.length _).symm, ?_, ?_⟩, alikePassed, alikeLater⟩
  · rw [Scan.map_content_of_alike alikePassed, reads.contents]
  · have gives := reads.gives
    revert gives alikeLater
    generalize (Scan.ofText (withoutComments source)).items.drop passed.length = later'
    intro alikeLater gives
    cases alikeLater with
    | nil => exact gives
    | cons first others =>
        rw [front_left_cons] at gives ⊢
        rwa [first.content_eq]

/-- So an error is shown in the same line, with the same message and range. -/
theorem Reads.exists_diagnostic_eq (reads : Reads limits source passed later tokens (.error cause))
    (reads' : Reads limits (withoutComments source) passed' later' tokens (.error cause))
    (alikePassed : List.Forall₂ Item.Alike passed passed')
    (alikeLater : List.Forall₂ Item.Alike later later') :
    ∃ line column,
      ParseError.diagnostic ⟨(left (withoutComments source) passed' later').front.span, cause⟩
          (withoutComments source) =
        { ParseError.diagnostic ⟨(left source passed later).front.span, cause⟩ source with
          line, column } := by
  have start : SamePlace [] [] := ⟨rfl, rfl⟩
  have same : SamePlace (Scan.textOf passed) (Scan.textOf passed') :=
    Scan.samePlace_textOf alikePassed start
  cases alikeLater with
  | nil =>
      have shown (stop stop' : Nat) :
          ∃ line column,
            ParseError.diagnostic ⟨⟨0, byteLength (withoutComments source), stop'⟩, cause⟩
                (withoutComments source ++ []) =
              { ParseError.diagnostic ⟨⟨0, byteLength source, stop⟩, cause⟩ (source ++ []) with
                line, column } :=
        ParseError.exists_diagnostic_eq_of_not_isLiteral reads.isLiteral_of_end
          (count_withoutComments source).symm
      rw [List.append_nil, List.append_nil] at shown
      exact shown ..
  | @cons item item' later later' first others =>
      obtain ⟨parts, filled, goesOn⟩ := reads.text_of_item
      obtain ⟨parts', -, -⟩ := reads'.text_of_item
      have finds := reads.gives.findsLiteral rfl
      rw [front_left_cons] at finds
      generalize Scan.textOf _ ++ (Scan.ofText source).trailing = after at parts
      generalize Scan.textOf _ ++ (Scan.ofText (withoutComments source)).trailing = after' at parts'
      rw [front_left_cons, front_left_cons, parts', parts]
      cases first with
      | same item =>
          have place := same.append item.gap
          cases literal : cause.isLiteral with
          | false => exact ParseError.exists_diagnostic_eq_of_not_isLiteral literal place.lineFeeds
          | true =>
              exact ParseError.exists_diagnostic_eq_of_isLiteral literal place filled
                (goesOn literal)
      | lineEnd single single' =>
          have notLiteral : cause.isLiteral = false := by
            by_contra literal
            simpa using finds (Bool.not_eq_false _ ▸ literal)
          rw [List.mem_append, not_or] at single single'
          refine ParseError.exists_diagnostic_eq_of_not_isLiteral notLiteral ?_
          rw [List.count_append, List.count_append, List.count_eq_zero.mpr single.1,
            List.count_eq_zero.mpr single'.1, same.lineFeeds]

end Program

/-! ## Compiling -/

/-- A source without its comments is compiled if and only if the source is, to the same code and
mask. Otherwise the diagnostics differ at most in the text of the line and in the column. -/
theorem compile_withoutComments (limits : Limits) (source : List Char) :
    (∀ compiled, compile limits (withoutComments source) = .ok compiled ↔
        compile limits source = .ok compiled) ∧
      ∀ diagnostic, compile limits source = .error diagnostic →
        ∃ line column, compile limits (withoutComments source) =
          .error { diagnostic with line, column } := by
  cases done : compile limits source with
  | ok compiled =>
      obtain ⟨passed, tokens, instructions, reads, rfl⟩ := exists_reads_of_compile done
      obtain ⟨passed', later', reads', -, alikeLater⟩ := reads.exists_withoutComments
      obtain rfl := List.forall₂_nil_left_iff.mp alikeLater
      rw [(compile_eq_ok_of_reads reads').1]
      refine ⟨fun _ => Iff.rfl, fun diagnostic failed => ?_⟩
      cases failed
  | error diagnostic =>
      obtain ⟨error, read, rfl⟩ := exists_error_of_compile done
      obtain ⟨passed, later, tokens, cause, reads, rfl⟩ := Program.exists_reads_of_eq_error read
      obtain ⟨passed', later', reads', alikePassed, alikeLater⟩ := reads.exists_withoutComments
      obtain ⟨line, column, shown⟩ := reads.exists_diagnostic_eq reads' alikePassed alikeLater
      rw [compile, reads'.ofText_eq_error]
      refine ⟨fun compiled => by simp, ?_⟩
      rintro _ ⟨⟩
      exact ⟨line, column, congrArg Except.error shown⟩

end Sequencer
