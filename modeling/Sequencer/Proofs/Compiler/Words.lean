import Sequencer.Compiler
import Sequencer.Proofs.Command.Words
import Sequencer.Proofs.Compiler.Bounds

/-!
# Compiling with places in words

A source shorter than `2 ^ 32 - 1` bytes is compiled with places in words as it is compiled with
exact ones (`compile?_eq`). The end of a source of `2 ^ 32 - 1` bytes is a word, but the column
there is none, and an error at the end cannot be shown (`compile?_eq_none`).
-/

namespace Sequencer

open Sequencer.Source Sequencer.Text

variable {limits : Limits} {source : List Char} {compiled : Compiled} {error : ParseError}
  {statements : List Statement}

theorem compile?_of_error (failed : Program.ofText? limits source = some (.error error)) :
    compile? limits source = (error.diagnostic? source).map .error := by
  rw [compile?, failed]
  rfl

theorem compile?_of_ok (read : Program.ofText? limits source = some (.ok statements)) :
    compile? limits source =
      some (.ok (Program.compile (statements.map Statement.toInstruction))) := by
  rw [compile?, read]
  rfl

/-- In a source shorter than `2 ^ 32 - 1` bytes an error is shown in words as it is with exact
places. -/
theorem ParseError.diagnostic?_eq (short : byteLength source < 2 ^ 32 - 1)
    (ordered : error.span.start ≤ error.span.stop) (inside : error.span.stop ≤ byteLength source) :
    error.diagnostic? source = some (error.diagnostic source) := by
  apply Diagnostic.locate?_eq
  · omega
  · omega
  · intro stretch highlighted
    unfold highlight at highlighted
    split at highlighted <;> cases highlighted
    omega

/-- A source shorter than `2 ^ 32 - 1` bytes is compiled in words as it is with exact places. -/
theorem compile?_eq (limits : Limits) (short : byteLength source < 2 ^ 32 - 1) :
    compile? limits source = some (compile limits source) := by
  have read := Program.ofText?_eq limits (Nat.lt_of_lt_of_le short (Nat.sub_le ..))
  unfold compile
  cases answered : Program.ofText limits source with
  | ok statements =>
      rw [answered] at read
      exact compile?_of_ok read
  | error error =>
      obtain ⟨ordered, inside⟩ := Program.span_le_of_eq_error answered
      rw [answered] at read
      rw [compile?_of_error read, ParseError.diagnostic?_eq short ordered inside]
      rfl

/-- What compiles was read. -/
theorem exists_ofText?_of_compile? (done : compile? limits source = some (.ok compiled)) :
    ∃ statements, Program.ofText? limits source = some (.ok statements) ∧
      Program.compile (statements.map Statement.toInstruction) = compiled := by
  obtain ⟨answer, read, -⟩ := Option.bind_eq_some_iff.mp done
  cases answer with
  | error error =>
      rw [compile?_of_error read] at done
      obtain ⟨diagnostic, -, same⟩ := Option.map_eq_some_iff.mp done
      cases same
  | ok statements =>
      rw [compile?_of_ok read] at done
      cases done
      exact ⟨statements, read, rfl⟩

/-! ## The greatest word -/

/-- An error at the greatest word cannot be shown in a source without line feeds. -/
theorem compile?_eq_none (single : '\n' ∉ source)
    (failed : Program.ofText? limits source = some (.error error))
    (greatest : error.span.start = 2 ^ 32 - 1) :
    error.diagnostic? source = none ∧ compile? limits source = none := by
  have hidden : error.diagnostic? source = none := Diagnostic.locate?_eq_none single greatest
  refine ⟨hidden, ?_⟩
  rw [compile?_of_error failed, hidden]
  rfl

/-- An error at the end of a source as long as a source can be. -/
theorem ofText?_indented_ttl :
    Program.ofText? {} (indented (2 ^ 32 - 4) "ttl".toList) =
      some (.error ⟨⟨0, 2 ^ 32 - 1, 2 ^ 32 - 1⟩, .expectedMark .leftParen .endOfInput⟩) := by
  rw [Program.ofText?_indented {} _ (by decide), Option.some.injEq]
  decide +kernel

theorem compile?_indented_ttl : compile? {} (indented (2 ^ 32 - 4) "ttl".toList) = none :=
  (compile?_eq_none (notMem_indented (by decide)) ofText?_indented_ttl rfl).2

end Sequencer
