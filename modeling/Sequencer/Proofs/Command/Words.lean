import Sequencer.Proofs.Command.Reading
import Sequencer.Proofs.Token.Words

/-!
# Reading with places in words

A source shorter than `2 ^ 32` bytes is read with places in words as it is read with exact ones
(`Program.ofText?_eq`). What is read of a longer one has places that may be wrong, but no other
instructions (`Program.exists_ofText_of_ofText?`).
-/

namespace Sequencer

open Sequencer.Source Sequencer.Text

theorem Stream.map_content_inWords (stream : Stream) :
    stream.inWords.lexemes.map Lexeme.content = stream.lexemes.map Lexeme.content :=
  List.map_map

namespace Program

variable {limits : Limits} {source text : List Char}

/-- With places in words, a source shorter than `2 ^ 32` bytes is read as with exact ones. -/
theorem ofText?_eq (limits : Limits) (short : byteLength source < 2 ^ 32) :
    ofText? limits source = some (ofText limits source) := by
  rw [ofText?, Stream.ofText?_eq 0 short]
  rfl

/-- What is read with places in words is read with exact places, too. -/
theorem exists_ofText_of_ofText? {statements : List Statement}
    (read : ofText? limits source = some (.ok statements)) :
    ∃ statements', ofText limits source = .ok statements' ∧
      statements'.map Statement.toInstruction = statements.map Statement.toInstruction := by
  obtain ⟨stream, made, answered⟩ := Option.map_eq_some_iff.mp read
  obtain ⟨table, -, rfl⟩ := Option.map_eq_some_iff.mp made
  have same := (Stream.ofText 0 source).map_content_inWords.trans
    (Stream.map_content_ofText 0 source)
  exact ofText_eq_ok_iff.mpr (exists_tree_of_answer same answered)

/-- An error ends behind its start, inside of the source. -/
theorem span_le_of_eq_error {error : ParseError} (failed : ofText limits source = .error error) :
    error.span.start ≤ error.span.stop ∧ error.span.stop ≤ byteLength source := by
  obtain ⟨passed, later, tokens, cause, reads, rfl⟩ := exists_reads_of_eq_error failed
  cases later with
  | nil => exact ⟨Nat.le_refl _, Nat.le_refl _⟩
  | cons item others =>
      have bound := Stream.byteLength_textOf_le source
      rw [reads.items, Scan.textOf_append, byteLength_append] at bound
      have inside : (left source passed (item :: others)).front ∈
          Stream.place 0 (byteLength (Scan.textOf passed)) (item :: others) :=
        List.mem_cons_self
      obtain ⟨ordered, stop⟩ := Stream.stop_le_of_mem_place inside
      exact ⟨ordered, stop.trans bound⟩

/-- A text behind blanks is read from its own items, whose places begin again at zero behind the
greatest word. -/
theorem ofText?_indented (limits : Limits) (count : Nat) (single : '\n' ∉ text) :
    ofText? limits (indented count text) =
      some (parse limits (Stream.inWords ⟨Stream.place 0 count (Scan.ofText text).items,
        ⟨0, count + byteLength text, count + byteLength text⟩⟩)).answer := by
  rw [ofText?, Stream.ofText?_indented 0 count single]
  rfl

end Program

end Sequencer
