import Sequencer.Proofs.Source.Words

/-!
# Diagnostics stay in their lines

Whatever places an error names, its diagnostic shows a line of the source and columns of that line
(`Diagnostic.staysIn_locate`). With offsets in words and a source in bytes no step of showing it
fails as long as the source is shorter than the range of words and all offsets are below the
greatest word (`Diagnostic.locate?_staysIn`).
-/

namespace Sequencer

open Sequencer.Source Sequencer.Text

namespace Diagnostic

/-- A diagnostic shows a line of a source, one of the columns of that line or the column behind
them, and a range of its columns or none. -/
structure StaysIn (source : List Char) (diagnostic : Diagnostic) : Prop where
  lineNumber_pos : 1 ≤ diagnostic.lineNumber
  lineNumber_le : diagnostic.lineNumber ≤ (LineTable.ofText source).count
  line : diagnostic.line =
    String.ofList ((LineTable.ofText source).line diagnostic.lineNumber).text
  column_pos : 1 ≤ diagnostic.column
  column_le : diagnostic.column ≤ byteLength diagnostic.line.toList + 1
  range : diagnostic.rangeStart = 0 ∧ diagnostic.rangeStop = 0 ∨
    1 ≤ diagnostic.rangeStart ∧ diagnostic.rangeStart ≤ diagnostic.rangeStop ∧
      diagnostic.rangeStop ≤ byteLength diagnostic.line.toList

variable {source : List Char} {message : String} {span : Span} {highlight : Option Span}

theorem StaysIn.withRange {diagnostic : Diagnostic} {first last : Nat}
    (stays : diagnostic.StaysIn source) (positive : 1 ≤ first) (ordered : first ≤ last)
    (inside : last ≤ byteLength diagnostic.line.toList) :
    (diagnostic.withRange first last).StaysIn source :=
  { stays with range := .inr ⟨positive, ordered, inside⟩ }

/-- An error is shown in a line of its source, whatever offsets it has. -/
theorem staysIn_locate (source : List Char) (message : String) (span : Span)
    (highlight : Option Span) : (locate source message span highlight).StaysIn source := by
  obtain ⟨positive, inside⟩ := LineTable.position_fst_mem source span.start
  have located : StaysIn source
      { message
        line := String.ofList ((LineTable.ofText source).line
          ((LineTable.ofText source).position span.start).1).text
        lineNumber := ((LineTable.ofText source).position span.start).1
        column := min ((LineTable.ofText source).position span.start).2
          (byteLength ((LineTable.ofText source).line
            ((LineTable.ofText source).position span.start).1).text + 1) } := by
    refine ⟨positive, inside, rfl, ?_, ?_, .inl ⟨rfl, rfl⟩⟩
    · exact Nat.le_min.mpr ⟨Nat.le_add_left .., Nat.le_add_left ..⟩
    · rw [String.toList_ofList]
      exact Nat.min_le_right ..
  cases highlight with
  | none => exact located
  | some stretch =>
      simp only [locate]
      split
      · exact located
      · split
        · rename_i fits
          refine located.withRange (Nat.le_add_left ..) fits.2.2 ?_
          rw [String.toList_ofList]
          exact Nat.min_le_right ..
        · exact located

/-- With offsets below the greatest word an error is shown in words as it is shown in numbers. -/
theorem locate?_eq (short : byteLength source < 2 ^ 32) (start : span.start < 2 ^ 32 - 1)
    (stretches : ∀ stretch, highlight = some stretch →
      stretch.start < 2 ^ 32 - 1 ∧ stretch.stop < 2 ^ 32) :
    locate? source message span highlight = some (locate source message span highlight) := by
  obtain ⟨table, scanned, stores⟩ := WordTable.exists_ofBytes?_eq short
  have word {offset : Nat} (small : offset < 2 ^ 32) : (UInt32.ofNat offset).toNat = offset :=
    UInt32.toNat_ofNat_of_lt' small
  -- An offset in a word has the line and the column that it has as a number.
  have positions {offset : UInt32} {place : Nat} (same : offset.toNat = place)
      (small : place < 2 ^ 32 - 1) :
      ∃ number column, table.position? offset = some (number, column) ∧
        (LineTable.ofText source).position place = (number.toNat, column.toNat) := by
    rw [← same]
    exact stores.exists_position?_eq (same ▸ Nat.lt_sub_iff_add_lt.mp small)
  obtain ⟨number, column, found, place⟩ := positions (word (by omega)) start
  obtain ⟨positive, inside⟩ := LineTable.position_fst_mem source span.start
  rw [place] at positive inside
  have shown := stores.text?_eq positive inside
  have width := Word.toNat_ofLength
    ((WordTable.byteLength_le_of_text?_eq shown).trans_lt short)
  simp only [locate?, locate, scanned, found, place, shown, width, Word.toNat_min_sumOrGreatest,
    UInt32.toNat_one, Option.bind_eq_bind, Option.bind_some]
  cases highlight with
  | none => rfl
  | some stretch =>
      cases empty : stretch.isEmpty with
      | true => simp [Option.filter, empty]
      | false =>
          obtain ⟨startSmall, stopSmall⟩ := stretches stretch rfl
          have ordered : stretch.start < stretch.stop := by simpa [Span.isEmpty] using empty
          obtain ⟨stop, difference, stopEq⟩ := Word.exists_difference?_eq
            (UInt32.ofNat stretch.stop) 1 (by rw [word stopSmall, UInt32.toNat_one]; omega)
          rw [word stopSmall, UInt32.toNat_one] at stopEq
          obtain ⟨firstLine, first, foundFirst, placeFirst⟩ :=
            positions (word (by omega)) startSmall
          obtain ⟨lastLine, last, foundLast, placeLast⟩ := positions stopEq (by omega)
          have filled : Option.filter (fun stretch => !stretch.isEmpty) (some stretch) =
              some stretch := by
            simp [Option.filter, empty]
          have lastColumn (width : UInt32) : (min last width).toNat = min last.toNat width.toNat :=
            UInt32.toNat_min ..
          rw [filled]
          simp only [difference, foundFirst, placeFirst, foundLast, placeLast, Option.bind_some,
            UInt32.le_iff_toNat_le, lastColumn, width, ← UInt32.toNat_inj]
          rw [if_neg (Bool.eq_false_iff.mp empty)]

/-- An error at the greatest word has no column in a source without line feeds. -/
theorem locate?_eq_none (single : '\n' ∉ source) (start : span.start = 2 ^ 32 - 1) :
    locate? source message span highlight = none := by
  rw [locate?, WordTable.ofBytes?_of_notMem single, start, Option.bind_eq_bind, Option.bind_some,
    WordTable.position?_eq_none]
  rfl

/-- With offsets below the greatest word no step of showing an error fails, and the error is shown
in a line of its source. -/
theorem locate?_staysIn (short : byteLength source < 2 ^ 32) (start : span.start < 2 ^ 32 - 1)
    (stretches : ∀ stretch, highlight = some stretch →
      stretch.start < 2 ^ 32 - 1 ∧ stretch.stop < 2 ^ 32) :
    locate? source message span highlight = some (locate source message span highlight) ∧
      (locate source message span highlight).StaysIn source :=
  ⟨locate?_eq short start stretches, staysIn_locate ..⟩

/-- A stretch that begins inside of a character and goes up to the line feed. -/
theorem locate?_staysIn_cut_character :
    locate? "é\r\nab".toList "cut" ⟨0, 1, 0⟩ (some ⟨0, 1, 4⟩) =
        some { message := "cut", line := "é", lineNumber := 1, column := 2
               rangeStart := 2, rangeStop := 2 } ∧
      StaysIn "é\r\nab".toList
        { message := "cut", line := "é", lineNumber := 1, column := 2
          rangeStart := 2, rangeStop := 2 } := by
  have shown : locate "é\r\nab".toList "cut" ⟨0, 1, 0⟩ (some ⟨0, 1, 4⟩) =
      { message := "cut", line := "é", lineNumber := 1, column := 2
        rangeStart := 2, rangeStop := 2 } := by
    decide +kernel
  rw [← shown]
  exact locate?_staysIn (by decide +kernel) (by decide) (by rintro _ ⟨⟩; decide)

end Diagnostic

end Sequencer
