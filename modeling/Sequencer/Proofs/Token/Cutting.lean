import Sequencer.Proofs.Token.Recovery

/-!
# Cutting a source at its items

A source may be cut behind an item as well as in front of one (`Scan.exists_cut`): what stands in
front of the cut and what stands behind it are scanned to the same items (`Scan.exists_cut_behind`).
The gap before the first item may be left out (`Scan.ofText_text_append`). So every stretch of items
is scanned by itself, from the text of the first item to that of the last.
-/

namespace Sequencer

open Sequencer.Text

namespace Scan

variable {source : List Char} {passed later : List Item} {item : Item}

/-- Both parts of a source that is cut behind an item are scanned as before. -/
theorem exists_cut_behind (items : (ofText source).items = passed ++ later) :
    ∃ rest, source = textOf passed ++ rest ∧ ofText (textOf passed) = ⟨passed, []⟩ ∧
      ofText rest = ⟨later, (ofText source).trailing⟩ := by
  induction passed generalizing source with
  | nil => exact ⟨source, rfl, ofText_of_next_inl rfl, by rw [← List.nil_append later, ← items]⟩
  | cons first passed inductionHypothesis =>
      cases found : next source with
      | inl trailing => simp [ofText_of_next_inl found] at items
      | inr next =>
          rcases next with ⟨next, behind⟩
          rw [ofText_of_next_inr found] at items ⊢
          obtain ⟨rfl, others⟩ := List.cons.inj items
          obtain ⟨rest, rfl, cut, scanned⟩ := inductionHypothesis others
          have parts := next_append found
          refine ⟨rest, ?_, ?_, scanned⟩
          · rw [← parts, textOf_cons]
            exact (List.append_assoc ..).symm
          · rw [textOf_cons, ofText_of_next_inr (next_of_append (parts.symm ▸ found)), cut]

/-- An item is read without the gap before it. -/
theorem next_text_append {rest : List Char} (found : next source = .inr (item, rest)) :
    next (item.text ++ rest) = .inr ({ item with gap := [] }, rest) := by
  rw [next_eq_inr_iff] at found ⊢
  obtain ⟨c, after, stops, text, content, rfl⟩ := found
  refine ⟨c, after, ?_, text, content, rfl⟩
  rw [text, List.cons_append, readFrom_append, splitGap_cons, if_neg]
  rintro ⟨inner, blank⟩
  rcases not_isBlank_of_splitGap stops with ends | filled
  · simp [inner] at ends
  · simp [filled] at blank

/-- The gap before the first item of a source may be left out. -/
theorem ofText_text_append {rest trailing : List Char}
    (scanned : ofText (item.gap ++ item.text ++ rest) = ⟨item :: later, trailing⟩) :
    ofText (item.text ++ rest) = ⟨{ item with gap := [] } :: later, trailing⟩ := by
  cases found : next (item.gap ++ item.text ++ rest) with
  | inl trailing =>
      rw [ofText_of_next_inl found] at scanned
      cases scanned
  | inr first =>
      rcases first with ⟨first, behind⟩
      rw [ofText_of_next_inr found] at scanned
      cases scanned
      obtain rfl : behind = rest := List.append_cancel_left (next_append found)
      exact ofText_of_next_inr (next_text_append found)

end Scan

end Sequencer
