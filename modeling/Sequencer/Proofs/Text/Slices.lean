import Sequencer.Text.Slice

/-!
# Slices of a text

A stretch of bytes is a slice of a text if it begins and ends where characters do. Offsets that lie
behind the text, stand in the wrong order or cut a character apart give no slice
(`slice?_eq_some_iff`).
-/

namespace Sequencer.Text

theorem byteLength_pos {text : List Char} (filled : text ≠ []) : 0 < byteLength text := by
  cases text with
  | nil => exact absurd rfl filled
  | cons c rest => exact Nat.add_pos_left c.utf8Size_pos _

theorem byteLength_le_of_sublist {part text : List Char} (inside : part.Sublist text) :
    byteLength part ≤ byteLength text := by
  induction inside with
  | slnil => exact Nat.le_refl _
  | cons c inside inductionHypothesis => exact Nat.le_add_left_of_le inductionHypothesis
  | cons_cons c inside inductionHypothesis => exact Nat.add_le_add_left inductionHypothesis _

theorem splitBytes?_zero (text : List Char) : splitBytes? 0 text = some ([], text) := by
  cases text <;> rfl

theorem splitBytes?_append (first second : List Char) :
    splitBytes? (byteLength first) (first ++ second) = some (first, second) := by
  induction first with
  | nil => exact splitBytes?_zero second
  | cons c rest inductionHypothesis =>
      have more : c.utf8Size + byteLength rest ≠ 0 :=
        Nat.ne_of_gt (Nat.add_pos_left c.utf8Size_pos _)
      rw [byteLength_cons, List.cons_append, splitBytes?, if_neg more, if_pos (Nat.le_add_right ..),
        Nat.add_sub_cancel_left, inductionHypothesis]
      rfl

theorem splitBytes?_eq_some_iff {count : Nat} {text before after : List Char} :
    splitBytes? count text = some (before, after) ↔
      text = before ++ after ∧ byteLength before = count := by
  constructor
  · intro cut
    induction text generalizing count before with
    | nil =>
        by_cases none : count = 0 <;> simp [splitBytes?, none] at cut
        obtain ⟨rfl, rfl⟩ := cut
        exact ⟨rfl, none.symm⟩
    | cons c rest inductionHypothesis =>
        by_cases none : count = 0
        · rw [none, splitBytes?_zero, Option.some.injEq, Prod.mk.injEq] at cut
          obtain ⟨rfl, rfl⟩ := cut
          exact ⟨rfl, none.symm⟩
        · rw [splitBytes?, if_neg none] at cut
          split at cut
          · rename_i fits
            obtain ⟨⟨before', after'⟩, cut', same⟩ := Option.map_eq_some_iff.mp cut
            obtain ⟨rfl, rfl⟩ : c :: before' = before ∧ after' = after := by simpa using same
            obtain ⟨rfl, length⟩ := inductionHypothesis cut'
            exact ⟨rfl, by rw [byteLength_cons, length, Nat.add_sub_cancel' fits]⟩
          · cases cut
  · rintro ⟨rfl, rfl⟩
    exact splitBytes?_append before after

variable {text part : List Char} {start stop : Nat}

theorem slice?_eq_some_iff :
    slice? text start stop = some part ↔ ∃ before after, text = before ++ part ++ after ∧
      byteLength before = start ∧ byteLength before + byteLength part = stop := by
  constructor
  · intro cut
    unfold slice? at cut
    split at cut
    · rename_i ordered
      obtain ⟨⟨before, behind⟩, first, mapped⟩ := Option.bind_eq_some_iff.mp cut
      obtain ⟨⟨part', after⟩, second, rfl⟩ := Option.map_eq_some_iff.mp mapped
      obtain ⟨rfl, rfl⟩ := splitBytes?_eq_some_iff.mp first
      obtain ⟨rfl, length⟩ := splitBytes?_eq_some_iff.mp second
      exact ⟨before, after, (List.append_assoc ..).symm, rfl,
        by rw [length, Nat.add_sub_cancel' ordered]⟩
    · cases cut
  · rintro ⟨before, after, rfl, rfl, rfl⟩
    simp [slice?, splitBytes?_append]

/-- Texts are cut in one way behind a number of bytes. -/
theorem append_inj_of_byteLength {first first' second second' : List Char}
    (parts : first ++ second = first' ++ second') (same : byteLength first = byteLength first') :
    first = first' ∧ second = second' := by
  have cut := splitBytes?_append first second
  rw [parts, same, splitBytes?_append, Option.some.injEq, Prod.mk.injEq] at cut
  exact ⟨cut.1.symm, cut.2.symm⟩

/-- A slice and the slice behind it make one slice. -/
theorem slice?_trans {first second : List Char} {middle : Nat}
    (before : slice? text start middle = some first)
    (behind : slice? text middle stop = some second) :
    slice? text start stop = some (first ++ second) := by
  obtain ⟨left, right, parts, begins, ends⟩ := slice?_eq_some_iff.mp before
  obtain ⟨left', right', parts', begins', ends'⟩ := slice?_eq_some_iff.mp behind
  have same : byteLength (left ++ first) = byteLength left' := by
    rw [byteLength_append, ends, begins']
  have cut : (left ++ first) ++ right = left' ++ (second ++ right') := by
    rw [← parts, parts', List.append_assoc]
  obtain ⟨rfl, rfl⟩ := append_inj_of_byteLength cut same
  refine slice?_eq_some_iff.mpr ⟨left, right', ?_, begins, ?_⟩
  · rw [parts]
    simp
  · rw [byteLength_append, ← Nat.add_assoc, ← byteLength_append]
    exact ends'

/-- The middle of three texts is a slice of all together. -/
theorem slice?_append (before part after : List Char) :
    slice? (before ++ part ++ after) (byteLength before) (byteLength (before ++ part)) =
      some part :=
  slice?_eq_some_iff.mpr ⟨before, after, rfl, rfl, (byteLength_append ..).symm⟩

end Sequencer.Text
