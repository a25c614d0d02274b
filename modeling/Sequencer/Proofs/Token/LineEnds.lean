import Sequencer.Proofs.Token.Scanning
import Mathlib.Data.List.Infix
import Mathlib.Data.List.TakeWhile

/-!
# Line ends with carriage returns

A text whose lines end with line feeds alone can be written with a carriage return in front of each
of them (`Source.withReturns`). Both texts are cut into the same items, only that their line ends
are written differently (`Scan.ofText_withReturns`). A carriage return that ends no line is part of
a gap in both.
-/

namespace Sequencer

open Sequencer.Source

/-! ## Texts -/

namespace Source

/-- A text with a carriage return in front of every line feed. -/
def withReturns (text : List Char) : List Char :=
  text.flatMap fun c => if c = '\n' then ['\r', '\n'] else [c]

/-- No line feed of a text stands behind a carriage return. -/
def IsPlain (text : List Char) : Prop := ¬ ['\r', '\n'] <:+: text

variable {text first second : List Char}

@[simp]
theorem withReturns_nil : withReturns [] = [] :=
  rfl

@[simp]
theorem withReturns_lineFeed (rest : List Char) :
    withReturns ('\n' :: rest) = '\r' :: '\n' :: withReturns rest :=
  rfl

@[simp]
theorem withReturns_cons {c : Char} (inLine : c ≠ '\n') (rest : List Char) :
    withReturns (c :: rest) = c :: withReturns rest := by
  simp [withReturns, inLine]

@[simp]
theorem withReturns_append (first second : List Char) :
    withReturns (first ++ second) = withReturns first ++ withReturns second :=
  List.flatMap_append

theorem withReturns_of_notMem (single : '\n' ∉ text) : withReturns text = text := by
  induction text with
  | nil => rfl
  | cons c rest inductionHypothesis =>
      rw [List.mem_cons, not_or] at single
      rw [withReturns_cons (Ne.symm single.1), inductionHypothesis single.2]

/-- Every line feed has a carriage return in front of it then. -/
theorem head?_withReturns_ne (text : List Char) : (withReturns text).head? ≠ some '\n' := by
  cases text with
  | nil => simp
  | cons c rest => by_cases lineFeed : c = '\n' <;> simp [lineFeed]

theorem IsPlain.right (plain : IsPlain (first ++ second)) : IsPlain second := fun inside =>
  plain (inside.trans (List.suffix_append first second).isInfix)

theorem IsPlain.tail {c : Char} (plain : IsPlain (c :: text)) : IsPlain text :=
  have whole : IsPlain ([c] ++ text) := plain
  whole.right

theorem IsPlain.head?_ne (plain : IsPlain ('\r' :: text)) : text.head? ≠ some '\n' := by
  cases text with
  | nil => exact nofun
  | cons c rest =>
      intro same
      obtain rfl : c = '\n' := Option.some.inj same
      exact plain ⟨[], rest, rfl⟩

/-- A plain line is followed by its line feed directly. -/
theorem IsPlain.getLast?_ne (plain : IsPlain (first ++ '\n' :: second)) :
    first.getLast? ≠ some '\r' := by
  intro last
  obtain ⟨shown, rfl⟩ := List.getLast?_eq_some_iff.mp last
  exact plain ⟨shown, second, by simp⟩

end Source

/-- The same item in a text with carriage returns. -/
def Item.withReturns (item : Item) : Item :=
  { item with gap := Source.withReturns item.gap, text := Source.withReturns item.text }

/-! ## Scans -/

namespace Scan

variable {text : List Char}

@[simp]
theorem textOf_withReturns (items : List Item) :
    textOf (items.map Item.withReturns) = withReturns (textOf items) := by
  induction items with
  | nil => rfl
  | cons item rest inductionHypothesis => simp [Item.withReturns, inductionHypothesis]

theorem beginsLineEnd_withReturns {c : Char} {rest : List Char} (plain : IsPlain (c :: rest)) :
    beginsLineEnd (withReturns (c :: rest)) = beginsLineEnd (c :: rest) := by
  by_cases lineFeed : c = '\n'
  · subst lineFeed
    rfl
  · have alone : c = '\r' → rest.head? ≠ some '\n' := by
      rintro rfl
      exact plain.head?_ne
    rw [withReturns_cons lineFeed, beginsLineEnd_cons, beginsLineEnd_cons]
    simpa [lineFeed, head?_withReturns_ne] using alone

/-- A gap goes as far with carriage returns at the line ends as without them. -/
theorem splitGap_withReturns (plain : IsPlain text) (inComment : Bool) :
    splitGap inComment (withReturns text) =
      (withReturns (splitGap inComment text).1, withReturns (splitGap inComment text).2) := by
  induction text generalizing inComment with
  | nil => rfl
  | cons c rest inductionHypothesis =>
      have ends := beginsLineEnd_withReturns plain
      by_cases lineFeed : c = '\n'
      · subst lineFeed
        simp [splitGap, beginsLineEnd]
      · rw [withReturns_cons lineFeed] at ends ⊢
        rw [splitGap_cons, splitGap_cons, ends, inductionHypothesis plain.tail]
        split
        · rw [withReturns_cons lineFeed]
        · rw [withReturns_cons lineFeed]
          rfl

theorem withReturns_takeWhile_isWordPart (rest : List Char) :
    withReturns (rest.takeWhile isWordPart) = rest.takeWhile isWordPart :=
  withReturns_of_notMem fun inside => by simpa [isWordPart] using List.mem_takeWhile_imp inside

/-- Words and literals do not reach beyond their lines. -/
theorem takeWhile_isWordPart_withReturns (rest : List Char) :
    (withReturns rest).takeWhile isWordPart = rest.takeWhile isWordPart ∧
      (withReturns rest).dropWhile isWordPart = withReturns (rest.dropWhile isWordPart) := by
  induction rest with
  | nil => exact ⟨rfl, rfl⟩
  | cons c rest inductionHypothesis =>
      by_cases lineFeed : c = '\n'
      · subst lineFeed
        exact ⟨rfl, rfl⟩
      · cases part : isWordPart c <;> simp [lineFeed, part, inductionHypothesis]

theorem readFrom_withReturns {c : Char} {rest : List Char} (plain : IsPlain (c :: rest))
    (inLine : c ≠ '\n') :
    readFrom c (withReturns rest) = (withReturns (readFrom c rest).1, (readFrom c rest).2.1,
      withReturns (readFrom c rest).2.2) := by
  cases mark : isMark c with
  | true =>
      obtain ⟨token, marks⟩ := readFrom_of_isMark mark
      rw [marks, marks]
      rfl
  | false =>
      have noEnd : ¬ (c = '\r' ∧ rest.head? = some '\n') := by
        rintro ⟨rfl, first⟩
        exact plain.head?_ne first
      obtain ⟨taken, dropped⟩ := takeWhile_isWordPart_withReturns rest
      rw [readFrom_of_not_isMark mark, readFrom_of_not_isMark mark, if_neg noEnd,
        if_neg fun lineEnd => head?_withReturns_ne rest lineEnd.2, taken, dropped]
      split
      · rw [withReturns_takeWhile_isWordPart]
      · split
        · rw [withReturns_takeWhile_isWordPart]
        · rfl

/-- The first item of a text with carriage returns, and what stands behind it. -/
theorem next_withReturns (plain : IsPlain text) :
    next (withReturns text) =
      (next text).map withReturns (Prod.map Item.withReturns withReturns) := by
  have parts := splitGap_append false text
  have gap := splitGap_withReturns plain false
  cases split : splitGap false text with
  | mk before behind =>
      rw [split] at parts gap
      subst parts
      cases behind with
      | nil => rw [next_eq_inl_iff.mpr split, next_eq_inl_iff.mpr gap, Sum.map_inl]
      | cons c rest =>
          have found : next (before ++ c :: rest) =
              .inr (⟨before, c :: (readFrom c rest).1, (readFrom c rest).2.1⟩,
                (readFrom c rest).2.2) :=
            next_eq_inr_iff.mpr ⟨c, rest, split, rfl, rfl, rfl⟩
          rw [found, Sum.map_inr]
          refine next_eq_inr_iff.mpr ?_
          by_cases lineFeed : c = '\n'
          · subst lineFeed
            exact ⟨_, _, gap, rfl, rfl, rfl⟩
          · have read := readFrom_withReturns plain.right lineFeed
            rw [withReturns_cons lineFeed] at gap
            refine ⟨_, _, gap, ?_⟩
            rw [read]
            exact ⟨withReturns_cons lineFeed _, rfl, rfl⟩

/-- A text and the same text with carriage returns at its line ends have the same items. -/
theorem ofText_withReturns (plain : IsPlain text) :
    ofText (withReturns text) =
      ⟨(ofText text).items.map Item.withReturns, withReturns (ofText text).trailing⟩ := by
  have first := next_withReturns plain
  fun_induction ofText text with
  | case1 text trailing nothing =>
      rw [nothing] at first
      exact ofText_of_next_inl first
  | case2 text item rest found following inductionHypothesis =>
      have plainRest : IsPlain rest := IsPlain.right (next_append found ▸ plain)
      rw [found] at first
      rw [ofText_of_next_inr first, inductionHypothesis plainRest (next_withReturns plainRest)]
      rfl

end Scan

end Sequencer
