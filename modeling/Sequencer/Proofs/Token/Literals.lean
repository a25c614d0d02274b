import Sequencer.Proofs.Token.Recovery
import Mathlib.Data.List.Forall2
import Mathlib.Data.Nat.Digits.Defs

/-!
# What literals stand for

A literal is a run of letters, digits and underscores that begins with a digit. Its mark shows its
radix, its other characters have to be digits of this radix, and it stands for the number that they
are the digits of (`Token.Literal.Stands`).

A reader comes to what a literal stands for, unless the literal has more than eighty digits and the
first eighty-one of them belong to the radix. Such a literal is too large for the reader, whatever
it stands for (`Stream.readsLiteral_look`).
-/

namespace Sequencer

open Sequencer.Source Sequencer.Text

namespace Token.Literal

/-! ## Digits -/

/-- A character is written for a digit of a radix. Letters may be written in either case. -/
def Writes (radix digit : Nat) (c : Char) : Prop :=
  digit < radix ∧ (c = digit.digitChar ∨ c = digit.digitChar.toUpper)

instance (radix digit : Nat) (c : Char) : Decidable (Writes radix digit c) :=
  inferInstanceAs (Decidable (_ ∧ _))

theorem digitValue?_digitChar : ∀ digit < 16, digitValue? digit.digitChar = some digit ∧
    digitValue? digit.digitChar.toUpper = some digit := by
  decide

theorem toNat_lt_of_digitValue? {c : Char} {digit : Nat} (value : digitValue? c = some digit) :
    c.toNat < 128 := by
  have below {low high : Char} (range : low ≤ c ∧ c ≤ high) (ascii : high.toNat < 128) :
      c.toNat < 128 := Nat.lt_of_le_of_lt range.2 ascii
  unfold digitValue? at value
  split at value
  · rename_i range
    exact below range (by decide)
  · split at value
    · rename_i range
      exact below range (by decide)
    · split at value
      · rename_i range
        exact below range (by decide)
      · cases value

theorem writes_of_digitValue? : ∀ number < 128, ∀ digit ∈ digitValue? (Char.ofNat number),
    Writes 16 digit (Char.ofNat number) := by
  decide +kernel

theorem digitValue?_eq_some_iff {c : Char} {digit : Nat} :
    digitValue? c = some digit ↔ Writes 16 digit c := by
  constructor
  · intro value
    have ascii := toNat_lt_of_digitValue? value
    rw [← Char.ofNat_toNat c] at value ⊢
    exact writes_of_digitValue? _ ascii digit value
  · rintro ⟨small, rfl | rfl⟩
    · exact (digitValue?_digitChar digit small).1
    · exact (digitValue?_digitChar digit small).2

/-- A digit of a radix is one of the largest radix that is small enough. -/
theorem writes_iff {radix digit : Nat} {c : Char} (small : radix ≤ 16) :
    Writes radix digit c ↔ digitValue? c = some digit ∧ digit < radix := by
  rw [digitValue?_eq_some_iff]
  constructor
  · rintro ⟨below, written⟩
    exact ⟨⟨below.trans_le small, written⟩, below⟩
  · rintro ⟨⟨-, written⟩, below⟩
    exact ⟨below, written⟩

theorem isDigitOf_iff {radix : Nat} {c : Char} (small : radix ≤ 16) :
    isDigitOf radix c = true ↔ ∃ digit, Writes radix digit c := by
  simp only [isDigitOf, writes_iff small]
  cases digitValue? c <;> simp

/-! ## Numbers -/

/-- Characters are digits of a radix, and show which, exactly when each of them is one. -/
theorem forall₂_writes_iff {radix : Nat} {values : List Nat} {digits : List Char}
    (small : radix ≤ 16) :
    List.Forall₂ (Writes radix) values digits ↔
      digits.all (isDigitOf radix) = true ∧ values = digits.map fun c => (digitValue? c).getD 0 := by
  induction digits generalizing values with
  | nil => simp
  | cons c rest inductionHypothesis =>
      rw [List.forall₂_cons_right_iff, List.all_cons, Bool.and_eq_true, isDigitOf_iff small]
      constructor
      · rintro ⟨digit, others, written, following, rfl⟩
        obtain ⟨right, rfl⟩ := inductionHypothesis.mp following
        have value := ((writes_iff small).mp written).1
        exact ⟨⟨⟨digit, written⟩, right⟩, by simp [value]⟩
      · rintro ⟨⟨⟨digit, written⟩, right⟩, rfl⟩
        have value := ((writes_iff small).mp written).1
        exact ⟨digit, _, written, inductionHypothesis.mpr ⟨right, rfl⟩, by simp [value]⟩

theorem positional_eq_ofDigits (radix : Nat) (digits : List Char) :
    positional radix digits =
      Nat.ofDigits radix (digits.map fun c => (digitValue? c).getD 0).reverse := by
  rw [Nat.ofDigits_eq_foldr, List.foldr_reverse, List.foldl_map]
  simp only [positional, Nat.cast_id, Nat.mul_comm radix, Nat.add_comm]

/-! ## Marks -/

/-- The radix of a literal and its digits: those behind the mark of the radix, without the
underscores. -/
inductive Shows : List Char → Nat → List Char → Prop
  | hexadecimal {mark : Char} (rest : List Char) (marked : mark = 'x' ∨ mark = 'X') :
      Shows ('0' :: mark :: rest) 16 (rest.filter (· ≠ '_'))
  | octal {mark : Char} (rest : List Char) (marked : mark = 'o' ∨ mark = 'O') :
      Shows ('0' :: mark :: rest) 8 (rest.filter (· ≠ '_'))
  | binary {mark : Char} (rest : List Char) (marked : mark = 'b' ∨ mark = 'B') :
      Shows ('0' :: mark :: rest) 2 (rest.filter (· ≠ '_'))
  | decimal {literal : List Char}
      (unmarked : ∀ mark ∈ ['x', 'X', 'o', 'O', 'b', 'B'], ¬ ['0', mark] <+: literal) :
      Shows literal 10 (literal.filter (· ≠ '_'))

theorem shows_iff {literal digits : List Char} {radix : Nat} :
    Shows literal radix digits ↔
      radix = (splitRadix literal).1 ∧ digits = (splitRadix literal).2.filter (· ≠ '_') := by
  constructor
  · intro shown
    cases shown with
    | hexadecimal rest marked => rcases marked with rfl | rfl <;> exact ⟨rfl, rfl⟩
    | octal rest marked => rcases marked with rfl | rfl <;> exact ⟨rfl, rfl⟩
    | binary rest marked => rcases marked with rfl | rfl <;> exact ⟨rfl, rfl⟩
    | decimal unmarked =>
        unfold splitRadix
        split
        case h_7 => exact ⟨rfl, rfl⟩
        all_goals exact absurd ⟨_, rfl⟩ (unmarked _ (by decide))
  · rintro ⟨rfl, rfl⟩
    unfold splitRadix
    split
    · exact .hexadecimal _ (.inl rfl)
    · exact .hexadecimal _ (.inr rfl)
    · exact .octal _ (.inl rfl)
    · exact .octal _ (.inr rfl)
    · exact .binary _ (.inl rfl)
    · exact .binary _ (.inr rfl)
    · rename_i notX notX' notO notO' notB notB'
      apply Shows.decimal
      rintro mark inside ⟨rest, rfl⟩
      simp only [List.mem_cons, List.not_mem_nil, or_false] at inside
      rcases inside with rfl | rfl | rfl | rfl | rfl | rfl
      · exact notX rest rfl
      · exact notX' rest rfl
      · exact notO rest rfl
      · exact notO' rest rfl
      · exact notB rest rfl
      · exact notB' rest rfl

theorem Shows.radix_le {literal digits : List Char} {radix : Nat}
    (shown : Shows literal radix digits) : radix ≤ 16 := by
  cases shown <;> decide

/-! ## Literals -/

/-- What a literal stands for. -/
inductive Stands (literal : List Char) : Except LexicalError Token → Prop
  | number {radix : Nat} {digits : List Char} {values : List Nat}
      (radix_digits : Shows literal radix digits)
      (written : List.Forall₂ (Writes radix) values digits) (filled : values ≠ [])
      (fits : Nat.ofDigits radix values.reverse < 2 ^ 64) :
      Stands literal (.ok (.number (Nat.ofDigits radix values.reverse)))
  | tooLarge {radix : Nat} {digits : List Char} {values : List Nat}
      (radix_digits : Shows literal radix digits)
      (written : List.Forall₂ (Writes radix) values digits) (filled : values ≠ [])
      (exceeds : 2 ^ 64 ≤ Nat.ofDigits radix values.reverse) :
      Stands literal (.error .numberTooLarge)
  | invalid {radix : Nat} {digits : List Char} (radix_digits : Shows literal radix digits)
      (wrong : digits = [] ∨ ∃ c ∈ digits, ∀ digit, ¬ Writes radix digit c) :
      Stands literal (.error .invalidNumber)

section

variable {literal digits : List Char} {radix : Nat} {content : Except LexicalError Token}

/-- A literal shows one radix and the digits behind one mark. -/
theorem Shows.same {radix' : Nat} {digits' : List Char} (shown : Shows literal radix digits)
    (shown' : Shows literal radix' digits') : radix = radix' ∧ digits = digits' := by
  rw [shows_iff] at shown shown'
  exact ⟨shown.1.trans shown'.1.symm, shown.2.trans shown'.2.symm⟩

theorem exists_not_writes_iff (small : radix ≤ 16) :
    (∃ c ∈ digits, ∀ digit, ¬ Writes radix digit c) ↔ digits.all (isDigitOf radix) = false := by
  simp only [List.all_eq_false, isDigitOf_iff small, not_exists]

/-- What a literal stands for is told by its digits and the number that they make. -/
theorem stands_iff (shown : Shows literal radix digits) :
    Stands literal content ↔
      if digits = [] ∨ digits.all (isDigitOf radix) = false then content = .error .invalidNumber
      else if positional radix digits < 2 ^ 64 then
        content = .ok (.number (positional radix digits))
      else content = .error .numberTooLarge := by
  have small := shown.radix_le
  constructor
  · intro stands
    cases stands with
    | number shown' written filled fits =>
        obtain ⟨rfl, rfl⟩ := shown.same shown'
        obtain ⟨right, rfl⟩ := (forall₂_writes_iff small).mp written
        rw [← positional_eq_ofDigits] at fits ⊢
        rw [if_neg (by simpa [right] using filled), if_pos fits]
    | tooLarge shown' written filled exceeds =>
        obtain ⟨rfl, rfl⟩ := shown.same shown'
        obtain ⟨right, rfl⟩ := (forall₂_writes_iff small).mp written
        rw [← positional_eq_ofDigits] at exceeds
        rw [if_neg (by simpa [right] using filled), if_neg (Nat.not_lt.mpr exceeds)]
    | invalid shown' wrong =>
        obtain ⟨rfl, rfl⟩ := shown.same shown'
        rw [exists_not_writes_iff small] at wrong
        rw [if_pos wrong]
  · intro told
    split at told
    · rename_i wrong
      rw [← exists_not_writes_iff small] at wrong
      rw [told]
      exact .invalid shown wrong
    · rename_i right
      rw [not_or, Bool.not_eq_false] at right
      have written := (forall₂_writes_iff small).mpr ⟨right.2, rfl⟩
      have filled : digits.map (fun c => (digitValue? c).getD 0) ≠ [] := by
        simpa using right.1
      rw [positional_eq_ofDigits] at told
      split at told
      · rename_i fits
        rw [told]
        exact .number shown written filled fits
      · rename_i exceeds
        rw [told]
        exact .tooLarge shown written filled (Nat.not_lt.mp exceeds)

/-- A literal has more digits than are looked at, and those that are looked at and the next one
belong to its radix. -/
def IsOverlong (literal : List Char) : Prop :=
  ∃ radix digits, Shows literal radix digits ∧ maxDigits < digits.length ∧
    ∀ c ∈ digits.take (maxDigits + 1), ∃ digit, Writes radix digit c

theorem isOverlong_iff (shown : Shows literal radix digits) :
    IsOverlong literal ↔
      maxDigits < digits.length ∧ (digits.take (maxDigits + 1)).all (isDigitOf radix) = true := by
  constructor
  · rintro ⟨radix', digits', shown', long, right⟩
    obtain ⟨rfl, rfl⟩ := shown.same shown'
    refine ⟨long, ?_⟩
    simpa only [List.all_eq_true, isDigitOf_iff shown.radix_le] using right
  · rintro ⟨long, right⟩
    refine ⟨radix, digits, shown, long, ?_⟩
    simpa only [List.all_eq_true, isDigitOf_iff shown.radix_le] using right

theorem read_eq_readDigits (shown : Shows literal radix digits) :
    read literal = readDigits radix digits := by
  obtain ⟨rfl, rfl⟩ := shows_iff.mp shown
  rfl

theorem exists_shows (literal : List Char) : ∃ radix digits, Shows literal radix digits :=
  ⟨_, _, shows_iff.mpr ⟨rfl, rfl⟩⟩

/-- All digits of a short literal are looked at. -/
theorem readDigits_of_length_le (short : digits.length ≤ maxDigits) :
    readDigits radix digits =
      if digits = [] ∨ digits.all (isDigitOf radix) = false then .error .invalid
      else if positional radix digits < 2 ^ 64 then .ok (positional radix digits)
      else .error .tooLarge := by
  have size : UInt64.size = 2 ^ 64 := rfl
  simp only [readDigits, List.take_of_length_le short, List.drop_of_length_le short, size,
    Bool.or_eq_true, List.isEmpty_iff, Bool.not_eq_true']

/-- Of a long literal, one digit is looked at behind those that are kept. -/
theorem readDigits_of_lt_length (long : maxDigits < digits.length) :
    readDigits radix digits =
      if (digits.take (maxDigits + 1)).all (isDigitOf radix) = true then .error .tooLarge
      else .error .invalid := by
  have filled : (digits.take maxDigits).isEmpty = false := by
    rw [List.isEmpty_eq_false_iff, ← List.length_pos_iff, List.length_take_of_le long.le]
    decide
  have behind := List.drop_eq_getElem_cons long
  simp only [readDigits, behind, filled, List.take_succ_eq_append_getElem long, List.all_append,
    Bool.false_or]
  cases (digits.take maxDigits).all (isDigitOf radix) with
  | false => rfl
  | true => cases next : isDigitOf radix digits[maxDigits] <;> simp [next]

end

/-! ## Reading -/

/-- A literal that is not overlong is read as what it stands for. -/
theorem ofLiteral_eq_iff {literal : List Char} (short : ¬ IsOverlong literal)
    {content : Except LexicalError Token} :
    Scan.ofLiteral literal = content ↔ Stands literal content := by
  obtain ⟨radix, digits, shown⟩ := exists_shows literal
  rw [stands_iff shown, Scan.ofLiteral, read_eq_readDigits shown]
  rw [isOverlong_iff shown, not_and, Bool.not_eq_true] at short
  by_cases long : maxDigits < digits.length
  · have wrong := short long
    have wrongToo : digits.all (isDigitOf radix) = false := by
      rw [← List.take_append_drop (maxDigits + 1) digits, List.all_append, wrong, Bool.false_and]
    have chosen : digits = [] ∨ digits.all (isDigitOf radix) = false := .inr wrongToo
    rw [readDigits_of_lt_length long, wrong, if_pos chosen]
    exact eq_comm
  · rw [readDigits_of_length_le (Nat.not_lt.mp long)]
    by_cases wrong : digits = [] ∨ digits.all (isDigitOf radix) = false
    · rw [if_pos wrong, if_pos wrong]
      exact eq_comm
    · rw [if_neg wrong, if_neg wrong]
      by_cases fits : positional radix digits < 2 ^ 64
      · rw [if_pos fits, if_pos fits]
        exact eq_comm
      · rw [if_neg fits, if_neg fits]
        exact eq_comm

/-- An overlong literal is read as too large. -/
theorem ofLiteral_of_isOverlong {literal : List Char} (overlong : IsOverlong literal) :
    Scan.ofLiteral literal = .error .numberTooLarge := by
  obtain ⟨radix, digits, shown⟩ := exists_shows literal
  obtain ⟨long, right⟩ := (isOverlong_iff shown).mp overlong
  rw [Scan.ofLiteral, read_eq_readDigits shown, readDigits_of_lt_length long, right]
  rfl

end Token.Literal

/-! ## Literals in a source -/

namespace Scan

/-- A character of a word is none that can stand alone or be passed over. -/
theorem isWordPart_eq_false : ∀ c ∈ [' ', '\t', '\r', '#', '\n', '(', ')', '=', ';'],
    isWordPart c = false := by
  simp only [List.forall_mem_cons]
  exact ⟨rfl, rfl, rfl, rfl, rfl, rfl, rfl, rfl, rfl, nofun⟩

theorem ne_of_isWordPart {c : Char} (part : isWordPart c = true) :
    isBlank c = false ∧ isMark c = false ∧ c ≠ '\r' := by
  have other (d : Char) (listed : d ∈ [' ', '\t', '\r', '#', '\n', '(', ')', '=', ';']) :
      c ≠ d := by
    rintro rfl
    exact Bool.false_ne_true ((isWordPart_eq_false _ listed).symm.trans part)
  have blank : isBlank c = false := by
    simp [isBlank, other ' ', other '\t', other '\r', other '#']
  have mark : isMark c = false := by
    simp [isMark, other '\n', other '(', other ')', other '=', other ';']
  exact ⟨blank, mark, other '\r' (by simp)⟩

/-- A literal goes as far as letters, digits and underscores do. -/
theorem readFrom_of_isDigit {first : Char} (digit : IsDigit first) (rest : List Char) :
    readFrom first rest =
      (rest.takeWhile isWordPart, ofLiteral (first :: rest.takeWhile isWordPart),
        rest.dropWhile isWordPart) := by
  obtain ⟨-, mark, notReturn⟩ := ne_of_isWordPart (isWordPart_iff.mpr (.inr digit))
  have notLetter : ¬ isWordStart first = true := by
    have high : first.toNat ≤ 57 := digit.2
    rw [isWordStart_iff]
    rintro (⟨low, -⟩ | ⟨low, -⟩ | rfl)
    · exact absurd (Nat.le_trans low high) (by decide)
    · exact absurd (Nat.le_trans low high) (by decide)
    · exact absurd high (by decide)
  rw [readFrom_of_not_isMark mark, if_neg fun lineEnd => notReturn lineEnd.1, if_neg notLetter,
    if_pos (isDigit_iff.mpr digit)]

/-- An item of a scan was read from the text at its place. -/
theorem exists_readFrom_of_items {source : List Char} {passed later : List Item} {item : Item}
    (items : (ofText source).items = passed ++ item :: later) :
    ∃ c rest, source = textOf passed ++ item.gap ++ c :: rest ∧
      item.text = c :: (readFrom c rest).1 ∧ item.content = (readFrom c rest).2.1 := by
  induction passed generalizing source with
  | nil =>
      cases found : next source with
      | inl trailing => simp [ofText_of_next_inl found] at items
      | inr first =>
          rcases first with ⟨first, behind⟩
          rw [ofText_of_next_inr found] at items
          obtain ⟨rfl, -⟩ := List.cons.inj items
          obtain ⟨c, rest, stops, text, content, -⟩ := next_eq_inr_iff.mp found
          have parts := splitGap_append false source
          rw [stops] at parts
          exact ⟨c, rest, parts.symm, text, content⟩
  | cons first passed inductionHypothesis =>
      cases found : next source with
      | inl trailing => simp [ofText_of_next_inl found] at items
      | inr next =>
          rcases next with ⟨next, behind⟩
          rw [ofText_of_next_inr found] at items
          obtain ⟨rfl, others⟩ := List.cons.inj items
          obtain ⟨c, rest, rfl, text, content⟩ := inductionHypothesis others
          have parts := next_append found
          refine ⟨c, rest, ?_, text, content⟩
          rw [← parts]
          simp

end Scan

namespace Stream

open Token.Literal Scan

/-- What a reader comes to at a literal that stands between two texts. -/
structure ReadsLiteral (source : Nat) (before literal after : List Char) (lexeme : Lexeme) :
    Prop where
  goesOn : ∀ c ∈ literal, IsLetter c ∨ IsDigit c
  /-- The literal goes as far as it can. -/
  ends : ∀ c, after.head? = some c → ¬ (IsLetter c ∨ IsDigit c)
  covers : lexeme.span = ⟨source, byteLength before, byteLength (before ++ literal)⟩
  stands : ¬ IsOverlong literal → ∀ content, lexeme.content = content ↔ Stands literal content
  overlong : IsOverlong literal → lexeme.content = .error .numberTooLarge

/-- A reader that comes to a digit comes to what the literal there stands for, unless this has too
many digits. -/
theorem readsLiteral_look (source : Nat) {text before rest : List Char} {first : Char} {index : Nat}
    (parts : text = before ++ first :: rest) (digit : IsDigit first)
    (starts : ((ofText source text).look index).span.start = byteLength before) :
    ∃ literal after, first :: rest = literal ++ after ∧
      ReadsLiteral source before literal after ((ofText source text).look index) := by
  have inside : index < (Scan.ofText text).items.length := by
    apply Nat.lt_of_not_le
    intro behind
    rw [look_of_length_le source behind, parts, byteLength_append] at starts
    exact absurd starts (Nat.ne_of_gt (Nat.lt_add_of_pos_right (byteLength_pos (by simp))))
  rcases exists_look_eq source inside with ⟨passed, item, later, items, -, -, seen⟩
  rcases exists_readFrom_of_items items with ⟨c, behind, whole, ownText, content⟩
  have place : byteLength (textOf passed ++ item.gap) = byteLength before := by
    rw [seen] at starts
    exact starts
  -- The item stands where the digit does, so it was read from the digit on.
  have cut := splitBytes?_append (textOf passed ++ item.gap) (c :: behind)
  rw [← whole, place, parts, splitBytes?_append, Option.some.injEq, Prod.mk.injEq] at cut
  rcases cut with ⟨rfl, same⟩
  cases same
  rw [readFrom_of_isDigit digit] at ownText content
  rw [seen]
  refine ⟨item.text, rest.dropWhile isWordPart, ?_, ?_⟩
  · rw [ownText, List.cons_append, List.takeWhile_append_dropWhile]
  · constructor
    · rw [ownText, List.forall_mem_cons]
      constructor
      · exact .inr digit
      · intro c inside
        exact isWordPart_iff.mp (List.mem_takeWhile_imp inside)
    · intro c stands part
      have stops := List.head?_dropWhile_not isWordPart rest
      rw [stands] at stops
      rw [← isWordPart_iff, stops] at part
      exact Bool.false_ne_true part
    · simp
    · intro short content'
      rw [content, ← ownText]
      exact ofLiteral_eq_iff short
    · intro overlong
      rw [content, ← ownText]
      exact ofLiteral_of_isOverlong overlong

/-- A hexadecimal literal behind a parenthesis. -/
theorem readsLiteral_look_hexadecimal :
    ((ofText 0 "wait(0X_00fF)".toList).look 2).span.start = byteLength "wait(".toList ∧
    ((ofText 0 "wait(0X_00fF)".toList).look 2).content = .ok (.number 255) ∧
    ∃ literal after, "0X_00fF)".toList = literal ++ after ∧
      ReadsLiteral 0 "wait(".toList literal after ((ofText 0 "wait(0X_00fF)".toList).look 2) := by
  have starts : ((ofText 0 "wait(0X_00fF)".toList).look 2).span.start =
      byteLength "wait(".toList := by
    decide +kernel
  have digit : IsDigit '0' := isDigit_iff.mp rfl
  exact ⟨starts, by decide +kernel, readsLiteral_look 0 rfl digit starts⟩

/-- Eighty zeros in front of a digit leave it what it is, but the literal is too large for the
reader. -/
theorem look_leadingZeros :
    Stands (List.replicate 80 '0' ++ ['1']) (.ok (.number 1)) ∧
      ((ofText 0 (List.replicate 80 '0' ++ ['1'])).look 0).content = .error .numberTooLarge := by
  have shown : Shows (List.replicate 80 '0' ++ ['1']) 10 (List.replicate 80 '0' ++ ['1']) :=
    shows_iff.mpr (by decide +kernel)
  constructor
  · rw [stands_iff shown]
    decide +kernel
  · decide +kernel

end Stream

end Sequencer
