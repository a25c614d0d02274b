import Sequencer.Fault
import Sequencer.Proofs.Command.Parsing
import Sequencer.Proofs.Token.Literals

/-!
# Spelling tokens

A text spells tokens when it is put together from one piece for each of them: its name, the
characters of its mark or a literal, with blanks between the pieces (`Scan.Spells`). Names and
literals have to end where their pieces do. The scan of such a text finds the tokens again
(`Scan.Spells.tokens_ofText`).

Numbers are spelled by their decimal digits, or by hexadecimal digits behind zeros and the mark of
the radix.
-/

namespace Sequencer

open Sequencer.Text

/-! ## Printed digits -/

namespace Token.Literal

section

variable {radix : Nat}

theorem digitValue?_digitChar_of_lt (small : radix ≤ 16) {digit : Nat} (below : digit < radix) :
    digitValue? digit.digitChar = some digit :=
  (digitValue?_digitChar digit (below.trans_le small)).1

theorem isDigitOf_digitChar (small : radix ≤ 16) {digit : Nat} (below : digit < radix) :
    isDigitOf radix digit.digitChar = true := by
  rw [isDigitOf, digitValue?_digitChar_of_lt small below]
  exact decide_eq_true below

theorem positional_append_singleton (digits : List Char) (c : Char) :
    positional radix (digits ++ [c]) =
      positional radix digits * radix + (digitValue? c).getD 0 := by
  rw [positional, List.foldl_append]
  rfl

/-- The digits of a number in a radix stand for the number. -/
theorem positional_toDigits (large : 1 < radix) (small : radix ≤ 16) (number : Nat) :
    positional radix (Nat.toDigits radix number) = number := by
  induction number using Nat.strongRecOn with
  | ind number inductionHypothesis =>
      rw [Nat.toDigits_eq_if large]
      split
      · rename_i below
        rw [positional, List.foldl_cons, digitValue?_digitChar_of_lt small below]
        simp
      · rename_i notBelow
        have positive : 0 < number := by omega
        have below : number % radix < radix := Nat.mod_lt _ (Nat.zero_lt_of_lt large)
        have value := inductionHypothesis _ (Nat.div_lt_self positive large)
        rw [positional_append_singleton, value, digitValue?_digitChar_of_lt small below]
        exact Nat.div_add_mod' number radix

theorem exists_of_mem_toDigits (large : 1 < radix) {number : Nat} {c : Char}
    (inside : c ∈ Nat.toDigits radix number) : ∃ digit < radix, c = digit.digitChar := by
  induction number using Nat.strongRecOn with
  | ind number inductionHypothesis =>
      rw [Nat.toDigits_eq_if large] at inside
      split at inside
      · rename_i below
        exact ⟨number, below, List.mem_singleton.mp inside⟩
      · rename_i notBelow
        have positive : 0 < number := by omega
        have below : number % radix < radix := Nat.mod_lt _ (Nat.zero_lt_of_lt large)
        rcases List.mem_append.mp inside with earlier | last
        · exact inductionHypothesis _ (Nat.div_lt_self positive large) earlier
        · exact ⟨number % radix, below, List.mem_singleton.mp last⟩

theorem positional_zeros (zeros : Nat) (digits : List Char) :
    positional radix (List.replicate zeros '0' ++ digits) = positional radix digits := by
  induction zeros with
  | zero => rfl
  | succ zeros inductionHypothesis =>
      rw [List.replicate_succ, List.cons_append, positional, List.foldl_cons]
      simpa [positional, digitValue?] using inductionHypothesis

/-- Zeros in front of the digits of a number do not matter, as long as there are not too many. -/
theorem readDigits_toDigits (large : 1 < radix) (small : radix ≤ 16) {zeros number : Nat}
    (short : zeros + (Nat.toDigits radix number).length ≤ maxDigits) (fits : number < 2 ^ 64) :
    readDigits radix (List.replicate zeros '0' ++ Nat.toDigits radix number) = .ok number := by
  have value := positional_toDigits large small number
  have digits : (Nat.toDigits radix number).all (isDigitOf radix) = true := by
    rw [List.all_eq_true]
    intro c inside
    obtain ⟨digit, below, rfl⟩ := exists_of_mem_toDigits large inside
    exact isDigitOf_digitChar small below
  have zero : isDigitOf radix '0' = true := isDigitOf_digitChar small (Nat.zero_lt_of_lt large)
  have right : (List.replicate zeros '0' ++ Nat.toDigits radix number).all (isDigitOf radix) =
      true := by
    rw [List.all_append, List.all_replicate, digits, zero]
    simp
  have filled : List.replicate zeros '0' ++ Nat.toDigits radix number ≠ [] :=
    List.append_ne_nil_of_right_ne_nil _ Nat.toDigits_ne_nil
  rw [readDigits_of_length_le (by rwa [List.length_append, List.length_replicate]), if_neg, if_pos]
  · rw [positional_zeros, value]
  · rwa [positional_zeros, value]
  · rintro (empty | wrong)
    · exact filled empty
    · exact Bool.false_ne_true (wrong.symm.trans right)

end

/-- A digit can stand in a literal, and it is no underscore. -/
theorem isWordPart_digitChar : ∀ digit < 16,
    Scan.isWordPart digit.digitChar = true ∧ digit.digitChar ≠ '_' := by
  decide

theorem isWordPart_of_mem_toDigits {radix number : Nat} (large : 1 < radix) (small : radix ≤ 16)
    {c : Char} (inside : c ∈ Nat.toDigits radix number) :
    Scan.isWordPart c = true ∧ c ≠ '_' := by
  obtain ⟨digit, below, rfl⟩ := exists_of_mem_toDigits large inside
  exact isWordPart_digitChar digit (below.trans_le small)

/-- The decimal digits of a number are read as the number. -/
theorem read_toDigits {number : Nat} (fits : number < 2 ^ 64) :
    read (Nat.toDigits 10 number) = .ok number := by
  have shown : Shows (Nat.toDigits 10 number) 10
      ((Nat.toDigits 10 number).filter (· ≠ '_')) := by
    apply Shows.decimal
    rintro mark marked ⟨rest, parts⟩
    have digit : mark.isDigit = true := by
      apply Nat.isDigit_of_mem_toDigits (b := 10) (n := number) (by decide) (by decide)
      rw [← parts]
      simp
    simp only [List.mem_cons, List.not_mem_nil, or_false] at marked
    rcases marked with rfl | rfl | rfl | rfl | rfl | rfl <;> cases digit
  have whole : (Nat.toDigits 10 number).filter (· ≠ '_') = Nat.toDigits 10 number := by
    rw [List.filter_eq_self]
    intro c inside
    exact decide_eq_true (isWordPart_of_mem_toDigits (by decide) (by decide) inside).2
  have length := Nat.toDigits_length 10 number 20 (by decide) (fits.trans (by decide))
  have short : 0 + (Nat.toDigits 10 number).length ≤ maxDigits := by
    rw [Nat.zero_add]
    exact length.trans (by decide)
  rw [read_eq_readDigits shown, whole]
  exact readDigits_toDigits (by decide) (by decide) short fits

/-- Hexadecimal digits behind their mark and zeros are read as the number. -/
theorem read_hexadecimal {zeros number : Nat} (short : zeros ≤ 64) (fits : number < 2 ^ 64) :
    read ('0' :: 'x' :: (List.replicate zeros '0' ++ Nat.toDigits 16 number)) = .ok number := by
  have shown := Shows.hexadecimal (List.replicate zeros '0' ++ Nat.toDigits 16 number)
    (.inl (rfl : 'x' = 'x'))
  have whole : (List.replicate zeros '0' ++ Nat.toDigits 16 number).filter (· ≠ '_') =
      List.replicate zeros '0' ++ Nat.toDigits 16 number := by
    rw [List.filter_eq_self]
    intro c inside
    rcases List.mem_append.mp inside with zero | digit
    · rw [List.eq_of_mem_replicate zero]
      decide
    · exact decide_eq_true (isWordPart_of_mem_toDigits (by decide) (by decide) digit).2
  have length := Nat.toDigits_length 16 number 16 (by decide) (fits.trans_le (by decide))
  rw [read_eq_readDigits shown, whole]
  exact readDigits_toDigits (by decide) (by decide) (Nat.add_le_add short length) fits

end Token.Literal

/-! ## Spelled tokens -/

namespace Scan

/-- A text spells tokens one after the other, with blanks in front of some of them. -/
inductive Spells : List Char → List Token → Prop
  | nothing : Spells [] []
  | blank {text : List Char} {tokens : List Token} (behind : Spells text tokens) :
      Spells (' ' :: text) tokens
  | lineEnd {text : List Char} {tokens : List Token} (behind : Spells text tokens) :
      Spells ('\n' :: text) (.endOfLine :: tokens)
  | leftParen {text : List Char} {tokens : List Token} (behind : Spells text tokens) :
      Spells ('(' :: text) (.leftParen :: tokens)
  | rightParen {text : List Char} {tokens : List Token} (behind : Spells text tokens) :
      Spells (')' :: text) (.rightParen :: tokens)
  | equals {text : List Char} {tokens : List Token} (behind : Spells text tokens) :
      Spells ('=' :: text) (.equals :: tokens)
  | semicolon {text : List Char} {tokens : List Token} (behind : Spells text tokens) :
      Spells (';' :: text) (.semicolon :: tokens)
  | word (first : Char) (more : List Char) {text : List Char} {tokens : List Token}
      (begins : isWordStart first = true) (goesOn : more.all isWordPart = true)
      (ends : EndsWords text) (behind : Spells text tokens) :
      Spells (first :: more ++ text) (.word (String.ofList (first :: more)) :: tokens)
  | number (first : Char) (more : List Char) {text : List Char} {tokens : List Token} {value : Nat}
      (begins : first.isDigit = true) (goesOn : more.all isWordPart = true)
      (stands : Token.Literal.read (first :: more) = .ok value)
      (ends : EndsWords text) (behind : Spells text tokens) :
      Spells (first :: more ++ text) (.number value :: tokens)

section

variable {text : List Char} {tokens : List Token}

/-- An item that nothing stands in front of is found with the items behind it. -/
theorem tokens_cons {c : Char} (stands : beginsLineEnd (c :: text) = true ∨ isBlank c = false)
    {token : Token} {own rest : List Char} (read : readFrom c text = (own, .ok token, rest))
    (behind : (ofText rest).tokens = .ok tokens) :
    (ofText (c :: text)).tokens = .ok (token :: tokens) := by
  have stops : splitGap false (c :: text) = ([], c :: text) := by
    rw [splitGap_cons, if_neg]
    rintro ⟨noEnd, blank⟩
    rcases stands with ends | other
    · exact Bool.false_ne_true (noEnd.symm.trans ends)
    · exact Bool.false_ne_true (other.symm.trans blank)
  have found : next (c :: text) = .inr (⟨[], c :: own, .ok token⟩, rest) := by
    rw [next_eq_inr_iff]
    exact ⟨c, text, stops, by rw [read], by rw [read], by rw [read]⟩
  rw [tokens_eq_ok_iff] at behind ⊢
  rw [ofText_of_next_inr found, List.map_cons, List.map_cons, behind]

/-- A blank in front of a text changes none of its tokens. -/
theorem tokens_blank (text : List Char) :
    (ofText (' ' :: text)).tokens = (ofText text).tokens := by
  have passed : splitGap false (' ' :: text) =
      (' ' :: (splitGap false text).1, (splitGap false text).2) := by
    rw [splitGap_cons]
    rfl
  cases found : next text with
  | inl trailing =>
      have nothing : next (' ' :: text) = .inl (' ' :: trailing) := by
        rw [next_eq_inl_iff] at found ⊢
        rw [passed, found]
      rw [ofText_of_next_inl found, ofText_of_next_inl nothing]
      rfl
  | inr first =>
      rcases first with ⟨item, rest⟩
      have found' : next (' ' :: text) = .inr (⟨' ' :: item.gap, item.text, item.content⟩, rest) := by
        rw [next_eq_inr_iff] at found ⊢
        rcases found with ⟨c, after, stops, read⟩
        exact ⟨c, after, by rw [passed, stops], read⟩
      rw [ofText_of_next_inr found, ofText_of_next_inr found', tokens, tokens, List.mapM_cons,
        List.mapM_cons]

theorem takeWhile_isWordPart_of_endsWords {more : List Char} (goesOn : more.all isWordPart = true)
    (ends : EndsWords text) :
    (more ++ text).takeWhile isWordPart = more ∧ (more ++ text).dropWhile isWordPart = text := by
  obtain ⟨taken, dropped⟩ := takeWhile_isWordPart_append more ends
  rw [List.all_eq_true] at goesOn
  rw [taken, dropped, List.takeWhile_eq_self_iff.mpr goesOn, List.dropWhile_eq_nil_iff.mpr goesOn]
  exact ⟨rfl, rfl⟩

/-- A name goes as far as letters, digits and underscores do. -/
theorem readFrom_of_isWordStart {first : Char} (begins : isWordStart first = true)
    (rest : List Char) :
    readFrom first rest =
      (rest.takeWhile isWordPart,
        .ok (.word (String.ofList (first :: rest.takeWhile isWordPart))),
        rest.dropWhile isWordPart) := by
  have part : isWordPart first = true := isWordPart_iff.mpr (.inl (isWordStart_iff.mp begins))
  obtain ⟨-, mark, notReturn⟩ := ne_of_isWordPart part
  rw [readFrom_of_not_isMark mark, if_neg fun lineEnd => notReturn lineEnd.1, if_pos begins]

/-- The tokens that a text spells are those that are scanned. -/
theorem Spells.tokens_ofText (spells : Spells text tokens) :
    (ofText text).tokens = .ok tokens := by
  induction spells with
  | nothing =>
      rw [ofText_of_next_inl (next_eq_inl_iff.mpr rfl)]
      rfl
  | blank behind inductionHypothesis => rwa [tokens_blank]
  | lineEnd behind inductionHypothesis =>
      exact tokens_cons (.inl rfl) rfl inductionHypothesis
  | leftParen behind inductionHypothesis =>
      exact tokens_cons (.inr rfl) rfl inductionHypothesis
  | rightParen behind inductionHypothesis =>
      exact tokens_cons (.inr rfl) rfl inductionHypothesis
  | equals behind inductionHypothesis =>
      exact tokens_cons (.inr rfl) rfl inductionHypothesis
  | semicolon behind inductionHypothesis =>
      exact tokens_cons (.inr rfl) rfl inductionHypothesis
  | word first more begins goesOn ends behind inductionHypothesis =>
      rename_i text tokens
      have part : isWordPart first = true := isWordPart_iff.mpr (.inl (isWordStart_iff.mp begins))
      obtain ⟨taken, dropped⟩ := takeWhile_isWordPart_of_endsWords goesOn ends
      have read := readFrom_of_isWordStart begins (more ++ text)
      rw [taken, dropped] at read
      exact tokens_cons (.inr (ne_of_isWordPart part).1) read inductionHypothesis
  | number first more begins goesOn stands ends behind inductionHypothesis =>
      rename_i text tokens value
      have digit : IsDigit first := isDigit_iff.mp begins
      have part : isWordPart first = true := isWordPart_iff.mpr (.inr digit)
      obtain ⟨taken, dropped⟩ := takeWhile_isWordPart_of_endsWords goesOn ends
      have read := readFrom_of_isDigit digit (more ++ text)
      rw [taken, dropped, ofLiteral, stands] at read
      exact tokens_cons (.inr (ne_of_isWordPart part).1) read inductionHypothesis

/-- A number is spelled by its decimal digits. -/
theorem Spells.decimal {number : Nat} (fits : number < 2 ^ 64) (ends : EndsWords text)
    (behind : Spells text tokens) :
    Spells (Nat.toDigits 10 number ++ text) (.number number :: tokens) := by
  have stands := Token.Literal.read_toDigits fits
  have part (c : Char) (inside : c ∈ Nat.toDigits 10 number) : isWordPart c = true :=
    (Token.Literal.isWordPart_of_mem_toDigits (by decide) (by decide) inside).1
  have digit (c : Char) (inside : c ∈ Nat.toDigits 10 number) : c.isDigit = true :=
    Nat.isDigit_of_mem_toDigits (by decide) (by decide) inside
  cases digits : Nat.toDigits 10 number with
  | nil => exact absurd digits Nat.toDigits_ne_nil
  | cons first more =>
      rw [digits] at stands part digit
      rw [List.forall_mem_cons] at part digit
      exact .number first more digit.1 (List.all_eq_true.mpr part.2) stands ends behind

theorem toList_lowerHex (width number : Nat) :
    (lowerHex width number).toList =
      List.replicate (width - (Nat.toDigits 16 number).length) '0' ++ Nat.toDigits 16 number := by
  simp [lowerHex, padLeft, run]

/-- A number is spelled by its hexadecimal digits behind their mark. -/
theorem Spells.hexadecimal {width number : Nat} (short : width ≤ 64) (fits : number < 2 ^ 64)
    (ends : EndsWords text) (behind : Spells text tokens) :
    Spells ('0' :: 'x' :: ((lowerHex width number).toList ++ text)) (.number number :: tokens) := by
  have zeros : width - (Nat.toDigits 16 number).length ≤ 64 := (Nat.sub_le ..).trans short
  have stands := Token.Literal.read_hexadecimal zeros fits
  rw [← toList_lowerHex] at stands
  have part : ('x' :: (lowerHex width number).toList).all isWordPart = true := by
    rw [List.all_eq_true, List.forall_mem_cons, toList_lowerHex]
    constructor
    · rfl
    · intro c inside
      rcases List.mem_append.mp inside with zero | digit
      · rw [List.eq_of_mem_replicate zero]
        rfl
      · exact (Token.Literal.isWordPart_of_mem_toDigits (by decide) (by decide) digit).1
  exact .number '0' _ rfl part stands ends behind

end

end Scan

end Sequencer
