import Sequencer.Proofs.Command.Parsing
import Sequencer.Proofs.Token.Scanning
import Mathlib.Algebra.Ring.Nat
import Mathlib.Data.Nat.Log

/-!
# How long tokens are written

The value of a literal is below a power of sixteen, the largest radix, whose exponent is the length
of the literal. So a large number takes many characters, and the tokens of a source take together
no more characters than the source has bytes (`Scan.sum_leastLength_le`).
-/

namespace Sequencer

open Sequencer.Text

/-! ## Literals -/

namespace Token.Literal

theorem digitValue?_le {c : Char} : (digitValue? c).getD 0 ≤ 15 := by
  have digit (below : c ≤ '9') : c.toNat - '0'.toNat ≤ 9 := Nat.sub_le_sub_right below _
  have lower (below : c ≤ 'f') : c.toNat - 'a'.toNat ≤ 5 := Nat.sub_le_sub_right below _
  have upper (below : c ≤ 'F') : c.toNat - 'A'.toNat ≤ 5 := Nat.sub_le_sub_right below _
  unfold digitValue?
  split
  · rename_i range
    exact (digit range.2).trans (by decide)
  · split
    · rename_i range
      exact Nat.add_le_add_right (lower range.2) 10
    · split
      · rename_i range
        exact Nat.add_le_add_right (upper range.2) 10
      · exact Nat.zero_le _

/-- Digits stand for a number below a power of sixteen, in any radix up to sixteen. -/
theorem positional_lt {radix : Nat} (small : radix ≤ 16) (digits : List Char) :
    positional radix digits < 16 ^ digits.length := by
  have followed (value count : Nat) (below : value < 16 ^ count) :
      digits.foldl (fun value c => value * radix + (digitValue? c).getD 0) value <
        16 ^ (count + digits.length) := by
    induction digits generalizing value count with
    | nil => exact below
    | cons c rest inductionHypothesis =>
        have digit : (digitValue? c).getD 0 ≤ 15 := digitValue?_le
        have scaled : value * radix ≤ value * 16 := Nat.mul_le_mul_left _ small
        have next : value * radix + (digitValue? c).getD 0 < 16 ^ (count + 1) := by
          rw [Nat.pow_succ]
          omega
        rw [List.foldl_cons, List.length_cons, Nat.add_comm rest.length, ← Nat.add_assoc]
        exact inductionHypothesis _ _ next
  simpa [positional] using followed 0 0 Nat.one_pos

theorem splitRadix_le (literal : List Char) :
    (splitRadix literal).1 ≤ 16 ∧ (splitRadix literal).2.length ≤ literal.length := by
  unfold splitRadix
  split <;> simp <;> omega

/-- A literal has a value below a power of sixteen. -/
theorem lt_of_read {literal : List Char} {value : Nat} (done : read literal = .ok value) :
    value < 16 ^ literal.length := by
  obtain ⟨small, shorter⟩ := splitRadix_le literal
  unfold read readDigits at done
  dsimp only at done
  split at done
  · cases done
  · split at done
    · cases done
    · split at done
      · cases done
        have kept : (((splitRadix literal).2.filter (· ≠ '_')).take maxDigits).length ≤
            literal.length :=
          (List.length_take_le' ..).trans ((List.length_filter_le ..).trans shorter)
        exact (positional_lt small _).trans_le (Nat.pow_le_pow_right (by decide) kept)
      · cases done

end Token.Literal

/-! ## Tokens -/

/-- The least number of characters that a token is written with. -/
def Token.leastLength : Token → Nat
  | .endOfInput => 0
  | .word name => name.length
  | .number value => Nat.log 16 value + 1
  | .endOfLine | .leftParen | .rightParen | .equals | .semicolon => 1

/-- A number of eight hexadecimal digits is not written with fewer characters. -/
theorem Token.eight_le_leastLength {value : Nat} (large : 16 ^ 7 ≤ value) :
    8 ≤ (Token.number value).leastLength :=
  Nat.succ_le_succ (Nat.le_log_of_pow_le (by decide) large)

namespace Scan

theorem leastLength_le_of_ofLiteral {literal : List Char} {token : Token}
    (done : ofLiteral literal = .ok token) (written : literal ≠ []) :
    token.leastLength ≤ literal.length := by
  unfold ofLiteral at done
  split at done
  · rename_i value read
    cases done
    have positive : literal.length ≠ 0 := by simpa using written
    exact Nat.succ_le_of_lt (Nat.log_lt_of_lt_pow' positive (Token.Literal.lt_of_read read))
  · cases done
  · cases done

/-- A token is written with its characters at least. -/
theorem leastLength_le_of_readFrom {c : Char} {rest : List Char} {token : Token}
    (read : (readFrom c rest).2.1 = .ok token) :
    token.leastLength ≤ (c :: (readFrom c rest).1).length := by
  cases mark : isMark c with
  | true =>
      simp only [isMark, Bool.or_eq_true, decide_eq_true_eq] at mark
      rcases mark with (((rfl | rfl) | rfl) | rfl) | rfl <;> cases read <;> exact Nat.le_refl 1
  | false =>
      rw [readFrom_of_not_isMark mark] at read ⊢
      by_cases lineEnd : c = '\r' ∧ rest.head? = some '\n'
      · rw [if_pos lineEnd] at read ⊢
        cases read
        exact Nat.le_add_left 1 1
      · rw [if_neg lineEnd] at read ⊢
        by_cases word : isWordStart c = true
        · rw [if_pos word] at read ⊢
          cases read
          simp [Token.leastLength, Nat.add_comm]
        · rw [if_neg word] at read ⊢
          by_cases literal : c.isDigit = true
          · rw [if_pos literal] at read ⊢
            exact leastLength_le_of_ofLiteral read (List.cons_ne_nil _ _)
          · rw [if_neg literal] at read
            cases read

theorem leastLength_le_of_mem {source : List Char} {item : Item} {token : Token}
    (inside : item ∈ (ofText source).items) (content : item.content = .ok token) :
    token.leastLength ≤ item.text.length := by
  rcases exists_readFrom_of_mem inside with ⟨c, rest, text, read⟩
  rw [text]
  exact leastLength_le_of_readFrom (read.symm.trans content)

theorem length_le_byteLength (text : List Char) : text.length ≤ byteLength text := by
  induction text with
  | nil => exact Nat.le_refl 0
  | cons c rest inductionHypothesis =>
      have positive := c.utf8Size_pos
      rw [List.length_cons, byteLength_cons]
      omega

/-- The tokens of a source take no more characters than the source has bytes. -/
theorem sum_leastLength_le {source : List Char} {tokens : List Token}
    (lexes : (ofText source).tokens = .ok tokens) :
    (tokens.map Token.leastLength).sum ≤ byteLength source := by
  rw [tokens_eq_ok_iff] at lexes
  have each : ∀ item ∈ (ofText source).items, ∀ token, item.content = .ok token →
      token.leastLength ≤ item.text.length := fun _ inside _ => leastLength_le_of_mem inside
  have whole : (textOf (ofText source).items).length ≤ byteLength source := by
    have parts := congrArg List.length (text_ofText source)
    rw [text, List.length_append] at parts
    exact (Nat.le_of_add_right_le parts.le).trans (length_le_byteLength source)
  refine Nat.le_trans ?_ whole
  generalize (ofText source).items = items at lexes each
  induction items generalizing tokens with
  | nil =>
      cases tokens with
      | nil => exact Nat.le_refl 0
      | cons token others => simp at lexes
  | cons item rest inductionHypothesis =>
      cases tokens with
      | nil => exact Nat.zero_le _
      | cons token others =>
          simp only [List.map_cons, List.cons.injEq] at lexes
          have first := each item List.mem_cons_self token lexes.1
          have following := inductionHypothesis lexes.2 fun other inside =>
            each other (List.mem_cons_of_mem _ inside)
          simp only [List.map_cons, List.sum_cons, textOf_cons, List.length_append]
          omega

end Scan

end Sequencer
