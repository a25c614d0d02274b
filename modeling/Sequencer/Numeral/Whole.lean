/-!
# Whole numbers

Counts are given in decimal, with a plus sign or without a sign, and any number of
leading zeros. They have to fit into a machine word.
-/

namespace Sequencer.Numeral

/-- The value of a decimal digit. -/
def digit? (c : Char) : Option Nat :=
  if '0' ≤ c ∧ c ≤ '9' then some (c.toNat - '0'.toNat) else none

/-- The value of decimal digits behind digits with a value. -/
def digits? (value : Nat) : List Char → Option Nat
  | [] => some value
  | c :: rest =>
      match digit? c with
      | none => none
      | some digit => digits? (10 * value + digit) rest

/-- Numbers that fit into a machine word are below this one. -/
def wordBound : Nat := UInt64.size

/-- The count that a text gives. -/
def count? (text : List Char) : Option Nat :=
  let digits := match text with
    | '+' :: rest => rest
    | _ => text
  if digits.isEmpty then none
  else
    match digits? 0 digits with
    | none => none
    | some value => if value < wordBound then some value else none

end Sequencer.Numeral
