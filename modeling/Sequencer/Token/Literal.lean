/-!
# Integer literals

A literal is written in decimal, or behind `0x`, `0o` or `0b` in either case in
radix sixteen, eight or two. Underscores between its digits mean nothing. Its
value has to fit 64 bits, and at most eighty digits are looked at: what follows
the eightieth digit decides only whether the literal is too large or no literal.
-/

namespace Sequencer.Token.Literal

/-- Why a run of letters and digits is no literal. -/
inductive Refusal where
  /-- A digit is missing or does not belong to the radix. -/
  | invalid
  /-- The value or the number of digits is out of range. -/
  | tooLarge
  deriving DecidableEq, Repr

/-- The value of a digit in any radix up to sixteen. -/
def digitValue? (c : Char) : Option Nat :=
  if '0' ≤ c ∧ c ≤ '9' then some (c.toNat - '0'.toNat)
  else if 'a' ≤ c ∧ c ≤ 'f' then some (c.toNat - 'a'.toNat + 10)
  else if 'A' ≤ c ∧ c ≤ 'F' then some (c.toNat - 'A'.toNat + 10)
  else none

/-- Whether a character is a digit of a radix. -/
def isDigitOf (radix : Nat) (c : Char) : Bool :=
  (digitValue? c).any (· < radix)

/-- The radix of a literal and the digits behind its mark. -/
def splitRadix : List Char → Nat × List Char
  | '0' :: 'x' :: digits => (16, digits)
  | '0' :: 'X' :: digits => (16, digits)
  | '0' :: 'o' :: digits => (8, digits)
  | '0' :: 'O' :: digits => (8, digits)
  | '0' :: 'b' :: digits => (2, digits)
  | '0' :: 'B' :: digits => (2, digits)
  | digits => (10, digits)

/-- The number that digits stand for in a radix. -/
def positional (radix : Nat) (digits : List Char) : Nat :=
  digits.foldl (fun value c => value * radix + (digitValue? c).getD 0) 0

/-- The number of digits that are looked at. -/
def maxDigits : Nat := 80

/-- Read digits from which the underscores have been removed. -/
def readDigits (radix : Nat) (digits : List Char) : Except Refusal Nat :=
  let kept := digits.take maxDigits
  if kept.isEmpty || !kept.all (isDigitOf radix) then .error .invalid
  else
    match digits.drop maxDigits with
    | next :: _ => .error (if isDigitOf radix next then .tooLarge else .invalid)
    | [] =>
        let value := positional radix kept
        if value < UInt64.size then .ok value else .error .tooLarge

/-- Read a literal. -/
def read (literal : List Char) : Except Refusal Nat :=
  let (radix, digits) := splitRadix literal
  readDigits radix (digits.filter (· ≠ '_'))

end Sequencer.Token.Literal
