import Sequencer.Json.Reading
import Sequencer.Numeral.Shortest
import Sequencer.Numeral.Whole

/-!
# Numbers in JSON text

A number without a fraction and without an exponent is a whole number if it fits into
a machine word. Every other number is read as binary floating point: its first digits
make up a whole number, which is then multiplied or divided by a power of ten and
rounded at each step.
-/

namespace Sequencer.Json

open Numeral

/-- A number as it is read. -/
inductive Number where
  | unsigned (value : Nat)
  /-- A negative number that fits into a signed machine word. -/
  | negative (magnitude : Nat)
  | floating (value : Double)
  deriving DecidableEq, Repr

/-- How messages show a number in floating point: its fewest digits, in positional form
from `10 ^ -5` up to `10 ^ 16`, and with an exponent and its sign otherwise. A tie goes to
the even digit. -/
def floatingText (number : Double) : String :=
  let sign := if number.isNegative then "-" else ""
  if number.isZero then sign ++ "0.0"
  else
    let decimal := number.magnitude.shortest .even
    let digits := decimal.digitText
    let leading : Int := digits.length + decimal.exponent
    if 0 ≤ decimal.exponent ∧ leading ≤ 16 then sign ++ decimal.positional ++ ".0"
    else if -5 < leading ∧ leading ≤ 16 then sign ++ decimal.positional
    else
      let fraction := if digits.length = 1 then [] else '.' :: digits.drop 1
      let exponent := (if 0 < leading then "e+" else "e") ++ toString (leading - 1)
      sign ++ String.ofList (digits.take 1 ++ fraction) ++ exponent

/-- How messages show a number. -/
def Number.describe : Number → String
  | .unsigned value => s!"integer `{value}`"
  | .negative magnitude => s!"integer `-{magnitude}`"
  | .floating value => "floating point `" ++ floatingText value ++ "`"

/-- The first digits of a number and the power of ten behind them. -/
structure Significand where
  value : Nat
  exponent : Int
  deriving DecidableEq, Repr

namespace Significand

/-- Take further digits before the point. When the number no longer fits into a machine
word, digits only count. -/
def takeWhole (significand : Significand) : List Char → Significand × Bool
  | [] => (significand, false)
  | c :: rest =>
      let value := significand.value * 10 + (digit? c).getD 0
      if wordBound ≤ value then
        ({ significand with exponent := significand.exponent + (rest.length + 1) }, true)
      else takeWhole { significand with value } rest

/-- Take the digits behind the point, as long as the number fits into a machine word. -/
def takeFraction (significand : Significand) : List Char → Significand
  | [] => significand
  | c :: rest =>
      let value := significand.value * 10 + (digit? c).getD 0
      if wordBound ≤ value then significand
      else takeFraction ⟨value, significand.exponent - 1⟩ rest

end Significand

/-- The product of two positive numbers. -/
def product (first second : Double) : Double :=
  let (a, b) := first.magnitude.ratio
  let (c, d) := second.magnitude.ratio
  .ofRatio (a * c) (b * d)

/-- The quotient of two positive numbers. -/
def quotient (dividend divisor : Double) : Double :=
  let (a, b) := dividend.magnitude.ratio
  let (c, d) := divisor.magnitude.ratio
  .ofRatio (a * d) (b * c)

/-- The largest exponent of a power of ten that is used in one step. -/
def largestStep : Nat := 308

/-- A power of ten in floating point. -/
def powerOfTen (exponent : Nat) : Double := .ofRatio (Nat.pow 10 exponent) 1

/-- A number times a power of ten, unless it is too large. -/
def scale? (number : Double) (exponent : Int) : Option Double :=
  if exponent.natAbs ≤ largestStep then
    if 0 ≤ exponent then
      let scaled := product number (powerOfTen exponent.natAbs)
      if scaled.isInfinite then none else some scaled
    else some (quotient number (powerOfTen exponent.natAbs))
  else if number.isZero then some number
  else if 0 ≤ exponent then none
  else scale? (quotient number (powerOfTen largestStep)) (exponent + largestStep)
termination_by exponent.natAbs
decreasing_by
  simp only [largestStep] at *
  omega

namespace Reading

/-- Whether a character is a decimal digit. -/
def isDigit (c : Char) : Bool := '0' ≤ c && c ≤ '9'

/-- A number in floating point with a sign. -/
def signed (negative : Bool) (number : Double) : Number :=
  .floating (if negative then number.negate else number)

/-- The number that digits and a power of ten give. -/
def scaled (negative : Bool) (significand : Significand) : Reading Number :=
  match scale? (.ofRatio significand.value 1) significand.exponent with
  | none => failBehind .numberOutOfRange
  | some number => return signed negative number

/-- Exponents from here on count as boundless. -/
def exponentBound : Nat := 0x80000000

/-- The value of digits up to where it reaches the bound, and the digits left there. -/
def exponentValue (value : Nat) : List Char → Nat × List Char
  | [] => (value, [])
  | c :: rest =>
      let next := value * 10 + (digit? c).getD 0
      if exponentBound ≤ next then (next, c :: rest) else exponentValue next rest

/-- Read an exponent behind its letter. -/
def exponent (negative : Bool) (significand : Significand) : Reading Number := do
  advance
  let up ← match ← peek with
    | some '+' => do advance; pure true
    | some '-' => do advance; pure false
    | _ => pure true
  let first ← passOne isDigit .missingValue .invalidNumber
  let start ← get
  let digits ← passWhile isDigit
  let (value, left) := exponentValue ((digit? first).getD 0) digits
  if left.isEmpty then
    let exponent : Int := if up then value else -value
    scaled negative { significand with exponent := significand.exponent + exponent }
  else if significand.value ≠ 0 ∧ up then
    throw ⟨.numberOutOfRange, some (start.offset + (digits.length - left.length + 1))⟩
  else return signed negative ⟨0⟩

/-- Read an exponent, if there is one, and end the number. -/
def exponentOrEnd (negative : Bool) (significand : Significand) : Reading Number := do
  match ← peek with
  | some 'e' => exponent negative significand
  | some 'E' => exponent negative significand
  | _ => scaled negative significand

/-- Read a fraction from its point on. -/
def fraction (negative : Bool) (significand : Significand) : Reading Number := do
  advance
  let digits ← passWhile isDigit
  if digits.isEmpty then
    match ← peek with
    | none => failAhead .missingValue
    | some _ => failAhead .invalidNumber
  else exponentOrEnd negative (significand.takeFraction digits)

/-- The number without a fraction and without an exponent. -/
def whole (negative : Bool) (value : Nat) : Number :=
  if negative then
    if 0 < value ∧ value ≤ 0x8000000000000000 then .negative value
    else .floating (Double.ofRatio value 1).negate
  else .unsigned value

/-- Read what may follow the digits before the point. -/
def behindWhole (negative : Bool) (significand : Significand) (long : Bool) :
    Reading Number := do
  match ← peek with
  | some '.' => fraction negative significand
  | some 'e' => exponent negative significand
  | some 'E' => exponent negative significand
  | _ => if long then scaled negative significand else return whole negative significand.value

/-- Pass the first digit of a number. Behind a zero there is no further digit. -/
def wholeDigit (atEnd : Flaw) : Reading Char := do
  let first ← passOne isDigit atEnd .invalidNumber
  if first = '0' ∧ ((← peek).any isDigit) then failAhead .invalidNumber else return first

/-- Read a number behind its sign. -/
def number (negative : Bool) : Reading Number := do
  let first ← wholeDigit .missingValue
  if first = '0' then behindWhole negative ⟨0, 0⟩ false
  else
    let digits ← passWhile isDigit
    let (significand, long) := Significand.takeWhole ⟨0, 0⟩ (first :: digits)
    behindWhole negative significand long

/-- Pass an exponent from its letter on. -/
def passExponent : Reading Unit := do
  advance
  match ← peek with
  | some '+' => advance
  | some '-' => advance
  | _ => pure ()
  let _ ← passOne isDigit .invalidNumber .invalidNumber
  let _ ← passWhile isDigit

/-- Pass a fraction from its point on. -/
def passFraction : Reading Unit := do
  advance
  let digits ← passWhile isDigit
  if digits.isEmpty then failAhead .invalidNumber
  match ← peek with
  | some 'e' => passExponent
  | some 'E' => passExponent
  | _ => pure ()

/-- Pass what may follow the digits before the point. -/
def passBehindWhole : Reading Unit := do
  match ← peek with
  | some '.' => passFraction
  | some 'e' => passExponent
  | some 'E' => passExponent
  | _ => pure ()

/-- Pass a number behind its sign. -/
def passNumber : Reading Unit := do
  let first ← wholeDigit .invalidNumber
  if first ≠ '0' then
    let _ ← passWhile isDigit
  passBehindWhole

end Reading

end Sequencer.Json
