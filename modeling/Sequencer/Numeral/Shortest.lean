import Sequencer.Numeral.Double
import Sequencer.Text.Measure

/-!
# The fewest digits of a number

The numbers that round to a magnitude make up an interval, which reaches halfway to
the next magnitudes and includes its ends if the mantissa is even. A magnitude is
written with the decimal in this interval that has the fewest digits and, of those,
lies nearest to it. Which of two equally near ones is taken is left open.

The decimals with a last place are a grid, and if any of them lies in the interval,
so does a neighbour of the magnitude on the grid. The search goes from coarse grids
to fine ones and tests the two neighbours on each.
-/

namespace Sequencer.Numeral

open Sequencer.Text

/-- A decimal: digits times a power of ten. -/
structure Decimal where
  digits : Nat
  exponent : Int
  deriving DecidableEq, Repr, Inhabited

/-- Which of two neighbouring decimals is taken when both are equally near. -/
inductive Tie where
  | upper
  /-- The one whose last digit is even. -/
  | even
  deriving DecidableEq, Repr

/-- Compare a multiple of a power of ten with a multiple of a power of two. -/
def compareScaled (decimal : Nat) (ten : Int) (binary : Nat) (two : Int) : Ordering :=
  compare ((decimal * Nat.pow 10 ten.toNat) <<< (-two).toNat)
    ((binary * Nat.pow 10 (-ten).toNat) <<< two.toNat)

namespace Magnitude

/-- The lower end of the interval, in quarters of the unit of the mantissa. -/
def lowQuarters (magnitude : Magnitude) : Nat :=
  4 * magnitude.mantissa - if magnitude.narrowBelow then 1 else 2

/-- The upper end of the interval, in quarters of the unit of the mantissa. -/
def highQuarters (magnitude : Magnitude) : Nat := 4 * magnitude.mantissa + 2

/-- Whether a decimal rounds to a magnitude. -/
def readsBack (magnitude : Magnitude) (decimal : Decimal) : Bool :=
  let ends := magnitude.mantissa % 2 == 0
  let low := compareScaled decimal.digits decimal.exponent magnitude.lowQuarters
    (magnitude.exponent - 2)
  let high := compareScaled decimal.digits decimal.exponent magnitude.highQuarters
    (magnitude.exponent - 2)
  (low == .gt || (ends && low == .eq)) && (high == .lt || (ends && high == .eq))

/-- The neighbour of a magnitude from below on the grid with a last place. -/
def neighbour (magnitude : Magnitude) (place : Int) : Nat :=
  let (dividend, divisor) := magnitude.ratio
  (dividend * Nat.pow 10 (-place).toNat) / (divisor * Nat.pow 10 place.toNat)

/-- The decimal on a grid that rounds to a magnitude, if there is one. -/
def onGrid? (tie : Tie) (magnitude : Magnitude) (place : Int) : Option Decimal :=
  let digits := magnitude.neighbour place
  let below : Decimal := ⟨digits, place⟩
  let above : Decimal := ⟨digits + 1, place⟩
  match magnitude.readsBack below, magnitude.readsBack above with
  | false, false => none
  | true, false => some below
  | false, true => some above
  | true, true =>
      -- The magnitude against the middle of the two.
      match compareScaled (2 * digits + 1) place magnitude.mantissa (magnitude.exponent + 1) with
      | .gt => some below
      | .lt => some above
      | .eq => if tie = .even ∧ digits % 2 = 0 then some below else some above

/-- The places of the grids that are searched, the coarsest first. No magnitude reaches
the coarsest, and none needs the finest. -/
def places : List Int := (List.range 650).map fun step : Nat => (309 : Int) - step

/-- All digits of a magnitude. -/
def exactDecimal (magnitude : Magnitude) : Decimal :=
  ⟨(magnitude.mantissa * Nat.pow 5 (-magnitude.exponent).toNat) <<< magnitude.exponent.toNat,
    min magnitude.exponent 0⟩

/-- The shortest decimal that rounds to a magnitude. -/
def shortest (tie : Tie) (magnitude : Magnitude) : Decimal :=
  (places.findSome? (magnitude.onGrid? tie)).getD magnitude.exactDecimal

end Magnitude

namespace Decimal

/-- The digits of a decimal. -/
def digitText (decimal : Decimal) : List Char := Nat.toDigits 10 decimal.digits

/-- A decimal in positional form, with a point only if something stands behind it. -/
def positional (decimal : Decimal) : String :=
  let digits := decimal.digitText
  let behind := (-decimal.exponent).toNat
  if 0 ≤ decimal.exponent then String.ofList digits ++ run decimal.exponent.toNat '0'
  else if behind < digits.length then
    String.ofList (digits.take (digits.length - behind) ++ '.' ::
      digits.drop (digits.length - behind))
  else "0." ++ run (behind - digits.length) '0' ++ String.ofList digits

end Decimal

/-- A finite number in positional form. The upper of two equally near decimals is taken. -/
def Double.positional (number : Double) : String :=
  (if number.isNegative then "-" else "") ++
    if number.isZero then "0" else (number.magnitude.shortest .upper).positional

end Sequencer.Numeral
