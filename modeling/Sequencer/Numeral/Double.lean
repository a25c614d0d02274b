/-!
# Binary floating point

A number in 64 bits has a sign, eleven bits of exponent and fifty-two bits of
fraction. A finite magnitude is a mantissa times a power of two. Rounding goes to the
nearest number, and to an even mantissa when two are equally near.
-/

namespace Sequencer.Numeral

/-- A number in 64 bits of binary floating point. -/
structure Double where
  bits : UInt64
  deriving DecidableEq, Repr, Inhabited

/-- A magnitude: a mantissa times a power of two. -/
structure Magnitude where
  mantissa : Nat
  exponent : Int
  /-- Whether the next number below is half as far away as the next one above. -/
  narrowBelow : Bool
  deriving DecidableEq, Repr, Inhabited

namespace Double

/-- The bit of the sign. -/
def signBit : Nat := 0x8000000000000000

/-- The lowest bit of the exponent. It is also the bit that stands, unwritten, in front of
the fraction. -/
def leadingBit : Nat := 0x10000000000000

/-- Whether the sign is set. -/
def isNegative (number : Double) : Bool := signBit ≤ number.bits.toNat

/-- The bits of the exponent. -/
def exponentField (number : Double) : Nat := number.bits.toNat / leadingBit % 2048

/-- The bits of the fraction. -/
def fraction (number : Double) : Nat := number.bits.toNat % leadingBit

/-- Whether it is no number at all. -/
def isNaN (number : Double) : Bool := number.exponentField == 2047 && number.fraction != 0

/-- Whether it is one of the two infinities. -/
def isInfinite (number : Double) : Bool := number.exponentField == 2047 && number.fraction == 0

/-- Whether it is one of the two zeros. -/
def isZero (number : Double) : Bool := number.exponentField == 0 && number.fraction == 0

/-- The magnitude of a finite number. -/
def magnitude (number : Double) : Magnitude :=
  let field := number.exponentField
  if field = 0 then ⟨number.fraction, -1074, false⟩
  else ⟨leadingBit + number.fraction, field - 1075, number.fraction == 0 && 1 < field⟩

/-- Whether two numbers compare as equal: zeros of both signs do, and what is no number
is equal to nothing. -/
def equals (first second : Double) : Bool :=
  !first.isNaN && !second.isNaN
    && (first == second || (first.isZero && second.isZero))

/-- The quotient of two numbers, to the nearest whole number; one half goes to the even
neighbour. -/
def roundedQuotient (dividend divisor : Nat) : Nat :=
  let quotient := dividend / divisor
  let twice := 2 * (dividend % divisor)
  if twice < divisor ∨ (twice = divisor ∧ quotient % 2 = 0) then quotient else quotient + 1

/-- The bits of positive infinity. -/
def infinityBits : Nat := 2047 * leadingBit

/-- The number nearest to a ratio, positive infinity if the ratio is too large. -/
def ofRatio (dividend divisor : Nat) : Double :=
  if dividend = 0 then ⟨0⟩
  else
    let scaled (exponent : Int) : Nat × Nat :=
      (dividend <<< (-exponent).toNat, divisor <<< exponent.toNat)
    let low : Int := max (-1074) ((dividend.log2 : Int) - divisor.log2 - 53)
    let exponent := if (scaled low).1 / (scaled low).2 < 2 * leadingBit then low else low + 1
    let mantissa := roundedQuotient (scaled exponent).1 (scaled exponent).2
    ⟨UInt64.ofNat (min infinityBits ((exponent + 1074).toNat * leadingBit + mantissa))⟩

/-- The number with the other sign. -/
def negate (number : Double) : Double := ⟨number.bits ^^^ UInt64.ofNat signBit⟩

end Double

namespace Magnitude

/-- A magnitude as a dividend and a divisor. -/
def ratio (magnitude : Magnitude) : Nat × Nat :=
  (magnitude.mantissa <<< magnitude.exponent.toNat, 1 <<< (-magnitude.exponent).toNat)

end Magnitude

end Sequencer.Numeral
