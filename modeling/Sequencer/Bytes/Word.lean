/-!
# Words as bytes

Words are stored with their least significant byte first. One pair of functions
serves words of every width; `toNat_ofNat` and `ofNat_toNat` say that each undoes
the other.
-/

namespace Sequencer.Bytes

/-- The `count` low bytes of a number, the least significant first. -/
def ofNat : (count : Nat) → Nat → List UInt8
  | 0, _ => []
  | count + 1, n => UInt8.ofNat n :: ofNat count (n / 256)

/-- The number whose bytes are given, the least significant first. -/
def toNat : List UInt8 → Nat
  | [] => 0
  | b :: rest => b.toNat + 256 * toNat rest

/-- How many words there are of a number of bytes. -/
def capacity : Nat → Nat
  | 0 => 1
  | count + 1 => 256 * capacity count

@[simp]
theorem length_ofNat (count n : Nat) : (ofNat count n).length = count := by
  induction count generalizing n with
  | zero => rfl
  | succ count inductionHypothesis => simp [ofNat, inductionHypothesis]

/-- Reading back what was stored keeps the number modulo the width. -/
theorem toNat_ofNat (count n : Nat) : toNat (ofNat count n) = n % capacity count := by
  induction count generalizing n with
  | zero => simp [ofNat, toNat, capacity, Nat.mod_one]
  | succ count inductionHypothesis =>
      simp only [ofNat, toNat, capacity, inductionHypothesis, UInt8.toNat_ofNat']
      rw [Nat.mod_mul]

/-- Storing what was read gives the bytes back. -/
theorem ofNat_toNat (bytes : List UInt8) : ofNat bytes.length (toNat bytes) = bytes := by
  induction bytes with
  | nil => rfl
  | cons b rest inductionHypothesis =>
      have small : b.toNat < 256 := b.toNat_lt
      have quotient : (b.toNat + 256 * toNat rest) / 256 = toNat rest := by omega
      have byte : UInt8.ofNat (b.toNat + 256 * toNat rest) = b := by
        apply UInt8.toNat_inj.1
        rw [UInt8.toNat_ofNat']
        omega
      simp [ofNat, toNat, quotient, byte, inductionHypothesis]

/-- What is stored in bytes is one of the words of so many bytes. -/
theorem toNat_lt (bytes : List UInt8) : toNat bytes < capacity bytes.length := by
  induction bytes with
  | nil => simp [toNat, capacity]
  | cons b rest inductionHypothesis =>
      have small : b.toNat < 256 := b.toNat_lt
      simp only [toNat, List.length_cons, capacity]
      omega

/-- The two bytes of a 16-bit word. -/
def ofUInt16 (word : UInt16) : List UInt8 := ofNat 2 word.toNat

/-- The four bytes of a 32-bit word. -/
def ofUInt32 (word : UInt32) : List UInt8 := ofNat 4 word.toNat

/-- The eight bytes of a 64-bit word. -/
def ofUInt64 (word : UInt64) : List UInt8 := ofNat 8 word.toNat

end Sequencer.Bytes
