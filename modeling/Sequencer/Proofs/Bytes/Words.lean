import Sequencer.Bytes.Reader
import Mathlib.Algebra.Ring.Nat

/-!
# Reading stored words

A word is read exactly where its bytes stand. Each statement below is an equivalence: from left
to right it says what a successful read found, from right to left that what was stored can be
read back.
-/

namespace Sequencer.Bytes

theorem toNat_ofNat_of_lt {count n : Nat} (small : n < capacity count) :
    toNat (ofNat count n) = n := by
  rw [toNat_ofNat, Nat.mod_eq_of_lt small]

/-- The byte in each place is told by division. -/
theorem ofNat_eq_map_range (count n : Nat) :
    ofNat count n = (List.range count).map fun place => UInt8.ofNat (n / 256 ^ place) := by
  induction count generalizing n with
  | zero => rfl
  | succ count inductionHypothesis =>
      have later (place : Nat) : n / 256 ^ (place + 1) = n / 256 / 256 ^ place := by
        rw [Nat.pow_succ', Nat.div_div_eq_div_mul]
      rw [ofNat, inductionHypothesis, List.range_succ_eq_map, List.map_cons, List.map_map]
      simp [Function.comp_def, later]

@[simp]
theorem length_ofUInt16 (word : UInt16) : (ofUInt16 word).length = 2 :=
  length_ofNat _ _

@[simp]
theorem length_ofUInt32 (word : UInt32) : (ofUInt32 word).length = 4 :=
  length_ofNat _ _

@[simp]
theorem length_ofUInt64 (word : UInt64) : (ofUInt64 word).length = 8 :=
  length_ofNat _ _

@[simp]
theorem toNat_ofUInt16 (word : UInt16) : toNat (ofUInt16 word) = word.toNat :=
  toNat_ofNat_of_lt word.toNat_lt

@[simp]
theorem toNat_ofUInt32 (word : UInt32) : toNat (ofUInt32 word) = word.toNat :=
  toNat_ofNat_of_lt word.toNat_lt

@[simp]
theorem toNat_ofUInt64 (word : UInt64) : toNat (ofUInt64 word) = word.toNat :=
  toNat_ofNat_of_lt word.toNat_lt

theorem ofUInt16_ofNat_toNat {bytes : List UInt8} (enough : bytes.length = 2) :
    ofUInt16 (UInt16.ofNat (toNat bytes)) = bytes := by
  have small : toNat bytes < UInt16.size := by
    simpa [enough, capacity] using toNat_lt bytes
  rw [ofUInt16, UInt16.toNat_ofNat', Nat.mod_eq_of_lt small, ← enough, ofNat_toNat]

theorem ofUInt32_ofNat_toNat {bytes : List UInt8} (enough : bytes.length = 4) :
    ofUInt32 (UInt32.ofNat (toNat bytes)) = bytes := by
  have small : toNat bytes < UInt32.size := by
    simpa [enough, capacity] using toNat_lt bytes
  rw [ofUInt32, UInt32.toNat_ofNat', Nat.mod_eq_of_lt small, ← enough, ofNat_toNat]

theorem ofUInt64_ofNat_toNat {bytes : List UInt8} (enough : bytes.length = 8) :
    ofUInt64 (UInt64.ofNat (toNat bytes)) = bytes := by
  have small : toNat bytes < UInt64.size := by
    simpa [enough, capacity] using toNat_lt bytes
  rw [ofUInt64, UInt64.toNat_ofNat', Nat.mod_eq_of_lt small, ← enough, ofNat_toNat]

theorem singleton_ofNat_toNat {bytes : List UInt8} (enough : bytes.length = 1) :
    [UInt8.ofNat (toNat bytes)] = bytes := by
  rcases List.length_eq_one_iff.mp enough with ⟨b, rfl⟩
  simp [toNat]

namespace Reader

/-- A read finds the bytes that stand first. -/
theorem bytes_eq_ok_iff {reader after : Reader} {count : Nat} {read : List UInt8} :
    reader.bytes count = .ok (read, after) ↔
      read.length = count ∧ reader.rest = read ++ after.rest ∧
        after.offset = reader.offset + count := by
  rw [bytes_eq, remaining]
  constructor
  · intro done
    split at done
    · rename_i enough
      simp only [Except.ok.injEq, Prod.mk.injEq] at done
      rcases done with ⟨rfl, rfl⟩
      simp [enough]
    · contradiction
  · rintro ⟨rfl, whole, moved⟩
    have enough : read.length ≤ reader.rest.length := by simp [whole]
    rcases after with ⟨offset, rest⟩
    simp_all

/-- A word is read where its bytes stand, whatever stores it. -/
theorem word_eq_ok_iff {α : Type} {count : Nat} {ofNumber : Nat → α} (store : α → List UInt8)
    (length : ∀ value, (store value).length = count)
    (read_store : ∀ value, ofNumber (toNat (store value)) = value)
    (store_read : ∀ bytes, bytes.length = count → store (ofNumber (toNat bytes)) = bytes)
    {reader after : Reader} {value : α} :
    reader.word count ofNumber = .ok (value, after) ↔
      reader.rest = store value ++ after.rest ∧ after.offset = reader.offset + count := by
  unfold word
  constructor
  · intro done
    split at done
    · rename_i read rest found
      rcases bytes_eq_ok_iff.mp found with ⟨enough, whole, moved⟩
      simp only [Except.ok.injEq, Prod.mk.injEq] at done
      rcases done with ⟨rfl, rfl⟩
      rw [store_read read enough]
      exact ⟨whole, moved⟩
    · contradiction
  · rintro ⟨whole, moved⟩
    rw [bytes_eq_ok_iff.mpr ⟨length value, whole, moved⟩]
    simp [read_store]

theorem uint8_eq_ok_iff {reader after : Reader} {value : UInt8} :
    reader.uint8 = .ok (value, after) ↔
      reader.rest = value :: after.rest ∧ after.offset = reader.offset + 1 :=
  word_eq_ok_iff (fun value => [value]) (fun _ => rfl) (by simp [toNat])
    (fun _ => singleton_ofNat_toNat)

theorem uint16_eq_ok_iff {reader after : Reader} {value : UInt16} :
    reader.uint16 = .ok (value, after) ↔
      reader.rest = ofUInt16 value ++ after.rest ∧ after.offset = reader.offset + 2 :=
  word_eq_ok_iff ofUInt16 length_ofUInt16 (by simp) (fun _ => ofUInt16_ofNat_toNat)

theorem uint32_eq_ok_iff {reader after : Reader} {value : UInt32} :
    reader.uint32 = .ok (value, after) ↔
      reader.rest = ofUInt32 value ++ after.rest ∧ after.offset = reader.offset + 4 :=
  word_eq_ok_iff ofUInt32 length_ofUInt32 (by simp) (fun _ => ofUInt32_ofNat_toNat)

theorem uint64_eq_ok_iff {reader after : Reader} {value : UInt64} :
    reader.uint64 = .ok (value, after) ↔
      reader.rest = ofUInt64 value ++ after.rest ∧ after.offset = reader.offset + 8 :=
  word_eq_ok_iff ofUInt64 length_ofUInt64 (by simp) (fun _ => ofUInt64_ofNat_toNat)

end Reader

end Sequencer.Bytes
