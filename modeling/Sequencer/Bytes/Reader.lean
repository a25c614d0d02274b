import Sequencer.Bytes.Word
import Sequencer.Fault

/-!
# Reading bytes in sequence

A reader holds the bytes that are left and the number of those already passed. A
read that asks for more than is left fails and passes nothing.
-/

namespace Sequencer.Bytes

/-- Split off the first `count` elements, if there are that many. -/
def split? : Nat → List UInt8 → Option (List UInt8 × List UInt8)
  | 0, bytes => some ([], bytes)
  | _ + 1, [] => none
  | count + 1, b :: rest => (split? count rest).map fun parts => (b :: parts.1, parts.2)

theorem split?_eq (count : Nat) (bytes : List UInt8) :
    split? count bytes =
      if count ≤ bytes.length then some (bytes.take count, bytes.drop count) else none := by
  induction count generalizing bytes with
  | zero => simp [split?]
  | succ count inductionHypothesis =>
      cases bytes with
      | nil => simp [split?]
      | cons b rest =>
          by_cases enough : count ≤ rest.length <;>
            simp [split?, inductionHypothesis, enough]

/-- A position in a sequence of bytes. -/
structure Reader where
  /-- The number of bytes passed. -/
  offset : Nat
  /-- The bytes that are left. -/
  rest : List UInt8
  deriving DecidableEq, Repr

namespace Reader

/-- The position before the first byte. -/
def start (bytes : List UInt8) : Reader := ⟨0, bytes⟩

/-- The number of bytes that are left. -/
def remaining (reader : Reader) : Nat := reader.rest.length

/-- Read `count` bytes. -/
def bytes (reader : Reader) (count : Nat) : Except Fault (List UInt8 × Reader) :=
  match split? count reader.rest with
  | some (read, rest) => .ok (read, ⟨reader.offset + count, rest⟩)
  | none => .error (.unexpectedEnd count reader.offset)

/-- A read succeeds exactly when enough bytes are left; it then passes them, and
otherwise reports where it stood. -/
theorem bytes_eq (reader : Reader) (count : Nat) :
    reader.bytes count =
      if count ≤ reader.remaining then
        .ok (reader.rest.take count, ⟨reader.offset + count, reader.rest.drop count⟩)
      else .error (.unexpectedEnd count reader.offset) := by
  unfold bytes remaining
  rw [split?_eq]
  split <;> simp_all

/-- A successful read passes as many bytes as it was asked for. -/
theorem length_rest_of_bytes {reader rest : Reader} {count : Nat} {read : List UInt8}
    (done : reader.bytes count = .ok (read, rest)) :
    rest.remaining + count = reader.remaining := by
  rw [bytes_eq] at done
  split at done
  · rename_i enough
    simp only [Except.ok.injEq, Prod.mk.injEq] at done
    obtain ⟨-, rfl⟩ := done
    simp only [remaining, List.length_drop] at enough ⊢
    omega
  · simp at done

/-- Read a number that is stored in `count` bytes as a word. -/
def word {α : Type} (reader : Reader) (count : Nat) (ofNumber : Nat → α) :
    Except Fault (α × Reader) :=
  match reader.bytes count with
  | .ok (read, rest) => .ok (ofNumber (toNat read), rest)
  | .error fault => .error fault

theorem length_rest_of_word {α : Type} {reader rest : Reader} {count : Nat} {value : α}
    {ofNumber : Nat → α} (done : reader.word count ofNumber = .ok (value, rest)) :
    rest.remaining + count = reader.remaining := by
  unfold word at done
  split at done
  · rename_i read
    simp only [Except.ok.injEq, Prod.mk.injEq] at done
    obtain ⟨-, rfl⟩ := done
    exact length_rest_of_bytes read
  · simp at done

/-- Read an 8-bit word. -/
def uint8 (reader : Reader) : Except Fault (UInt8 × Reader) := reader.word 1 UInt8.ofNat

/-- Read a 16-bit word. -/
def uint16 (reader : Reader) : Except Fault (UInt16 × Reader) := reader.word 2 UInt16.ofNat

/-- Read a 32-bit word. -/
def uint32 (reader : Reader) : Except Fault (UInt32 × Reader) := reader.word 4 UInt32.ofNat

/-- Read a 64-bit word. -/
def uint64 (reader : Reader) : Except Fault (UInt64 × Reader) := reader.word 8 UInt64.ofNat

theorem length_rest_of_uint8 {reader rest : Reader} {value : UInt8}
    (done : reader.uint8 = .ok (value, rest)) : rest.remaining + 1 = reader.remaining :=
  length_rest_of_word done

theorem length_rest_of_uint16 {reader rest : Reader} {value : UInt16}
    (done : reader.uint16 = .ok (value, rest)) : rest.remaining + 2 = reader.remaining :=
  length_rest_of_word done

theorem length_rest_of_uint32 {reader rest : Reader} {value : UInt32}
    (done : reader.uint32 = .ok (value, rest)) : rest.remaining + 4 = reader.remaining :=
  length_rest_of_word done

end Reader

end Sequencer.Bytes
