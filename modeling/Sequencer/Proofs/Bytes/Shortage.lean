import Sequencer.Proofs.Bytes.Words

/-!
# Reading elsewhere and reading too little

What a read finds is told by the bytes that are left to it; where these bytes stand shows in offsets
only (`Reader.shifted`). A read that takes some bytes takes them whatever stands behind them, and
where only the first of them are left it reports the end that it did not expect
(`Reader.TakesBytes`). Both are shown for words, and go from there to everything that is put
together from reads of words.
-/

namespace Sequencer

/-- The same fault, found a distance further on. -/
def Fault.shift (distance : Nat) : Fault → Fault
  | .unexpectedEnd needed offset => .unexpectedEnd needed (offset + distance)
  | .unknownOpcode opcode offset => .unknownOpcode opcode (offset + distance)
  | .truncatedFrame length => .truncatedFrame length
  | .corrupted reason => .corrupted reason

/-- A fault reports that data from `start` on ended at `stop`, where more was needed. -/
def Fault.IsShortage (fault : Fault) (start stop : Nat) : Prop :=
  ∃ needed offset, fault = .unexpectedEnd needed offset ∧ start ≤ offset ∧ offset ≤ stop ∧
    stop < offset + needed

theorem Fault.IsShortage.mono {fault : Fault} {start start' stop : Nat}
    (shortage : fault.IsShortage start stop) (earlier : start' ≤ start) :
    fault.IsShortage start' stop := by
  rcases shortage with ⟨needed, offset, rfl, begins, ends, missing⟩
  exact ⟨needed, offset, rfl, Nat.le_trans earlier begins, ends, missing⟩

namespace Bytes.Reader

variable {α β : Type}

/-! ## Reading elsewhere -/

/-- The same bytes, a distance further on. -/
def shift (distance : Nat) (reader : Reader) : Reader :=
  ⟨reader.offset + distance, reader.rest⟩

/-- What a read comes to, a distance further on. -/
def shifted (distance : Nat) : Except Fault (α × Reader) → Except Fault (α × Reader)
  | .error fault => .error (fault.shift distance)
  | .ok (value, after) => .ok (value, after.shift distance)

/-- Reads one after the other are shifted if each of them is. -/
theorem shifted_bind {distance : Nat} {next next' : α × Reader → Except Fault (β × Reader)}
    (commutes : ∀ value after,
      next' (value, after.shift distance) = shifted distance (next (value, after)))
    (result : Except Fault (α × Reader)) :
    shifted distance result >>= next' = shifted distance (result >>= next) := by
  cases result with
  | error fault => rfl
  | ok found => exact commutes found.1 found.2

theorem bytes_shift (distance count : Nat) (reader : Reader) :
    (reader.shift distance).bytes count = shifted distance (reader.bytes count) := by
  rw [bytes_eq, bytes_eq]
  by_cases enough : count ≤ reader.remaining
  · have enough' : count ≤ (reader.shift distance).remaining := enough
    rw [if_pos enough, if_pos enough', shifted, shift, shift, Nat.add_right_comm]
  · have few : ¬ count ≤ (reader.shift distance).remaining := enough
    rw [if_neg enough, if_neg few]
    rfl

theorem word_shift (distance count : Nat) (ofNumber : Nat → α) (reader : Reader) :
    (reader.shift distance).word count ofNumber =
      shifted distance (reader.word count ofNumber) := by
  rw [word, word, bytes_shift]
  cases reader.bytes count with
  | error fault => rfl
  | ok found => rfl

/-! ## Reading too little -/

/-- A read takes some bytes for a value, whatever stands behind them, and reports a shortage where
only the first of them are left. -/
structure TakesBytes (read : Reader → Except Fault (α × Reader)) (taken : List UInt8) (value : α) :
    Prop where
  whole : ∀ offset rest,
    read ⟨offset, taken ++ rest⟩ = .ok (value, ⟨offset + taken.length, rest⟩)
  short : ∀ offset first missing, taken = first ++ missing → missing ≠ [] →
    ∃ fault, read ⟨offset, first⟩ = .error fault ∧
      fault.IsShortage offset (offset + first.length)

namespace TakesBytes

theorem nothing (value : α) : TakesBytes (fun reader => .ok (value, reader)) [] value where
  whole _ _ := rfl
  short _ _ _ parts left := absurd (List.append_eq_nil_iff.mp parts.symm).2 left

/-- Reads one after the other take the bytes of both. They report a shortage in the first or, behind
it, in the second. -/
theorem bind {read : Reader → Except Fault (α × Reader)}
    {next : Reader → α × Reader → Except Fault (β × Reader)} {taken others : List UInt8} {value : α}
    {result : β} (takes : TakesBytes read taken value)
    (following : ∀ reader, TakesBytes (fun after => next reader (value, after)) others result) :
    TakesBytes (fun reader => read reader >>= next reader) (taken ++ others) result where
  whole offset rest := by
    have first := takes.whole offset (others ++ rest)
    have second := (following ⟨offset, taken ++ (others ++ rest)⟩).whole
      (offset + taken.length) rest
    rw [List.append_assoc, first, List.length_append, ← Nat.add_assoc]
    exact second
  short offset first missing parts left := by
    have behind (more : List UInt8) (others_eq : others = more ++ missing) :
        ∃ fault, (read ⟨offset, taken ++ more⟩ >>= next ⟨offset, taken ++ more⟩) = .error fault ∧
          fault.IsShortage offset (offset + (taken ++ more).length) := by
      have second := (following ⟨offset, taken ++ more⟩).short (offset + taken.length) more missing
        others_eq left
      rcases second with ⟨fault, failed, shortage⟩
      rw [takes.whole offset more, List.length_append, ← Nat.add_assoc]
      exact ⟨fault, failed, shortage.mono (Nat.le_add_right ..)⟩
    rcases List.append_eq_append_iff.mp parts with ⟨more, rfl, others_eq⟩ | ⟨more, taken_eq, rfl⟩
    · exact behind more others_eq
    · cases more with
      | nil =>
          rw [List.append_nil] at taken_eq
          have nothing := behind [] rfl
          rwa [List.append_nil, taken_eq] at nothing
      | cons byte more =>
          have first := takes.short offset first (byte :: more) taken_eq nofun
          rcases first with ⟨fault, failed, shortage⟩
          refine ⟨fault, ?_, shortage⟩
          rw [failed]
          rfl

/-- What was taken may be changed. -/
theorem change {read : Reader → Except Fault (α × Reader)} {taken : List UInt8} {value : α}
    (takes : TakesBytes read taken value) (make : α → β) :
    TakesBytes (fun reader => read reader >>= fun found => .ok (make found.1, found.2)) taken
      (make value) := by
  rw [← List.append_nil taken]
  exact takes.bind fun _ => nothing (make value)

/-- A word is taken from its bytes. -/
theorem word {count : Nat} {ofNumber : Nat → α} {taken : List UInt8} {value : α}
    (length : taken.length = count) (stands : ofNumber (toNat taken) = value) :
    TakesBytes (fun reader => reader.word count ofNumber) taken value where
  whole offset rest := by
    have found : Reader.bytes ⟨offset, taken ++ rest⟩ count =
        .ok (taken, ⟨offset + taken.length, rest⟩) :=
      bytes_eq_ok_iff.mpr ⟨length, rfl, by rw [length]⟩
    rw [Reader.word, found]
    dsimp only
    rw [stands]
  short offset first missing parts left := by
    have positive := List.length_pos_iff.mpr left
    have longer : first.length < count := by
      rw [← length, parts, List.length_append]
      omega
    have failed : Reader.bytes ⟨offset, first⟩ count = .error (.unexpectedEnd count offset) := by
      rw [bytes_eq]
      exact if_neg (Nat.not_le.mpr longer)
    refine ⟨_, ?_, count, offset, rfl, Nat.le_refl offset, Nat.le_add_right .., by omega⟩
    rw [Reader.word, failed]

theorem uint8 (word : UInt8) : TakesBytes Reader.uint8 [word] word :=
  .word rfl (by simp [toNat])

theorem uint16 (word : UInt16) : TakesBytes Reader.uint16 (ofUInt16 word) word :=
  .word (length_ofUInt16 word) (by simp)

theorem uint32 (word : UInt32) : TakesBytes Reader.uint32 (ofUInt32 word) word :=
  .word (length_ofUInt32 word) (by simp)

end TakesBytes

end Bytes.Reader

end Sequencer
