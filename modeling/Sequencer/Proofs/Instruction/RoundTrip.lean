import Sequencer.Instruction.Decoding
import Sequencer.Instruction.Encoding
import Sequencer.Proofs.Bytes.Words
import Mathlib.Algebra.Ring.Nat

/-!
# Code as a format of programs

Encoding and decoding undo each other between the programs whose TTL channels are below
thirty-two and the pieces of code that are read without a fault. The facts about one instruction
are equivalences, so that both directions follow from the same statement; a program is then read
instruction by instruction, whatever stands behind it.
-/

namespace Sequencer

open Sequencer.Bytes

/-- A reading step and what follows it succeed exactly when both do. -/
theorem bind_eq_ok_iff {ε α β : Type} {first : Except ε α} {next : α → Except ε β} {result : β} :
    first >>= next = .ok result ↔ ∃ middle, first = .ok middle ∧ next middle = .ok result := by
  cases first with
  | error error => simp [bind, Except.bind]
  | ok middle => simp [bind, Except.bind]

/-! ## One instruction -/

/-- A command names no TTL line that there is not. -/
def Command.InRange : Command → Prop
  | .ttl channel _ => channel < 32
  | _ => True

instance : DecidablePred Command.InRange
  | .ttl channel _ => inferInstanceAs (Decidable (channel < 32))
  | .ttlAll _ | .wait | .clock _ | .frequency _ _ | .amplitude _ _ | .phase _ _ | .dac _ _ =>
      .isTrue trivial

/-- A byte that is at most one is a level. -/
theorem eq_bit_of_not_one_lt {level : UInt8} (small : ¬ 1 < level) :
    level = if level = 1 then 1 else 0 := by
  by_cases one : level = 1
  · rw [if_pos one, one]
  · rw [if_neg one]
    rw [UInt8.lt_iff_toNat_lt, UInt8.toNat_one] at small
    rw [← UInt8.toNat_inj, UInt8.toNat_one] at one
    apply UInt8.toNat_inj.mp
    rw [UInt8.toNat_zero]
    omega

/-- Only one byte stands for an opcode. -/
theorem Opcode.toByte_of_ofByte? {byte : UInt8} {opcode : Opcode}
    (known : ofByte? byte = some opcode) : opcode.toByte = byte := by
  unfold ofByte? at known
  split at known <;> cases known <;> rfl

theorem Command.readChannelValue_eq_ok_iff {make : UInt8 → UInt16 → Command}
    {reader after : Reader} {command : Command} :
    readChannelValue make reader = .ok (command, after) ↔
      ∃ channel value, command = make channel value ∧
        reader.rest = channel :: ofUInt16 value ++ after.rest ∧
        after.offset = reader.offset + 3 := by
  simp only [readChannelValue, bind_eq_ok_iff, Prod.exists, Reader.uint8_eq_ok_iff,
    Reader.uint16_eq_ok_iff, pure, Except.pure, Except.ok.injEq, Prod.mk.injEq]
  constructor
  · rintro ⟨channel, middle, ⟨whole, moved⟩, value, rest, ⟨whole', moved'⟩, rfl, rfl⟩
    exact ⟨channel, value, rfl, by simp [whole, whole'], by omega⟩
  · rintro ⟨channel, value, rfl, whole, moved⟩
    exact ⟨channel, ⟨reader.offset + 1, ofUInt16 value ++ after.rest⟩, ⟨whole, rfl⟩,
      value, after, ⟨rfl, moved⟩, rfl, rfl⟩

theorem Opcode.readOperands_ttl_eq_ok_iff {reader after : Reader} {command : Command} :
    Opcode.ttl.readOperands reader = .ok (command, after) ↔
      ∃ channel on, command = .ttl channel on ∧ channel < 32 ∧
        reader.rest = (Command.ttl channel on).operandBytes ++ after.rest ∧
        after.offset = reader.offset + 2 := by
  simp only [readOperands, bind_eq_ok_iff, Prod.exists, Reader.uint8_eq_ok_iff, pure, Except.pure,
    throw, throwThe, MonadExceptOf.throw, Command.operandBytes]
  constructor
  · rintro ⟨channel, middle, ⟨whole, moved⟩, level, rest, ⟨whole', moved'⟩, done⟩
    split at done
    · contradiction
    · rename_i accepted
      simp only [not_or, UInt8.not_le] at accepted
      simp only [Except.ok.injEq, Prod.mk.injEq] at done
      rcases done with ⟨rfl, rfl⟩
      refine ⟨channel, decide (level = 1), rfl, accepted.1, ?_, by omega⟩
      have byte : level = if decide (level = 1) then 1 else 0 := by
        simpa using eq_bit_of_not_one_lt accepted.2
      rw [← byte]
      simp [whole, whole']
  · rintro ⟨channel, on, rfl, small, whole, moved⟩
    refine ⟨channel, ⟨reader.offset + 1, (if on then 1 else 0) :: after.rest⟩, ⟨whole, rfl⟩,
      if on then 1 else 0, after, ⟨rfl, moved⟩, ?_⟩
    have level : ¬ (1 : UInt8) < if on then 1 else 0 := by cases on <;> decide
    rw [if_neg (not_or.mpr ⟨UInt8.not_le.mpr small, level⟩)]
    cases on <;> rfl

/-- Operands are read exactly where they stand behind each other. -/
theorem Opcode.readOperands_eq_ok_iff {opcode : Opcode} {reader after : Reader}
    {command : Command} :
    opcode.readOperands reader = .ok (command, after) ↔
      ofCommand command = opcode ∧ command.InRange ∧
        reader.rest = command.operandBytes ++ after.rest ∧
        after.offset = reader.offset + opcode.operandLength := by
  cases opcode with
  | ttlAll =>
      simp only [readOperands, bind_eq_ok_iff, Prod.exists, Reader.uint32_eq_ok_iff, pure,
        Except.pure, Except.ok.injEq, Prod.mk.injEq]
      constructor
      · rintro ⟨levels, rest, ⟨whole, moved⟩, rfl, rfl⟩
        exact ⟨rfl, trivial, whole, moved⟩
      · rintro ⟨kind, -, whole, moved⟩
        cases command <;> simp only [ofCommand, reduceCtorEq] at kind
        exact ⟨_, after, ⟨whole, moved⟩, rfl, rfl⟩
  | ttl =>
      rw [readOperands_ttl_eq_ok_iff]
      constructor
      · rintro ⟨channel, on, rfl, small, whole, moved⟩
        exact ⟨rfl, small, whole, moved⟩
      · rintro ⟨kind, small, whole, moved⟩
        cases command <;> simp only [ofCommand, reduceCtorEq] at kind
        exact ⟨_, _, rfl, small, whole, moved⟩
  | wait =>
      simp only [readOperands, pure, Except.pure, Except.ok.injEq, Prod.mk.injEq]
      constructor
      · rintro ⟨rfl, rfl⟩
        exact ⟨rfl, trivial, rfl, rfl⟩
      · rintro ⟨kind, -, whole, moved⟩
        cases command <;> simp only [ofCommand, reduceCtorEq] at kind
        rcases reader with ⟨offset, rest⟩
        rcases after with ⟨offset', rest'⟩
        simp_all [Command.operandBytes, operandLength]
  | clock =>
      simp only [readOperands, bind_eq_ok_iff, Prod.exists, Reader.uint8_eq_ok_iff, pure,
        Except.pure, Except.ok.injEq, Prod.mk.injEq]
      constructor
      · rintro ⟨period, rest, ⟨whole, moved⟩, rfl, rfl⟩
        exact ⟨rfl, trivial, whole, moved⟩
      · rintro ⟨kind, -, whole, moved⟩
        cases command <;> simp only [ofCommand, reduceCtorEq] at kind
        exact ⟨_, after, ⟨whole, moved⟩, rfl, rfl⟩
  | frequency =>
      simp only [readOperands, bind_eq_ok_iff, Prod.exists, Reader.uint8_eq_ok_iff,
        Reader.uint32_eq_ok_iff, pure, Except.pure, Except.ok.injEq, Prod.mk.injEq]
      constructor
      · rintro ⟨channel, middle, ⟨whole, moved⟩, value, rest, ⟨whole', moved'⟩, rfl, rfl⟩
        refine ⟨rfl, trivial, ?_, ?_⟩
        · simp [Command.operandBytes, whole, whole']
        · simp only [operandLength]
          omega
      · rintro ⟨kind, -, whole, moved⟩
        cases command <;> simp only [ofCommand, reduceCtorEq] at kind
        exact ⟨_, ⟨reader.offset + 1, _⟩, ⟨whole, rfl⟩, _, after, ⟨rfl, moved⟩, rfl, rfl⟩
  | amplitude | phase | dac =>
      simp only [readOperands, Command.readChannelValue_eq_ok_iff]
      constructor
      · rintro ⟨channel, value, rfl, whole, moved⟩
        exact ⟨rfl, trivial, whole, moved⟩
      · rintro ⟨kind, -, whole, moved⟩
        cases command <;> simp only [ofCommand, reduceCtorEq] at kind
        exact ⟨_, _, rfl, whole, moved⟩

/-- Behind its opcode and its wait only the operands of an instruction decide. -/
theorem Instruction.read_encode_append (offset : Nat) (instruction : Instruction)
    (rest : List UInt8) :
    Instruction.read ⟨offset, instruction.encode ++ rest⟩ =
      match instruction.opcode.readOperands
        ⟨offset + headLength, instruction.command.operandBytes ++ rest⟩ with
      | .error fault => .error fault
      | .ok (command, after) => .ok (⟨command, instruction.wait⟩, after) := by
  have readByte : Reader.uint8 ⟨offset, instruction.encode ++ rest⟩ =
      .ok (instruction.opcode.toByte, ⟨offset + 1, ofUInt32 instruction.wait ++
        (instruction.command.operandBytes ++ rest)⟩) :=
    Reader.uint8_eq_ok_iff.mpr ⟨by simp [encode], rfl⟩
  have readWait : Reader.uint32 ⟨offset + 1, ofUInt32 instruction.wait ++
      (instruction.command.operandBytes ++ rest)⟩ =
      .ok (instruction.wait, ⟨offset + headLength, instruction.command.operandBytes ++ rest⟩) :=
    Reader.uint32_eq_ok_iff.mpr ⟨rfl, rfl⟩
  cases operands : instruction.opcode.readOperands
      ⟨offset + headLength, instruction.command.operandBytes ++ rest⟩ with
  | error fault => simp only [Instruction.read, readByte, readWait, Opcode.ofByte?_toByte, operands]
  | ok result => simp only [Instruction.read, readByte, readWait, Opcode.ofByte?_toByte, operands]

/-- An instruction is read exactly where its bytes stand. -/
theorem Instruction.read_eq_ok_iff {reader after : Reader} {instruction : Instruction} :
    Instruction.read reader = .ok (instruction, after) ↔
      instruction.command.InRange ∧ reader.rest = instruction.encode ++ after.rest ∧
        after.offset = reader.offset + instruction.encode.length := by
  constructor
  · intro done
    unfold Instruction.read at done
    split at done
    · contradiction
    rename_i byte afterByte readByte
    split at done
    · contradiction
    rename_i kind known
    split at done
    · contradiction
    rename_i wait afterWait readWait
    split at done
    · contradiction
    rename_i command rest readCommand
    simp only [Except.ok.injEq, Prod.mk.injEq] at done
    rcases done with ⟨rfl, rfl⟩
    rcases Reader.uint8_eq_ok_iff.mp readByte with ⟨whole, moved⟩
    rcases Reader.uint32_eq_ok_iff.mp readWait with ⟨whole', moved'⟩
    rcases Opcode.readOperands_eq_ok_iff.mp readCommand with ⟨rfl, inRange, whole'', moved''⟩
    refine ⟨inRange, ?_, ?_⟩
    · simp [encode, opcode, whole, whole', whole'', Opcode.toByte_of_ofByte? known]
    · simp only [length_encode, headLength, opcode]
      omega
  · rintro ⟨inRange, whole, moved⟩
    rcases reader with ⟨offset, bytes⟩
    simp only at whole moved
    have operands : instruction.opcode.readOperands
        ⟨offset + headLength, instruction.command.operandBytes ++ after.rest⟩ =
        .ok (instruction.command, after) := by
      refine Opcode.readOperands_eq_ok_iff.mpr ⟨rfl, inRange, rfl, ?_⟩
      rw [moved, length_encode]
      exact (Nat.add_assoc ..).symm
    rw [whole, read_encode_append, operands]

/-- An instruction for a TTL line that there is not is refused when its operands are read. -/
theorem Instruction.read_encode_append_of_not_inRange (offset : Nat) {instruction : Instruction}
    (rest : List UInt8) (outOfRange : ¬ instruction.command.InRange) :
    Instruction.read ⟨offset, instruction.encode ++ rest⟩ =
      .error (.corrupted "TTL operand out of range") := by
  rcases instruction with ⟨command, wait⟩
  cases command with
  | ttl channel on =>
      have large : 32 ≤ channel := UInt8.not_lt.mp outOfRange
      have readChannel : Reader.uint8 ⟨offset + headLength,
          channel :: (if on then 1 else 0) :: rest⟩ =
          .ok (channel, ⟨offset + headLength + 1, (if on then 1 else 0) :: rest⟩) :=
        Reader.uint8_eq_ok_iff.mpr ⟨rfl, rfl⟩
      have readLevel : Reader.uint8 ⟨offset + headLength + 1, (if on then 1 else 0) :: rest⟩ =
          .ok (if on then 1 else 0, ⟨offset + headLength + 2, rest⟩) :=
        Reader.uint8_eq_ok_iff.mpr ⟨rfl, rfl⟩
      rw [read_encode_append]
      simp [opcode, Opcode.ofCommand, Opcode.readOperands, Command.operandBytes, readChannel,
        readLevel, large, bind, Except.bind, throw, throwThe, MonadExceptOf.throw]
  | _ => exact absurd trivial outOfRange

/-! ## Programs -/

namespace Program

/-- The instructions of a program at their places in its code, the first of them at `offset`. -/
def place (offset : Nat) : List Instruction → List PlacedInstruction
  | [] => []
  | instruction :: rest =>
      { instruction with offset } :: place (offset + instruction.encode.length) rest

@[simp]
theorem map_toInstruction_place (offset : Nat) (instructions : List Instruction) :
    (place offset instructions).map PlacedInstruction.toInstruction = instructions := by
  induction instructions generalizing offset with
  | nil => rfl
  | cons instruction rest inductionHypothesis => simp [place, inductionHypothesis]

/-- An instruction stands behind the bytes of all instructions before it. -/
theorem getElem?_place (offset index : Nat) (instructions : List Instruction) :
    (place offset instructions)[index]? =
      instructions[index]?.map fun instruction =>
        { instruction with
          offset := offset + (encode (instructions.take index)).length } := by
  induction instructions generalizing offset index with
  | nil => simp [place]
  | cons instruction rest inductionHypothesis =>
      cases index with
      | zero => simp [place, encode]
      | succ index => simp [place, inductionHypothesis, encode, Nat.add_assoc]

@[simp]
theorem encode_nil : encode [] = [] :=
  rfl

@[simp]
theorem encode_cons (instruction : Instruction) (rest : List Instruction) :
    encode (instruction :: rest) = instruction.encode ++ encode rest :=
  rfl

@[simp]
theorem encode_append (first second : List Instruction) :
    encode (first ++ second) = encode first ++ encode second :=
  List.flatMap_append

/-- A program is as long as its instructions together. -/
theorem length_encode (instructions : List Instruction) :
    (encode instructions).length =
      (instructions.map fun instruction => 5 + instruction.opcode.operandLength).sum := by
  induction instructions with
  | nil => rfl
  | cons instruction rest inductionHypothesis =>
      simp [inductionHypothesis, Instruction.headLength]

end Program

namespace Decoded

theorem fromReader_nil (offset : Nat) : fromReader ⟨offset, []⟩ = ⟨[], none⟩ := by
  rw [fromReader]
  rfl

/-- Reading goes on behind an instruction that was read. -/
theorem fromReader_of_read {reader after : Reader} {instruction : Instruction}
    (done : Instruction.read reader = .ok (instruction, after)) :
    fromReader reader =
      ⟨{ instruction with offset := reader.offset } :: (fromReader after).instructions,
        (fromReader after).fault⟩ := by
  have shorter := Instruction.remaining_of_read done
  have left : reader.rest.isEmpty = false := by
    cases bytes : reader.rest with
    | nil => simp [Reader.remaining, bytes] at shorter
    | cons b rest => rfl
  rw [fromReader, if_neg (by simp [left])]
  split
  · rename_i fault failed
    simp [done] at failed
  · rename_i found rest read
    rw [done, Except.ok.injEq, Prod.mk.injEq] at read
    rcases read with ⟨rfl, rfl⟩
    rfl

/-- Reading ends with a fault where an instruction cannot be read. -/
theorem fromReader_of_read_error {reader : Reader} {fault : Fault}
    (left : reader.rest ≠ []) (failed : Instruction.read reader = .error fault) :
    fromReader reader = ⟨[], some fault⟩ := by
  rw [fromReader, if_neg (by simpa using left)]
  split
  · rename_i found read
    rw [failed, Except.error.injEq] at read
    rw [read]
  · rename_i found rest read
    simp [failed] at read

/-- A program is read back before reading goes on behind it. -/
theorem fromReader_encode_append (offset : Nat) {instructions : List Instruction}
    (rest : List UInt8) (inRange : ∀ instruction ∈ instructions, instruction.command.InRange) :
    fromReader ⟨offset, Program.encode instructions ++ rest⟩ =
      ⟨Program.place offset instructions ++
          (fromReader ⟨offset + (Program.encode instructions).length, rest⟩).instructions,
        (fromReader ⟨offset + (Program.encode instructions).length, rest⟩).fault⟩ := by
  induction instructions generalizing offset with
  | nil => rfl
  | cons instruction following inductionHypothesis =>
      rcases List.forall_mem_cons.mp inRange with ⟨first, others⟩
      have read : Instruction.read
          ⟨offset, Program.encode (instruction :: following) ++ rest⟩ =
          .ok (instruction, ⟨offset + instruction.encode.length,
            Program.encode following ++ rest⟩) :=
        Instruction.read_eq_ok_iff.mpr ⟨first, by simp, rfl⟩
      rw [fromReader_of_read read, inductionHypothesis _ others]
      simp only [Program.encode_cons, List.length_append, Program.place, List.cons_append,
        Nat.add_assoc]

/-- Code that is read without a fault is the code of what was read. -/
theorem rest_eq_encode_of_fault_eq_none {reader : Reader}
    (complete : (fromReader reader).fault = none) :
    reader.rest =
      Program.encode ((fromReader reader).instructions.map PlacedInstruction.toInstruction) := by
  fun_induction fromReader reader with
  | case1 reader empty => simpa using empty
  | case2 reader left fault failed => simp at complete
  | case3 reader left instruction after read following inductionHypothesis =>
      rcases Instruction.read_eq_ok_iff.mp read with ⟨-, whole, -⟩
      rw [whole, inductionHypothesis complete]
      rfl

end Decoded

namespace Program

/-- A program without commands for TTL lines that there are not is read back from its code. -/
theorem ofCode_encode {instructions : List Instruction}
    (inRange : ∀ instruction ∈ instructions, instruction.command.InRange) :
    Decoded.ofCode (encode instructions) = ⟨place 0 instructions, none⟩ := by
  have read := Decoded.fromReader_encode_append 0 [] inRange
  rw [List.append_nil, Decoded.fromReader_nil, List.append_nil] at read
  exact read

/-- Reading the code of a program ends at its first command for a TTL line that there is not. -/
theorem ofCode_encode_of_not_inRange {before after : List Instruction} {instruction : Instruction}
    (inRange : ∀ earlier ∈ before, earlier.command.InRange)
    (outOfRange : ¬ instruction.command.InRange) :
    Decoded.ofCode (encode (before ++ instruction :: after)) =
      ⟨place 0 before, some (.corrupted "TTL operand out of range")⟩ := by
  have refused := Decoded.fromReader_of_read_error (by simp [Instruction.encode])
    (Instruction.read_encode_append_of_not_inRange (0 + (encode before).length)
      (encode after) outOfRange)
  have read := Decoded.fromReader_encode_append 0 (encode (instruction :: after)) inRange
  rw [encode_cons, refused, List.append_nil] at read
  rw [encode_append, encode_cons]
  exact read

/-- Encoding and decoding are inverse to each other between the programs without commands for
TTL lines that there are not and the pieces of code that are read without a fault. Every other
program has a code that is read up to its first such command. -/
theorem decode_encode_inverse :
    (∀ instructions : List Instruction,
      (∀ instruction ∈ instructions, instruction.command.InRange) →
        Decoded.ofCode (encode instructions) = ⟨place 0 instructions, none⟩ ∧
        (place 0 instructions).map PlacedInstruction.toInstruction = instructions ∧
        (encode instructions).length =
          (instructions.map fun instruction => 5 + instruction.opcode.operandLength).sum) ∧
    (∀ code : List UInt8, (Decoded.ofCode code).fault = none →
      encode ((Decoded.ofCode code).instructions.map PlacedInstruction.toInstruction) = code) ∧
    (∀ (before after : List Instruction) (channel : UInt8) (on : Bool) (wait : UInt32),
      (∀ instruction ∈ before, instruction.command.InRange) → 32 ≤ channel →
        Decoded.ofCode (encode (before ++ ⟨.ttl channel on, wait⟩ :: after)) =
          ⟨place 0 before, some (.corrupted "TTL operand out of range")⟩) := by
  refine ⟨?_, ?_, ?_⟩
  · intro instructions inRange
    exact ⟨ofCode_encode inRange, map_toInstruction_place 0 instructions,
      length_encode instructions⟩
  · intro code complete
    exact (Decoded.rest_eq_encode_of_fault_eq_none complete).symm
  · intro before after channel on wait inRange large
    exact ofCode_encode_of_not_inRange inRange (UInt8.not_lt.mpr large)

/-- The last TTL line there is, and the first one there is not. -/
theorem decode_encode_inverse_last_line :
    Decoded.ofCode (encode [⟨.ttl 31 true, 7⟩, ⟨.dac 3 65535, 0⟩]) =
        ⟨place 0 [⟨.ttl 31 true, 7⟩, ⟨.dac 3 65535, 0⟩], none⟩ ∧
      Decoded.ofCode (encode [⟨.wait, 7⟩, ⟨.ttl 32 true, 0⟩, ⟨.wait, 1⟩]) =
        ⟨place 0 [⟨.wait, 7⟩], some (.corrupted "TTL operand out of range")⟩ := by
  obtain ⟨inRange, -, outOfRange⟩ := decode_encode_inverse
  constructor
  · exact (inRange _ (by decide)).1
  · exact outOfRange [⟨.wait, 7⟩] [⟨.wait, 1⟩] 32 true 0 (by decide) (by decide)

end Program

end Sequencer
