import Sequencer.Bytes.Reader
import Sequencer.Instruction.Opcode

/-!
# Instructions from bytes

Reading goes on from instruction to instruction up to the end of the code or to the
first fault, which ends it. Every field is read on its own, so a fault names the
offset of the field that is missing. A TTL channel has to be below 32 and a TTL
level has to be 0 or 1.
-/

namespace Sequencer

open Sequencer.Bytes

/-- Read a channel and a 16-bit value. -/
def Command.readChannelValue (command : UInt8 → UInt16 → Command) (reader : Reader) :
    Except Fault (Command × Reader) := do
  let (channel, reader) ← reader.uint8
  let (value, reader) ← reader.uint16
  return (command channel value, reader)

/-- Read the operands that an opcode asks for. -/
def Opcode.readOperands (reader : Reader) : Opcode → Except Fault (Command × Reader)
  | .ttlAll => do
      let (levels, reader) ← reader.uint32
      return (.ttlAll levels, reader)
  | .ttl => do
      let (channel, reader) ← reader.uint8
      let (level, reader) ← reader.uint8
      if 32 ≤ channel ∨ 1 < level then
        throw (.corrupted "TTL operand out of range")
      else return (.ttl channel (level = 1), reader)
  | .wait => return (.wait, reader)
  | .clock => do
      let (period, reader) ← reader.uint8
      return (.clock period, reader)
  | .frequency => do
      let (channel, reader) ← reader.uint8
      let (value, reader) ← reader.uint32
      return (.frequency channel value, reader)
  | .amplitude => Command.readChannelValue .amplitude reader
  | .phase => Command.readChannelValue .phase reader
  | .dac => Command.readChannelValue .dac reader

/-- Read an instruction. -/
def Instruction.read (reader : Reader) : Except Fault (Instruction × Reader) :=
  match reader.uint8 with
  | .error fault => .error fault
  | .ok (byte, afterByte) =>
      match Opcode.ofByte? byte with
      | none => .error (.unknownOpcode byte reader.offset)
      | some opcode =>
          match afterByte.uint32 with
          | .error fault => .error fault
          | .ok (wait, afterWait) =>
              match opcode.readOperands afterWait with
              | .error fault => .error fault
              | .ok (command, rest) => .ok (⟨command, wait⟩, rest)

/-- Reading operands passes exactly the bytes of the opcode's operands. -/
theorem Opcode.remaining_of_readOperands {opcode : Opcode} {reader rest : Reader}
    {command : Command} (done : opcode.readOperands reader = .ok (command, rest)) :
    rest.remaining + opcode.operandLength = reader.remaining := by
  cases opcode <;>
    simp only [readOperands, Command.readChannelValue, bind, Except.bind, pure, Except.pure,
      throw, throwThe, MonadExceptOf.throw] at done <;>
    (repeat' split at done) <;>
    grind [Opcode.operandLength, Reader.length_rest_of_uint8, Reader.length_rest_of_uint16,
      Reader.length_rest_of_uint32]

/-- Reading an instruction passes its opcode, its wait and its operands. -/
theorem Instruction.remaining_of_read {reader rest : Reader} {instruction : Instruction}
    (done : Instruction.read reader = .ok (instruction, rest)) :
    rest.remaining < reader.remaining := by
  unfold Instruction.read at done
  (repeat' split at done) <;>
    grind [→ Opcode.remaining_of_readOperands, Reader.length_rest_of_uint8,
      Reader.length_rest_of_uint32]

/-- An instruction and the offset of its first byte. -/
structure PlacedInstruction extends Instruction where
  offset : Nat
  deriving DecidableEq, Repr

/-- The instructions of a piece of code, and the fault that ended reading it. -/
structure Decoded where
  instructions : List PlacedInstruction
  fault : Option Fault
  deriving DecidableEq, Repr

namespace Decoded

/-- Read instructions from a position on. -/
def fromReader (reader : Reader) : Decoded :=
  if reader.rest.isEmpty then ⟨[], none⟩
  else
    match _done : Instruction.read reader with
    | .error fault => ⟨[], some fault⟩
    | .ok (instruction, rest) =>
        let following := fromReader rest
        ⟨{ instruction with offset := reader.offset } :: following.instructions, following.fault⟩
termination_by reader.remaining
decreasing_by exact Instruction.remaining_of_read _done

/-- Read a piece of code. -/
def ofCode (code : List UInt8) : Decoded := fromReader (Reader.start code)

/-- The clock steps of all instructions, counted modulo `2 ^ 64`. -/
def steps (decoded : Decoded) : UInt64 :=
  decoded.instructions.foldl (fun total placed => total + UInt64.ofNat placed.steps) 0

end Decoded

/-- The clock steps that a piece of code takes, if it can be read to its end. -/
def totalSteps (code : List UInt8) : Except Fault UInt64 :=
  let decoded := Decoded.ofCode code
  match decoded.fault with
  | some fault => .error fault
  | none => .ok decoded.steps

end Sequencer
