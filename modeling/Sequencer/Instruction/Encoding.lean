import Sequencer.Bytes.Word
import Sequencer.Instruction.Opcode

/-!
# Instructions as bytes

An instruction is stored as its opcode, its wait in four bytes, and the operands
of its command: a channel in one byte, a level in one byte, a value in as many
bytes as its width asks for. A program is stored as its instructions, one behind
the other.

Besides its code a program has a mask of the TTL lines that it drives. Setting all
lines drives all of them; a channel number above 31 drives none.
-/

namespace Sequencer

open Sequencer.Bytes

/-- The operand bytes of a command. -/
def Command.operandBytes : Command → List UInt8
  | .ttlAll levels => ofUInt32 levels
  | .ttl channel on => [channel, if on then 1 else 0]
  | .wait => []
  | .clock period => [period]
  | .frequency channel value => channel :: ofUInt32 value
  | .amplitude channel value => channel :: ofUInt16 value
  | .phase channel value => channel :: ofUInt16 value
  | .dac channel value => channel :: ofUInt16 value

/-- The TTL lines that a command drives. -/
def Command.ttlMask : Command → UInt32
  | .ttlAll _ => 0xFFFFFFFF
  | .ttl channel _ => if channel < 32 then 1 <<< channel.toUInt32 else 0
  | _ => 0

/-- The bytes of an instruction. -/
def Instruction.encode (instruction : Instruction) : List UInt8 :=
  instruction.opcode.toByte :: ofUInt32 instruction.wait ++ instruction.command.operandBytes

@[simp]
theorem Command.length_operandBytes (command : Command) :
    command.operandBytes.length = (Opcode.ofCommand command).operandLength := by
  cases command <;> simp [operandBytes, Opcode.ofCommand, Opcode.operandLength, ofUInt32, ofUInt16]

@[simp]
theorem Instruction.length_encode (instruction : Instruction) :
    instruction.encode.length = headLength + instruction.opcode.operandLength := by
  simp only [encode, List.cons_append, List.length_cons, List.length_append, headLength,
    Command.length_operandBytes, ofUInt32, length_ofNat, opcode]
  omega

namespace Program

/-- The bytes of a program. -/
def encode (instructions : List Instruction) : List UInt8 :=
  instructions.flatMap Instruction.encode

/-- The TTL lines that a program drives. -/
def ttlMask (instructions : List Instruction) : UInt32 :=
  instructions.foldl (fun mask instruction => mask ||| instruction.command.ttlMask) 0

end Program

end Sequencer
