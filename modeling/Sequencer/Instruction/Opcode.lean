import Sequencer.Command

/-!
# Opcodes

Every kind of command has an opcode, a mnemonic, a fixed cost in clock steps and a
fixed number of operand bytes.
-/

namespace Sequencer

/-- The kind of a command. -/
inductive Opcode where
  | ttlAll
  | ttl
  | wait
  | clock
  | frequency
  | amplitude
  | phase
  | dac
  deriving DecidableEq, Repr

namespace Opcode

/-- The kind of a command. -/
def ofCommand : Command → Opcode
  | .ttlAll _ => .ttlAll
  | .ttl .. => .ttl
  | .wait => .wait
  | .clock _ => .clock
  | .frequency .. => .frequency
  | .amplitude .. => .amplitude
  | .phase .. => .phase
  | .dac .. => .dac

/-- The byte that begins an instruction. -/
def toByte : Opcode → UInt8
  | .ttlAll => 0
  | .ttl => 1
  | .wait => 2
  | .clock => 3
  | .frequency => 4
  | .amplitude => 5
  | .phase => 6
  | .dac => 7

/-- The opcode that a byte stands for. -/
def ofByte? : UInt8 → Option Opcode
  | 0 => some .ttlAll
  | 1 => some .ttl
  | 2 => some .wait
  | 3 => some .clock
  | 4 => some .frequency
  | 5 => some .amplitude
  | 6 => some .phase
  | 7 => some .dac
  | _ => none

@[simp]
theorem ofByte?_toByte (opcode : Opcode) : ofByte? opcode.toByte = some opcode := by
  cases opcode <;> rfl

/-- The clock steps that a command takes itself. -/
def baseSteps : Opcode → Nat
  | .ttlAll => 3
  | .ttl => 3
  | .wait => 0
  | .clock => 5
  | .frequency => 50
  | .amplitude => 50
  | .phase => 50
  | .dac => 45

/-- The number of operand bytes. -/
def operandLength : Opcode → Nat
  | .ttlAll => 4
  | .ttl => 2
  | .wait => 0
  | .clock => 1
  | .frequency => 5
  | .amplitude => 3
  | .phase => 3
  | .dac => 3

/-- The name of the opcode in a listing. -/
def mnemonic : Opcode → String
  | .ttlAll => "TTL.ALL"
  | .ttl => "TTL"
  | .wait => "WAIT"
  | .clock => "CLOCK"
  | .frequency => "FREQ"
  | .amplitude => "AMP"
  | .phase => "PHASE"
  | .dac => "DAC"

end Opcode

/-- The number of bytes before the operands: the opcode and the wait. -/
def Instruction.headLength : Nat := 5

/-- The kind of an instruction. -/
def Instruction.opcode (instruction : Instruction) : Opcode :=
  Opcode.ofCommand instruction.command

/-- The clock steps that an instruction takes, its wait included. -/
def Instruction.steps (instruction : Instruction) : Nat :=
  instruction.opcode.baseSteps + instruction.wait.toNat

end Sequencer
