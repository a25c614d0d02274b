import Sequencer.Text.Measure

/-!
# Faults of binary data

Everything that can be wrong with a frame or with a buffer of instructions. An
offset is counted in bytes from the start of the data that was read.
-/

namespace Sequencer

/-- What is wrong with binary data. -/
inductive Fault where
  /-- Fewer bytes are left than were asked for. -/
  | unexpectedEnd (needed offset : Nat)
  /-- No instruction begins with this byte. -/
  | unknownOpcode (opcode : UInt8) (offset : Nat)
  /-- A frame is shorter than its header. -/
  | truncatedFrame (length : Nat)
  /-- The data contradicts its format in some other way. -/
  | corrupted (reason : String)
  deriving DecidableEq, Repr, Inhabited

/-- A byte as two upper-case hexadecimal digits. -/
def upperHex (b : UInt8) : String :=
  Text.padLeft 2 '0' (String.ofList ((Nat.toDigits 16 b.toNat).map Char.toUpper))

/-- A number in lower-case hexadecimal, filled with zeros to `width` digits. -/
def lowerHex (width n : Nat) : String :=
  Text.padLeft width '0' (String.ofList (Nat.toDigits 16 n))

/-- The sentence that reports a fault. -/
def Fault.message : Fault → String
  | .unexpectedEnd needed offset => s!"unexpected EOF: need {needed} bytes at {offset}"
  | .unknownOpcode opcode offset => s!"invalid opcode 0x{upperHex opcode} at {offset}"
  | .truncatedFrame length => s!"truncated frame: {length} bytes, header needs 12"
  | .corrupted reason => s!"corrupted: {reason}"

end Sequencer
