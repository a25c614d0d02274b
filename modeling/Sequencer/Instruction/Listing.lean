import Sequencer.Frame
import Sequencer.Instruction.Decoding

/-!
# Listings

A listing shows a piece of code one instruction a line: the offset of the
instruction, the clock step and the nanosecond at which it starts, its mnemonic
and operands, and its wait unless that is zero. The last line shows the total.
-/

namespace Sequencer

open Sequencer.Text

/-- The operands of a command in a listing. -/
def Command.operandText : Command → String
  | .ttlAll levels => s!"0x{lowerHex 8 levels.toNat}"
  | .ttl channel on => s!"{channel}, " ++ if on then "1" else "0"
  | .wait => ""
  | .clock period => toString period
  | .frequency channel value => s!"{channel}, {value}"
  | .amplitude channel value => s!"{channel}, {value}"
  | .phase channel value => s!"{channel}, {value}"
  | .dac channel value => s!"{channel}, {value}"

/-- The line of an instruction that starts at a clock step. -/
def PlacedInstruction.listingLine (placed : PlacedInstruction) (start : UInt64) : String :=
  lowerHex 4 placed.offset ++ " | "
    ++ padLeft 10 ' ' (toString start) ++ " | "
    ++ padLeft 12 ' ' (toString (nanoseconds start)) ++ " ns | "
    ++ padRight 7 ' ' placed.opcode.mnemonic ++ " "
    ++ placed.command.operandText
    ++ (if placed.wait = 0 then "" else s!" ;; +{placed.wait}") ++ "\n"

namespace Listing

/-- The lines of instructions, the first of which starts at a clock step, and the
clock step behind them all. -/
def linesFrom (start : UInt64) : List PlacedInstruction → List String × UInt64
  | [] => ([], start)
  | placed :: rest =>
      let following := linesFrom (start + UInt64.ofNat placed.steps) rest
      (placed.listingLine start :: following.1, following.2)

/-- The line that closes a listing. -/
def totalLine (steps : UInt64) : String :=
  s!";; total: {steps} steps, {nanoseconds steps} ns\n"

/-- The listing of a piece of code, if it can be read to its end. -/
def ofCode (code : List UInt8) : Except Fault String :=
  let decoded := Decoded.ofCode code
  match decoded.fault with
  | some fault => .error fault
  | none =>
      let (lines, steps) := linesFrom 0 decoded.instructions
      .ok (String.join lines ++ totalLine steps)

end Listing

end Sequencer
