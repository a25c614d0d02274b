import Sequencer.Fault
import Sequencer.Source.Span

/-!
# Commands of the sequencer

A command drives one kind of output: the thirty-two TTL lines, the DDS channels or
the DAC channels, or it sets the clock or does nothing but wait. An instruction
is a command together with the number of clock steps to wait behind it, and a
statement is an instruction at its place in a source.
-/

namespace Sequencer

/-- What the sequencer is told to do. -/
inductive Command where
  /-- Set all TTL lines, one bit a line. -/
  | ttlAll (levels : UInt32)
  /-- Set one TTL line. -/
  | ttl (channel : UInt8) (on : Bool)
  /-- Do nothing but wait. -/
  | wait
  /-- Set the clock period. -/
  | clock (period : UInt8)
  /-- Set the frequency word of a DDS channel. -/
  | frequency (channel : UInt8) (value : UInt32)
  /-- Set the amplitude of a DDS channel. -/
  | amplitude (channel : UInt8) (value : UInt16)
  /-- Set the phase of a DDS channel. -/
  | phase (channel : UInt8) (value : UInt16)
  /-- Set the output of a DAC channel. -/
  | dac (channel : UInt8) (value : UInt16)
  deriving DecidableEq, Repr, Inhabited

/-- A command and the clock steps to wait behind it. -/
structure Instruction where
  command : Command
  wait : UInt32
  deriving DecidableEq, Repr, Inhabited

/-- An instruction and the stretch of source that it was read from. -/
structure Statement extends Instruction where
  span : Source.Span
  deriving DecidableEq, Repr, Inhabited

/-- How a command is written in a source. The argument of a wait belongs to its
instruction and is left out. -/
def Command.text : Command → String
  | .ttlAll levels => s!"ttl = 0x{lowerHex 8 levels.toNat}"
  | .ttl channel on => s!"ttl({channel}) = " ++ if on then "on" else "off"
  | .wait => "wait"
  | .clock period => s!"clock({period})"
  | .frequency channel value => s!"freq({channel}) = {value}"
  | .amplitude channel value => s!"amp({channel}) = {value}"
  | .phase channel value => s!"phase({channel}) = {value}"
  | .dac channel value => s!"dac({channel}) = {value}"

/-- How an instruction is written in a source, its wait included. -/
def Instruction.text (instruction : Instruction) : String :=
  match instruction.command with
  | .wait => s!"wait({instruction.wait})"
  | command => command.text ++ s!" t={instruction.wait}"

end Sequencer
