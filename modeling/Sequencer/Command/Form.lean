import Sequencer.Command
import Sequencer.Token

/-!
# The forms of commands

A command opens with its name, and its name decides its form: the marks, channel
numbers, quantities and levels that have to follow, in order. A form carries the
values read so far in the functions that continue it, so a finished form holds a
finished instruction. Reading, and everything said about it, follows the structure
of a form.

After every command `t = N` may add to its wait.
-/

namespace Sequencer

/-- The number of channels of every kind of output. -/
structure Limits where
  ttl : UInt8 := 32
  dds : UInt8 := 22
  dac : UInt8 := 4
  deriving DecidableEq, Repr, Inhabited

/-- A kind of output with numbered channels. -/
inductive Device where
  | ttl
  | dds
  | dac
  deriving DecidableEq, Repr

namespace Device

/-- How a message names a kind of output. -/
def name : Device → String
  | .ttl => "TTL"
  | .dds => "DDS"
  | .dac => "DAC"

/-- The number of channels. There are at most thirty-two TTL lines. -/
def count (limits : Limits) : Device → Nat
  | .ttl => min limits.ttl.toNat 32
  | .dds => limits.dds.toNat
  | .dac => limits.dac.toNat

end Device

/-- A number that a command asks for. -/
inductive Quantity where
  | ttlLevels
  | waitDuration
  | clockPeriod
  | frequency
  | amplitude
  | phase
  | dacValue
  | waitTime
  deriving DecidableEq, Repr

namespace Quantity

/-- How a message names a quantity. -/
def name : Quantity → String
  | .ttlLevels => "TTL value"
  | .waitDuration => "wait duration"
  | .clockPeriod => "clock period"
  | .frequency => "frequency"
  | .amplitude => "amplitude"
  | .phase => "phase"
  | .dacValue => "DAC value"
  | .waitTime => "wait time"

/-- The largest value of a quantity. -/
def maximum : Quantity → Nat
  | .ttlLevels => 4294967295
  | .waitDuration => 4294967295
  | .clockPeriod => 255
  | .frequency => 4294967295
  | .amplitude => 4095
  | .phase => 65535
  | .dacValue => 65535
  | .waitTime => 4294967295

end Quantity

/-- What has to follow in a command. -/
inductive Form where
  /-- Nothing: the instruction is complete. -/
  | done (instruction : Instruction)
  /-- A fixed token. -/
  | mark (token : Token) (next : Form)
  /-- The number of a channel. -/
  | channel (device : Device) (next : UInt8 → Form)
  /-- A number up to the maximum of a quantity. -/
  | amount (quantity : Quantity) (next : Nat → Form)
  /-- A TTL level. -/
  | level (next : Bool → Form)
  /-- A number that is added to the wait of an instruction, which is then complete. -/
  | extraWait (instruction : Instruction)
  /-- One form if a token follows, which is passed over, and another if not. -/
  | choice (token : Token) (taken skipped : Form)

namespace Form

/-- An instruction to whose wait `t = N` may add. -/
def timed (command : Command) (wait : UInt32) : Form :=
  .choice (.word "t") (.mark .equals (.extraWait ⟨command, wait⟩)) (.done ⟨command, wait⟩)

/-- A quantity between parentheses. -/
def argument (quantity : Quantity) (next : Nat → Form) : Form :=
  .mark .leftParen (.amount quantity fun value => .mark .rightParen (next value))

/-- A channel between parentheses and the equals sign behind it. -/
def target (device : Device) (next : UInt8 → Form) : Form :=
  .mark .leftParen
    (.channel device fun channel => .mark .rightParen (.mark .equals (next channel)))

/-- A channel that is set to a quantity. -/
def setting (device : Device) (quantity : Quantity) (command : UInt8 → Nat → Command) : Form :=
  target device fun channel =>
    .amount quantity fun value => timed (command channel value) 0

/-- The form of the command with a name. -/
def ofName? : String → Option Form
  | "ttl" => some <|
      .choice .equals
        (.amount .ttlLevels fun value => timed (.ttlAll (UInt32.ofNat value)) 0)
        (target .ttl fun channel => .level fun on => timed (.ttl channel on) 0)
  | "wait" => some <| argument .waitDuration fun value => timed .wait (UInt32.ofNat value)
  | "clock" => some <|
      argument .clockPeriod fun value => timed (.clock (UInt8.ofNat value)) 0
  | "freq" => some <|
      setting .dds .frequency fun channel value => .frequency channel (UInt32.ofNat value)
  | "amp" => some <|
      setting .dds .amplitude fun channel value => .amplitude channel (UInt16.ofNat value)
  | "phase" => some <|
      setting .dds .phase fun channel value => .phase channel (UInt16.ofNat value)
  | "dac" => some <|
      setting .dac .dacValue fun channel value => .dac channel (UInt16.ofNat value)
  | _ => none

end Form

/-- The TTL level that a token names. -/
def Token.level? : Token → Option Bool
  | .number 0 => some false
  | .number 1 => some true
  | .word "off" => some false
  | .word "false" => some false
  | .word "on" => some true
  | .word "true" => some true
  | _ => none

end Sequencer
