import Sequencer.Command
import Sequencer.Json.Value

/-!
# Programs as JSON

Programs are exchanged with other tools as JSON. A program is a record with the
statements, a statement a record with the command, its wait and its span. A
command is its name alone or an object with one member: the name and the
arguments. The arguments are a number or an object. Every other record may also be
given as the array of its fields.
-/

namespace Sequencer

open Source

namespace Json

/-- An 8-bit word. -/
def uint8? (json : Json) : Option UInt8 := (json.natBelow? UInt8.size).map UInt8.ofNat

/-- A 16-bit word. -/
def uint16? (json : Json) : Option UInt16 := (json.natBelow? UInt16.size).map UInt16.ofNat

/-- A 32-bit word. -/
def uint32? (json : Json) : Option UInt32 := (json.natBelow? UInt32.size).map UInt32.ofNat

/-- A truth value. -/
def bool? : Json → Option Bool
  | .bool value => some value
  | _ => none

end Json

namespace Command

/-- Read a channel and a value that is read by another function. -/
def channelValueOfJson? {α : Type} (value? : Json → Option α) (command : UInt8 → α → Command)
    (json : Json) : Option Command := do
  match ← json.membersNamed? ["chn", "value"] with
  | [channel, value] => return command (← channel.uint8?) (← value? value)
  | _ => none

/-- Read the arguments of the command with a name. -/
def argumentsOfJson? (name : String) (arguments : Json) : Option Command :=
  match name with
  | "TtlAll" => arguments.uint32?.map .ttlAll
  | "Ttl" => do
      match ← arguments.membersNamed? ["chn", "on"] with
      | [channel, on] => return .ttl (← channel.uint8?) (← on.bool?)
      | _ => none
  | "Wait" =>
      match arguments with
      | .null => some .wait
      | _ => none
  | "Clock" => arguments.uint8?.map .clock
  | "Freq" => channelValueOfJson? Json.uint32? .frequency arguments
  | "Amp" => channelValueOfJson? Json.uint16? .amplitude arguments
  | "Phase" => channelValueOfJson? Json.uint16? .phase arguments
  | "Dac" => channelValueOfJson? Json.uint16? .dac arguments
  | _ => none

/-- Read a command. -/
def ofJson? : Json → Option Command
  | .string "Wait" => some .wait
  | .object [(name, arguments)] => argumentsOfJson? name arguments
  | _ => none

/-- An argument record of a channel and a value. -/
def channelValueToJson (name : String) (channel : UInt8) (value : Nat) : Json :=
  .object [(name, .object [("chn", .integer channel.toNat), ("value", .integer value)])]

/-- Write a command. -/
def toJson : Command → Json
  | .ttlAll levels => .object [("TtlAll", .integer levels.toNat)]
  | .ttl channel on =>
      .object [("Ttl", .object [("chn", .integer channel.toNat), ("on", .bool on)])]
  | .wait => .string "Wait"
  | .clock period => .object [("Clock", .integer period.toNat)]
  | .frequency channel value => channelValueToJson "Freq" channel value.toNat
  | .amplitude channel value => channelValueToJson "Amp" channel value.toNat
  | .phase channel value => channelValueToJson "Phase" channel value.toNat
  | .dac channel value => channelValueToJson "Dac" channel value.toNat

end Command

/-- Read a span. -/
def Source.Span.ofJson? (json : Json) : Option Span := do
  match ← json.fields? ["source", "start", "end"] with
  | [source, start, stop] =>
      return ⟨(← source.uint32?).toNat, (← start.uint32?).toNat, (← stop.uint32?).toNat⟩
  | _ => none

/-- Write a span. -/
def Source.Span.toJson (span : Span) : Json :=
  .object [("source", .integer span.source), ("start", .integer span.start),
    ("end", .integer span.stop)]

/-- Read a statement. -/
def Statement.ofJson? (json : Json) : Option Statement := do
  match ← json.fields? ["cmd", "wait", "span"] with
  | [command, wait, span] =>
      return { command := ← Command.ofJson? command, wait := ← wait.uint32?
               span := ← Span.ofJson? span }
  | _ => none

/-- Write a statement. -/
def Statement.toJson (statement : Statement) : Json :=
  .object [("cmd", statement.command.toJson), ("wait", .integer statement.wait.toNat),
    ("span", statement.span.toJson)]

namespace Program

/-- Read a program. -/
def ofJson? (json : Json) : Option (List Statement) := do
  match ← json.fields? ["stmts"] with
  | [.array statements] => statements.mapM Statement.ofJson?
  | _ => none

/-- Write a program. -/
def toJson (statements : List Statement) : Json :=
  .object [("stmts", .array (statements.map Statement.toJson))]

end Program

end Sequencer
