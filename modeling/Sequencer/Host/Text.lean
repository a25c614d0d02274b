import Sequencer.Host.Value
import Sequencer.Numeral.Shortest
import Sequencer.Text.Quoted
import Sequencer.Text.Utf8

/-!
# Values of a host as text

A value is turned into text in two ways. `text` is what a script sees when it joins a
value to a string. `inspect` is what a person sees who looks for a fault: it shows the
type, cuts long strings, and lays objects out over several lines if it is asked to.
-/

namespace Sequencer

open Numeral Text

namespace Numeral.Double

/-- A number as a script sees it, where all zeros look alike. -/
def scriptText (number : Double) : String :=
  if number.isNaN then "NaN"
  else if number.isInfinite then if number.isNegative then "-Infinity" else "Infinity"
  else if number.isZero then "0"
  else number.positional

/-- A number as a person sees it. -/
def inspectText (number : Double) : String :=
  if number.isNaN then "NaN"
  else if number.isInfinite then if number.isNegative then "-inf" else "inf"
  else number.positional

end Numeral.Double

namespace Value

/-- The class and the message of an error. -/
def errorText (kind message : String) : String := kind ++ ": " ++ message

/-- A value as a script sees it. -/
def text : Value → String
  | .null => "null"
  | .bool value => if value then "true" else "false"
  | .integer value => toString value
  | .number value => value.scriptText
  | .string value => value
  | .bytes value => String.ofList (Utf8.decodeLossy value)
  | .object _ => "[object Object]"
  | .error kind message _ => errorText kind message
  | .function _ => "function"

/-- The number of characters of a string that are shown. -/
def shownLength : Nat := 64

/-- A string, cut if it is long. -/
def cut (text : String) : String :=
  let characters := text.toList
  if shownLength < characters.length then
    String.ofList (characters.take shownLength) ++ "…"
  else text

/-- A text whose lines are indented, each of them. -/
def indent (text : String) : String :=
  String.ofList
    (List.replicate 4 ' ' ++ text.toList.flatMap fun c =>
      if c = '\n' then '\n' :: List.replicate 4 ' ' else [c])

mutual

/-- A value as a person sees it, with objects over several lines or in one line. -/
def inspect (spread : Bool) : Value → String
  | .null => "Null"
  | .bool value => "Bool(" ++ (if value then "true" else "false") ++ ")"
  | .integer value => s!"I64({value})"
  | .number value => "F64(" ++ value.inspectText ++ ")"
  | .string value => "Str(" ++ cut value ++ ")"
  | .bytes value => s!"Bytes(len={value.length})"
  | .object members => inspectMembers spread members
  | .error kind message _ => "Error(" ++ errorText kind message ++ ")"
  | .function _ => "Func"

/-- Members as a person sees them. -/
def inspectMembers (spread : Bool) : List (String × Value) → String
  | [] => "\x7b\x7d"
  | (key, value) :: rest =>
      let first := quoted key ++ ": " ++ inspect spread value
      if spread then
        "\x7b\n" ++ indent first ++ ",\n" ++ inspectRest spread rest ++ "\x7d"
      else "\x7b" ++ first ++ inspectRest spread rest ++ "\x7d"

/-- The members behind the first one as a person sees them. -/
def inspectRest (spread : Bool) : List (String × Value) → String
  | [] => ""
  | (key, value) :: rest =>
      let entry := quoted key ++ ": " ++ inspect spread value
      (if spread then indent entry ++ ",\n" else ", " ++ entry) ++ inspectRest spread rest

end

/-- An error as a person sees it, fields and all. -/
def inspectError (kind message : String) (fields : List (String × Value)) : String :=
  "HostError \x7b class: " ++ quoted kind ++ ", message: " ++ quoted message ++ ", fields: "
    ++ inspectMembers false fields ++ " \x7d"

end Value

end Sequencer
