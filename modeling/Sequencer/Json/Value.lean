import Sequencer.Fault

/-!
# JSON values

A JSON value keeps whole numbers apart from all other numbers, and the members of
an object in the order in which they are given. `pretty` writes a value over
several lines with two spaces a level.
-/

namespace Sequencer

/-- A JSON value. -/
inductive Json where
  | null
  | bool (value : Bool)
  /-- A number written without a fraction and without an exponent. -/
  | integer (value : Int)
  /-- Any other number, as it is written. -/
  | fraction (text : String)
  | string (text : String)
  | array (elements : List Json)
  | object (members : List (String × Json))
  deriving Inhabited

namespace Json

/-- How a character is written inside a JSON string. -/
def escapeChar (c : Char) : List Char :=
  if c = '\x22' then ['\\', c]
  else if c = '\\' then ['\\', '\\']
  else if c = '\n' then ['\\', 'n']
  else if c = '\r' then ['\\', 'r']
  else if c = '\t' then ['\\', 't']
  else if c = '\x08' then ['\\', 'b']
  else if c = '\x0c' then ['\\', 'f']
  else if c.toNat < 32 then ['\\', 'u'] ++ (lowerHex 4 c.toNat).toList
  else [c]

/-- A JSON string. -/
def quote (text : String) : String :=
  String.ofList ('\x22' :: text.toList.flatMap escapeChar ++ ['\x22'])

/-- A line feed and the indentation of a level. -/
def breakLine (level : Nat) : String := "\n" ++ Text.run (2 * level) ' '

mutual

/-- A value over several lines, at an indentation level. -/
def prettyAt (level : Nat) : Json → String
  | .null => "null"
  | .bool value => if value then "true" else "false"
  | .integer value => toString value
  | .fraction text => text
  | .string text => quote text
  | .array [] => "[]"
  | .array (element :: more) =>
      "[" ++ breakLine (level + 1) ++ prettyAt (level + 1) element
        ++ prettyElements (level + 1) more ++ breakLine level ++ "]"
  | .object [] => "\x7b\x7d"
  | .object ((key, value) :: more) =>
      "\x7b" ++ breakLine (level + 1) ++ quote key ++ ": " ++ prettyAt (level + 1) value
        ++ prettyMembers (level + 1) more ++ breakLine level ++ "\x7d"

/-- Further elements of an array. -/
def prettyElements (level : Nat) : List Json → String
  | [] => ""
  | element :: more =>
      "," ++ breakLine level ++ prettyAt level element ++ prettyElements level more

/-- Further members of an object. -/
def prettyMembers (level : Nat) : List (String × Json) → String
  | [] => ""
  | (key, value) :: more =>
      "," ++ breakLine level ++ quote key ++ ": " ++ prettyAt level value
        ++ prettyMembers level more

end

/-- A value over several lines. -/
def pretty (value : Json) : String := value.prettyAt 0

/-- The member of an object with a key. -/
def member? (key : String) (members : List (String × Json)) : Option Json :=
  (members.find? (·.1 = key)).map (·.2)

/-- A whole number below a bound. -/
def natBelow? (bound : Nat) : Json → Option Nat
  | .integer value => if 0 ≤ value ∧ value < bound then some value.toNat else none
  | _ => none

/-- The named members of an object, in which other members count for nothing. -/
def membersNamed? (names : List String) : Json → Option (List Json)
  | .object members => names.mapM fun name => member? name members
  | _ => none

/-- The fields of a record. A record is written as an object or as an array of its fields in
order. -/
def fields? (names : List String) : Json → Option (List Json)
  | .array elements => if elements.length = names.length then some elements else none
  | json => json.membersNamed? names

end Json

end Sequencer
