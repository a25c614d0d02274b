import Sequencer.Json.Numbers
import Sequencer.Json.Strings
import Sequencer.Text.Quoted

/-!
# Records in JSON text

A record is written as an object or as the list of its fields in order. Fields that
are missing keep what they were, and members that the record does not know are
passed, unless the record refuses them. No field may be given twice.
-/

namespace Sequencer.Json.Reading

open Sequencer.Text

variable {α ρ : Type}

/-! ## Values that nobody asks for -/

/-- A bracket that is open. -/
inductive Bracket where
  | list
  | object
  deriving DecidableEq, Repr

namespace Bracket

/-- The character that closes a bracket. -/
def close : Bracket → Char
  | .list => ']'
  | .object => '\x7d'

/-- The flaw of a bracket that is not closed. -/
def unclosed : Bracket → Flaw
  | .list => .unclosedList
  | .object => .unclosedObject

/-- The flaw of elements that are not divided. -/
def undivided : Bracket → Flaw
  | .list => .expectedListComma
  | .object => .expectedObjectComma

end Bracket

/-- Pass the colon behind a key. -/
def colon : Reading Unit := do
  match ← peekToken with
  | some ':' => advance
  | some _ => failAhead .expectedColon
  | none => failAhead .unclosedObject

/-- Pass what stands before a value inside a bracket: a key and a colon in an object. -/
def passKey : Bracket → Reading Unit
  | .list => pure ()
  | .object => do
      match ← peekToken with
      | some '\x22' => do
          advance
          passString
          colon
      | some _ => failAhead .expectedKey
      | none => failAhead .unclosedObject

/-- Behind a value inside brackets, the innermost first, pass the brackets that close. The
brackets that remain open are given back, if a further value is to follow. -/
def passClosed : List Bracket → Reading (List Bracket)
  | [] => return []
  | bracket :: outer => do
      match ← peekToken with
      | none => failAhead bracket.unclosed
      | some c =>
          if c = ',' then
            advance
            passKey bracket
            return bracket :: outer
          else if c = bracket.close then
            advance
            passClosed outer
          else failAhead bracket.undivided

/-- Pass an opening bracket, and both if nothing stands between them. -/
def passOpened (bracket : Bracket) (outer : List Bracket) : Reading (List Bracket) := do
  advance
  match ← peekToken with
  | none => failAhead bracket.unclosed
  | some c =>
      if c = bracket.close then
        advance
        passClosed outer
      else
        passKey bracket
        return bracket :: outer

/-- Pass a value inside brackets, or its opening bracket. -/
def passValueIn (outer : List Bracket) : Reading (List Bracket) := do
  match ← peekToken with
  | none => failAhead .missingValue
  | some '[' => passOpened .list outer
  | some '\x7b' => passOpened .object outer
  | some 'n' => do
      advance
      word ['u', 'l', 'l']
      passClosed outer
  | some 't' => do
      advance
      word ['r', 'u', 'e']
      passClosed outer
  | some 'f' => do
      advance
      word ['a', 'l', 's', 'e']
      passClosed outer
  | some '\x22' => do
      advance
      passString
      passClosed outer
  | some '-' => do
      advance
      passNumber
      passClosed outer
  | some c =>
      if isDigit c then do
        passNumber
        passClosed outer
      else failAhead .expectedValue

/-- Pass values until all brackets are closed. The number bounds the values. -/
def passValuesWithin : Nat → List Bracket → Reading Unit
  | 0, _ => failAhead .missingValue
  | values + 1, outer => do
      match ← passValueIn outer with
      | [] => pure ()
      | bracket :: outer => passValuesWithin values (bracket :: outer)

/-- Pass a value. -/
def passValue : Reading Unit := do
  passValuesWithin ((← get).rest.length + 1) []

/-! ## Values that are asked for -/

/-- How messages show a value that is not what is wanted. What lies inside brackets is
not looked at. -/
def describeValue : Reading String := do
  match ← peek with
  | some 'n' => do
      advance
      word ['u', 'l', 'l']
      return "null"
  | some 't' => do
      advance
      word ['r', 'u', 'e']
      return "boolean `true`"
  | some 'f' => do
      advance
      word ['a', 'l', 's', 'e']
      return "boolean `false`"
  | some '-' => do
      advance
      return (← number true).describe
  | some '\x22' => do
      advance
      return "string " ++ quoted (← string)
  | some '[' => return "sequence"
  | some '\x7b' => return "map"
  | some c => if isDigit c then return (← number false).describe else failAhead .expectedValue
  | none => failAhead .expectedValue

/-- The flaw of a value of another type. -/
def wrongType (expected : String) : Reading α := do
  failUnfit ("invalid type: " ++ (← describeValue) ++ ", expected " ++ expected)

/-- Look at the first character of a value. -/
def peekValue : Reading Char := do
  match ← peekToken with
  | none => failAhead .missingValue
  | some c => return c

/-- Accept a whole number below a bound. -/
def acceptBelow (bound : Nat) (expected : String) : Number → Reading Nat
  | .unsigned value =>
      if value < bound then return value
      else failUnfit (s!"invalid value: integer `{value}`, expected " ++ expected)
  | .negative magnitude =>
      failUnfit (s!"invalid value: integer `-{magnitude}`, expected " ++ expected)
  | .floating value =>
      failUnfit ("invalid type: " ++ (Number.floating value).describe ++ ", expected " ++ expected)

/-- Read a whole number below a bound. -/
def natBelow (bound : Nat) (expected : String) : Reading Nat := placed do
  let c ← peekValue
  if c = '-' then
    advance
    acceptBelow bound expected (← number true)
  else if isDigit c then acceptBelow bound expected (← number false)
  else wrongType expected

/-- Read a text. -/
def text : Reading String := placed do
  if (← peekValue) = '\x22' then
    advance
    string
  else wrongType "a string"

/-- Read a value or null. -/
def optional (read : Reading α) : Reading (Option α) := do
  match ← peekToken with
  | some 'n' => do
      advance
      word ['u', 'l', 'l']
      return none
  | _ => return some (← read)

/-- A field of a record: its name, and how its value is read into the record. -/
structure Field (ρ : Type) where
  name : String
  read : ρ → Reading ρ

/-- What a record is called, its fields in order, and whether it refuses other members. -/
structure Shape (ρ : Type) where
  name : String
  fields : List (Field ρ)
  isClosed : Bool := false

/-- Whether a further element follows in a list. -/
def hasElement (isFirst : Bool) : Reading Bool := do
  match ← peekToken with
  | none => failAhead .unclosedList
  | some ']' => return false
  | some c =>
      if isFirst then return true
      else if c = ',' then
        advance
        match ← peekToken with
        | none => failAhead .missingValue
        | some ']' => failAhead .trailingComma
        | some _ => return true
      else failAhead .expectedListComma

/-- Whether a further member follows in an object. -/
def hasMember (isFirst : Bool) : Reading Bool := do
  match ← peekToken with
  | none => failAhead .unclosedObject
  | some '\x7d' => return false
  | some c =>
      if isFirst then
        if c = '\x22' then return true else failAhead .expectedKey
      else if c = ',' then
        advance
        match ← peekToken with
        | none => failAhead .missingValue
        | some '\x7d' => failAhead .trailingComma
        | some '\x22' => return true
        | some _ => failAhead .expectedKey
      else failAhead .expectedObjectComma

/-- Pass the bracket that closes a list. -/
def closeList : Reading Unit := do
  match ← peekToken with
  | none => failAhead .unclosedList
  | some ']' => advance
  | some ',' => do
      advance
      match ← peekToken with
      | some ']' => failAhead .trailingComma
      | _ => failAhead .trailingCharacters
  | some _ => failAhead .trailingCharacters

/-- Pass the bracket that closes an object. -/
def closeObject : Reading Unit := do
  match ← peekToken with
  | none => failAhead .unclosedObject
  | some '\x7d' => advance
  | some ',' => failAhead .trailingComma
  | some _ => failAhead .trailingCharacters

/-- Read fields in order, as far as there are elements. -/
def elements (isFirst : Bool) (record : ρ) : List (Field ρ) → Reading ρ
  | [] => return record
  | field :: rest => do
      if ← hasElement isFirst then elements false (← field.read record) rest
      else elements isFirst record rest

/-- Names of which one is expected, as a message lists them. -/
def alternatives : List String → String
  | [] => ""
  | [name] => "`" ++ name ++ "`"
  | [first, second] => "`" ++ first ++ "` or `" ++ second ++ "`"
  | names => "one of " ++ ", ".intercalate (names.map fun name => "`" ++ name ++ "`")

/-- Read the member with a name. The names are those of the fields read before. -/
def readMember (shape : Shape ρ) (seen : List String) (name : String) (record : ρ) :
    Reading (List String × ρ) := do
  match shape.fields.find? (·.name = name) with
  | none =>
      if shape.isClosed then
        failUnfit ("unknown field `" ++ name ++ "`, expected "
          ++ alternatives (shape.fields.map (·.name)))
      else
        colon
        passValue
        return (seen, record)
  | some field =>
      if seen.contains name then failUnfit ("duplicate field `" ++ name ++ "`")
      else
        colon
        return (name :: seen, ← field.read record)

/-- Read members. The number bounds how many there are. -/
def membersWithin (shape : Shape ρ) : Nat → Bool → List String → ρ → Reading ρ
  | 0, _, _, record => return record
  | members + 1, isFirst, seen, record => do
      if ← hasMember isFirst then
        advance
        let name ← string
        let (seen, record) ← readMember shape seen name record
        membersWithin shape members false seen record
      else return record

/-- Read a record over what it was before. -/
def record (shape : Shape ρ) (start : ρ) : Reading ρ := placed do
  match ← peekValue with
  | '[' => do
      advance
      enclosed (elements true start shape.fields) closeList
  | '\x7b' => do
      advance
      let bound := (← get).rest.length + 1
      enclosed (membersWithin shape bound true [] start) closeObject
  | _ => wrongType ("struct " ++ shape.name)

end Sequencer.Json.Reading
