import Sequencer.Numeral.Double

/-!
# Values of a host

A host is a scripting environment that calls this library. Its values are dynamic:
each brings its own type. A function is known by its identity alone, and two
functions are equal only if they are the same one. The members of an object are kept
in the order of their keys.
-/

namespace Sequencer

open Numeral (Double)

/-- The identity of a function of a host. -/
structure FunctionId where
  number : Nat
  deriving DecidableEq, Repr, Inhabited

/-- A value of a host. -/
inductive Value where
  | null
  | bool (value : Bool)
  | integer (value : Int64)
  | number (value : Double)
  | string (value : String)
  | bytes (value : List UInt8)
  | object (members : List (String × Value))
  /-- An error: the name of its class, its message, and further fields. -/
  | error (kind message : String) (fields : List (String × Value))
  | function (id : FunctionId)
  deriving Inhabited, Repr

/-- Members with one more, which takes the place of a member with the same key. -/
def insertMember (key : String) (value : Value) :
    List (String × Value) → List (String × Value)
  | [] => [(key, value)]
  | (other, held) :: rest =>
      if key < other then (key, value) :: (other, held) :: rest
      else if key = other then (key, value) :: rest
      else (other, held) :: insertMember key value rest

namespace Value

/-- How messages name the type of a value. -/
def typeName : Value → String
  | .null => "null"
  | .bool _ => "bool"
  | .integer _ => "number"
  | .number _ => "number"
  | .string _ => "string"
  | .bytes _ => "bytes"
  | .object _ => "object"
  | .error .. => "error"
  | .function _ => "function"

/-- The function that a value is. -/
def function? : Value → Option FunctionId
  | .function id => some id
  | _ => none

/-- The member of an object, or the field of an error, with a key. -/
def get? (key : String) : Value → Option Value
  | .object members => members.lookup key
  | .error _ _ fields => fields.lookup key
  | _ => none

/-- An error that is nothing but its message. -/
def genericError (message : String) : Value := .error "Error" message []

mutual

/-- Whether two values are equal. A value that is no number is not equal to itself. -/
def equals : Value → Value → Bool
  | .null, .null => true
  | .bool first, .bool second => first == second
  | .integer first, .integer second => first == second
  | .number first, .number second => first.equals second
  | .string first, .string second => first == second
  | .bytes first, .bytes second => first == second
  | .object first, .object second => membersEqual first second
  | .error kind message fields, .error otherKind otherMessage otherFields =>
      kind == otherKind && message == otherMessage && membersEqual fields otherFields
  | .function first, .function second => first == second
  | _, _ => false

/-- Whether members are equal, key by key. -/
def membersEqual : List (String × Value) → List (String × Value) → Bool
  | [], [] => true
  | (key, value) :: rest, (otherKey, otherValue) :: otherRest =>
      key == otherKey && equals value otherValue && membersEqual rest otherRest
  | _, _ => false

end

end Value

end Sequencer
