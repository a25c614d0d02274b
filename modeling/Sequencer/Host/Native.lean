import Sequencer.Host.Text
import Sequencer.Job.Delivery
import Sequencer.Pool.Completion

/-!
# Functions between a host and the library

The host calls natives of the library, and the library calls functions of the host.
The host keeps a state, which its functions read and change. Natives see the worker
pool beside it. A call that fails gives an error and has done whatever it had done
before.
-/

namespace Sequencer

/-- Why a call fails. -/
inductive CallError where
  | unknownNative (name : String)
  | tooFewArguments (expected got : Nat)
  | wrongType (text : String)
  | refused (refusal : Refusal)
  | failed (text : String)
  deriving DecidableEq, Repr

/-- The sentence that reports the failure of a call. -/
def CallError.message : CallError → String
  | .unknownNative name => "unknown native function: " ++ name
  | .tooFewArguments expected _ => s!"{expected} arguments expected"
  | .wrongType text => text
  | .refused refusal => refusal.message
  | .failed text => text

namespace Value

/-- The failure over a value of another type. -/
def unexpectedType {α : Type} (expected : String) (value : Value) : Except CallError α :=
  .error (.wrongType ("expected " ++ expected ++ ", got " ++ value.typeName))

/-- The whole number that a value is. -/
def asInteger : Value → Except CallError Int64
  | .integer value => .ok value
  | value => unexpectedType "number" value

/-- The string that a value is. -/
def asString : Value → Except CallError String
  | .string value => .ok value
  | value => unexpectedType "string" value

/-- The bytes that a value is. -/
def asBytes : Value → Except CallError (List UInt8)
  | .bytes value => .ok value
  | value => unexpectedType "bytes" value

/-- The fields of a parse error, in the order of the arguments of its class. -/
def parseErrorFields : List String := ["msg", "line", "lineno", "colnum", "colstart", "colend"]

/-- The parse error that its class makes from arguments. Arguments that are missing are
null, and further ones count for nothing. -/
def parseError (arguments : List Value) : Value :=
  let given := (List.range parseErrorFields.length).map fun index =>
    arguments[index]?.getD .null
  let fields := (parseErrorFields.zip given).foldl
    (fun fields (key, value) => insertMember key value fields) []
  .error "ParseError" (((fields.lookup "msg").map text).getD "") fields

end Value

/-- The functions of a host with a state of a type. -/
structure Host (σ : Type) where
  call : FunctionId → List Value → StateM σ (Except CallError Value)

/-- What a host wants to be done with the outcome of a job. -/
structure Callback where
  /-- The function that makes the errors that have a place in the source. -/
  errorClass : FunctionId
  /-- The function that is given the outcome. -/
  handler : FunctionId
  deriving DecidableEq, Repr

namespace Callback

variable {σ : Type}

/-- The factory that makes errors by the function of a host. If that fails, the error
says why. -/
def factory (callback : Callback) (host : Host σ) : ErrorFactory (StateM σ) Value where
  located message line lineNumber column rangeStart rangeStop := do
    let arguments : List Value :=
      [.string message, .string line, .integer (.ofNat lineNumber), .integer (.ofNat column),
        .integer (.ofNat rangeStart), .integer (.ofNat rangeStop)]
    match ← host.call callback.errorClass arguments with
    | .ok value => return value
    | .error error => return .genericError error.message
  generic text := return .genericError text

/-- The arguments of the handler: null and the bytes of the frame, or the error alone. -/
def arguments : Except Value Frame → List Value
  | .ok frame => [.null, .bytes frame.encode]
  | .error error => [error]

/-- Give an outcome to the handler. What the handler answers counts for nothing. -/
def complete (callback : Callback) (host : Host σ) (outcome : Outcome) : StateM σ Unit :=
  outcome.dispatch (callback.factory host) fun delivered => do
    let _ ← host.call callback.handler (arguments delivered)

end Callback

/-- What natives see and change. -/
structure Context (σ : Type) where
  pool : Pool Callback
  state : σ

/-- A function of the library that a host can call. -/
abbrev Native (σ : Type) := Host σ → List Value → StateM (Context σ) (Except CallError Value)

namespace Native

variable {σ : Type}

/-- The function that an argument is. -/
def functionArgument (value : Value) (position : Nat) (role : String) :
    Except CallError FunctionId :=
  match value.function? with
  | some id => .ok id
  | none =>
      .error (.wrongType
        (s!"argument {position} ({role}) must be a function, got " ++ value.typeName))

/-- Submit the text of the first argument to the pool. The second argument makes errors,
and the third is given the outcome. -/
def parseCommandList : Native σ := fun _ arguments context =>
  match arguments with
  | source :: errorClass :: handler :: _ =>
      match functionArgument errorClass 2 "ParseError", functionArgument handler 3 "callback" with
      | .error error, _ => (.error error, context)
      | .ok _, .error error => (.error error, context)
      | .ok errorClass, .ok handler =>
          match context.pool.submit source.text.toList ⟨errorClass, handler⟩ with
          | .error refusal => (.error (.refused refusal), context)
          | .ok (_, pool) => (.ok .null, { context with pool })
  | _ => (.error (.tooFewArguments 3 arguments.length), context)

end Native

end Sequencer
