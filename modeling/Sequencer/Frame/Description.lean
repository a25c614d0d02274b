import Sequencer.Instruction.Listing
import Sequencer.Json.Value

/-!
# Describing frames

A frame is described by what its header says and by what its code takes. The two may
contradict each other, and then the description says so. It is written for a person
or as JSON, with a listing of the code if one is asked for.
-/

namespace Sequencer

/-- Why a frame cannot be described. -/
inductive DescriptionError where
  | header (fault : Fault)
  | code (fault : Fault)
  | listing (fault : Fault)
  deriving DecidableEq, Repr

/-- The sentence that reports an error. -/
def DescriptionError.message : DescriptionError → String
  | .header fault => "decoding frame header: " ++ fault.message
  | .code fault => "decoding frame code: " ++ fault.message
  | .listing fault => fault.message

/-- What is said about a frame. -/
structure Description where
  header : Header
  codeLength : Nat
  /-- The clock steps that the code takes. -/
  steps : UInt64
  /-- The listing of the code, if it is asked for. -/
  listing : Option String
  deriving DecidableEq, Repr

namespace Description

/-- The duration of the code. -/
def duration (description : Description) : UInt64 := nanoseconds description.steps

/-- Whether the header gives the duration of the code. -/
def isConsistent (description : Description) : Bool :=
  description.duration = description.header.duration

/-- Describe a frame, with a listing or without one. -/
def ofFrame (frame : Frame) (withListing : Bool) : Except DescriptionError Description :=
  match totalSteps frame.code with
  | .error fault => .error (.code fault)
  | .ok steps =>
      if withListing then
        match Listing.ofCode frame.code with
        | .error fault => .error (.listing fault)
        | .ok listing => .ok ⟨frame.header, frame.code.length, steps, some listing⟩
      else .ok ⟨frame.header, frame.code.length, steps, none⟩

/-- Describe the frame that bytes hold. -/
def ofBytes (bytes : List UInt8) (withListing : Bool) : Except DescriptionError Description :=
  match Frame.decode bytes with
  | .error fault => .error (.header fault)
  | .ok frame => ofFrame frame withListing

/-- A description for a person. -/
def text (description : Description) : String :=
  s!"duration : {description.header.duration} ns\n"
    ++ s!"steps    : {description.steps}\n"
    ++ s!"ttl mask : 0x{lowerHex 8 description.header.ttlMask.toNat}\n"
    ++ s!"code     : {description.codeLength} bytes\n"
    ++ (if description.isConsistent then ""
      else s!"warning  : code runs for {description.duration} ns\n")
    ++ match description.listing with
      | none => ""
      | some listing => "\n" ++ listing

/-- A description as JSON, its members in alphabetical order. -/
def toJson (description : Description) : Json :=
  .object
    ([("code_len", .integer description.codeLength),
      ("consistent", .bool description.isConsistent)]
      ++ (description.listing.map fun listing => ("disasm", Json.string listing)).toList
      ++ [("duration_ns", .integer description.header.duration.toNat),
        ("steps", .integer description.steps.toNat),
        ("ttl_mask", .integer description.header.ttlMask.toNat)])

end Description

/-- The text that describes the frame in bytes. -/
def describeFrame (bytes : List UInt8) (withListing asJson : Bool) :
    Except DescriptionError String :=
  (Description.ofBytes bytes withListing).map fun description =>
    if asJson then description.toJson.pretty ++ "\n" else description.text

end Sequencer
