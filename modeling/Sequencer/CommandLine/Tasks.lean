import Sequencer.CommandLine.Report
import Sequencer.CommandLine.Status
import Sequencer.Files.Replacement
import Sequencer.Frame.Description
import Sequencer.Pool.Batch
import Sequencer.Settings.Basic
import Sequencer.Text.Utf8

/-!
# Tasks

There are three tasks. Compiling reads sources and writes frames, checking reads
sources and only tells whether they compile, and inspecting describes a frame. A
source that does not compile is reported and fails the task in the end; anything else
that goes wrong ends the task at once.
-/

namespace Sequencer

/-- Where frames are written. -/
inductive Output where
  | file (path : Path)
  | standardOutput
  /-- Beside each source. -/
  | besideSource
  deriving DecidableEq, Repr, Inhabited

/-- What is to be compiled, and where to. Without inputs the standard input is read. -/
structure CompileTask where
  inputs : List Input
  output : Output := .standardOutput
  /-- Make the directories around outputs. -/
  makeDirectories : Bool := false
  /-- Replace files that are there. -/
  overwrite : Bool := false
  /-- Tell how long it took. -/
  time : Bool := false
  deriving Repr

/-- What is to be inspected, and how it is shown. -/
structure InspectTask where
  input : Input
  listing : Bool := false
  json : Bool := false
  deriving Repr

/-- Why a task ends early. -/
inductive TaskError where
  | severalInputs (count : Nat)
  | targetPresent (path : Path)
  | opening (path : Path) (fault : IOFault)
  | reading (path : Path) (fault : IOFault)
  | readingInput (fault : IOFault)
  | readingFrame (path : Path) (fault : IOFault)
  | creating (fault : IOFault)
  | writing (path : Path) (fault : ReplaceFault)
  | inspecting (input : Input) (error : DescriptionError)
  | batch (inputs : List Input) (error : BatchError)
  deriving DecidableEq, Repr

/-- The sentence that reports why a batch of inputs comes to no result. -/
def BatchError.message (inputs : List Input) : BatchError → String
  | .refused refusal => "submitting compile job: " ++ refusal.message
  | .crashed crash => crash.message
  | .unanswered index => "no result for " ++ ((inputs[index]?).map Input.text).getD ""

/-- The sentence that reports why a task ends early. -/
def TaskError.message : TaskError → String
  | .severalInputs count =>
      s!"{count} inputs given: use --auto to write one frame next to each source"
  | .targetPresent path => "output file already exists: " ++ path.text ++ " (use --overwrite)"
  | .opening path fault => "opening " ++ path.text ++ ": " ++ fault.message
  | .reading path fault => "reading " ++ path.text ++ ": " ++ fault.message
  | .readingInput fault => fault.message
  | .readingFrame path fault => "reading frame " ++ path.text ++ ": " ++ fault.message
  | .creating fault => fault.message
  | .writing path fault => "writing " ++ path.text ++ ": " ++ fault.message
  | .inspecting input error => "inspecting " ++ input.text ++ ": " ++ error.message
  | .batch inputs error => error.message inputs

/-- The extension of files with frames. -/
def frameExtension : String := "bin"

/-- Where the frame of an input is written. -/
def Output.target? (output : Output) (input : Input) : Option Path :=
  match output, input with
  | .besideSource, .file path => some (path.withExtension frameExtension)
  | .besideSource, .standardInput => some (.ofText ("out." ++ frameExtension))
  | .file path, _ => some path
  | .standardOutput, _ => none

/-- An input and what compiling it has come to. -/
structure Report where
  input : Input
  result : Except DeliveredError Frame

namespace Report

/-- Whether an input compiles. -/
def isSuccess (report : Report) : Bool := report.result.toOption.isSome

/-- The exit code of a task with these reports. -/
def exitCode (reports : List Report) : Nat :=
  if reports.all isSuccess then 0 else 1

end Report

/-- Where tasks are carried out, how, and whether tags are coloured. -/
structure Setting (m : Type → Type) where
  workspace : Workspace m
  settings : Settings
  colored : Bool := false

namespace Setting

variable {m : Type → Type} [Monad m]

/-- Actions of a task. -/
abbrev Act (m : Type → Type) := ExceptT TaskError m

/-- Write a status line. -/
def tell (setting : Setting m) (status : Status) (text : String) : Act m Unit :=
  setting.workspace.writeMessage (status.line setting.colored text)

/-- What an answer of the workspace comes to in a task. -/
def orFail {α φ : Type} (failure : φ → TaskError) (answer : m (Except φ α)) : Act m α :=
  ExceptT.mk do return (← answer).mapError failure

/-- The text of bytes, if they are one. -/
def textOf (failure : IOFault → TaskError) (bytes : List UInt8) : Act m (List Char) :=
  match Text.Utf8.decode? bytes with
  | none => throw (failure .notText)
  | some text => return text

/-- Read a command list. -/
def readSource (setting : Setting m) : Input → Act m (List Char)
  | .standardInput => do
      textOf .readingInput (← setting.workspace.readInput)
  | .file path => do
      let failure : ReadFault → TaskError
        | .opening fault => .opening path fault
        | .reading fault => .reading path fault
      textOf (.reading path) (← orFail failure (setting.workspace.read path))

/-- Read a frame. -/
def readFrame (setting : Setting m) : Input → Act m (List UInt8)
  | .standardInput => setting.workspace.readInput
  | .file path =>
      orFail (fun failure => .readingFrame path failure.fault) (setting.workspace.read path)

/-- The inputs of a task, or the standard input if there are none. -/
def inputsOr (inputs : List Input) : List Input :=
  if inputs.isEmpty then [.standardInput] else inputs

/-- Compile inputs. The jobs take turns on one processor, so there is one worker unless
the settings say otherwise. -/
def compileAll (setting : Setting m) (inputs : List Input) : Act m (List Report) := do
  let sources ← inputs.mapM setting.readSource
  let pool := setting.settings.pool
  match Batch.compile (.ofLimits setting.settings.compiler) (pool.workerCount 1) pool.queueBound
      sources with
  | .error error => throw (.batch inputs error)
  | .ok outcomes =>
      return inputs.zipWith (fun input outcome => ⟨input, outcome.delivered⟩) outcomes

/-- Refuse to replace files, unless that is allowed. -/
def guardTarget (setting : Setting m) (overwrite : Bool) (target : Option Path) : Act m Unit :=
  match target with
  | none => return ()
  | some path => do
      if ← setting.workspace.isPresent path then
        if !overwrite then throw (.targetPresent path)

/-- Write a frame to its target. -/
def writeFrame (setting : Setting m) (makeDirectories : Bool) (input : Input) (frame : Frame) :
    Option Path → Act m Unit
  | none => setting.workspace.writeOutput frame.encode
  | some path => do
      if makeDirectories then
        match path.parent? with
        | none => pure ()
        | some directory =>
            if !directory.isEmpty then
              orFail .creating (setting.workspace.createAll directory)
      orFail (.writing path) (setting.workspace.replace path frame.encode)
      setting.tell .compiled
        s!"{input.text} -> {path.text} ({frame.header.duration} ns)"

/-- Report a failure or write a frame. -/
def settleReport (setting : Setting m) (task : CompileTask) (report : Report)
    (target : Option Path) : Act m Unit :=
  match report.result with
  | .error error => setting.tell .failed (error.report report.input)
  | .ok frame => setting.writeFrame task.makeDirectories report.input frame target

/-- Compile inputs and write their frames. The answer is the exit code. -/
def compile (setting : Setting m) (task : CompileTask) : Act m Nat := do
  let inputs := inputsOr task.inputs
  if 1 < inputs.length ∧ task.output ≠ .besideSource then
    throw (.severalInputs inputs.length)
  let targets := inputs.map task.output.target?
  targets.forM (setting.guardTarget task.overwrite)
  let start ← setting.workspace.clock
  let reports ← setting.compileAll inputs
  let stop ← setting.workspace.clock
  (reports.zip targets).forM fun (report, target) => setting.settleReport task report target
  if task.time then
    setting.tell .timed s!"compile: {stop - start} ms for {inputs.length} input(s)"
  return Report.exitCode reports

/-- Compile inputs and write nothing. The answer is the exit code. -/
def check (setting : Setting m) (inputs : List Input) : Act m Nat := do
  let reports ← setting.compileAll (inputsOr inputs)
  reports.forM fun report =>
    match report.result with
    | .error error => setting.tell .failed (error.report report.input)
    | .ok frame =>
        setting.tell .accepted
          s!"{report.input.text} ({frame.code.length} code bytes, {frame.header.duration} ns)"
  return Report.exitCode reports

/-- Describe a frame. -/
def inspect (setting : Setting m) (task : InspectTask) : Act m Unit := do
  let bytes ← setting.readFrame task.input
  match describeFrame bytes task.listing task.json with
  | .error error => throw (.inspecting task.input error)
  | .ok text => setting.workspace.writeOutput (Text.Utf8.encode text.toList)

end Setting

end Sequencer
