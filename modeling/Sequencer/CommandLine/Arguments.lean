import Sequencer.CommandLine.Flag
import Sequencer.CommandLine.Tasks

/-!
# Command lines

A command line names a task. Some flags hold for every task and may stand before its
name or behind it, where they count more.
-/

namespace Sequencer

/-- What a command line asks for. -/
inductive Request where
  | compile (task : CompileTask)
  | check (inputs : List Input)
  | inspect (task : InspectTask)
  deriving Repr

/-- What a command line says. -/
structure CommandLine where
  request : Request
  color : ColorChoice := .auto
  workers : Option Nat := none
  config : Option Path := none
  /-- How much is to be told about the work itself. -/
  verbosity : Nat := 0
  quiet : Bool := false
  deriving Repr

namespace CommandLine

/-- The choices of colour by their names. -/
def colorChoices : List (String × ColorChoice) :=
  [("auto", .auto), ("always", .always), ("never", .never)]

/-- Whether a flag accepts a value. Arguments are accepted under the empty name. -/
def accepts (flag value : String) : Bool :=
  if flag = "color" then (colorChoices.lookup value).isSome
  else if flag = "workers" then (Numeral.count? value.toList).isSome
  else !value.isEmpty

/-- The flags that hold for every task, and the one that asks for help. -/
def sharedFlags : List Flag :=
  [ { long := "verbose", short := some 'v', kind := .counter }
  , { long := "quiet", short := some 'q', kind := .switch }
  , { long := "color", kind := .value }
  , { long := "workers", kind := .value }
  , { long := "config", kind := .value }
  , { long := "help", short := some 'h', kind := .help } ]

/-- The words before the name of a task. -/
def outerUsage : Usage where
  flags := sharedFlags ++ [{ long := "version", short := some 'V', kind := .version }]
  accept := accepts
  arguments := some 0

/-- The words behind the name of a task with flags of its own. -/
def taskUsage (flags : List Flag) (arguments : Option Nat) : Usage where
  flags := sharedFlags ++ flags
  accept := accepts
  arguments := arguments

/-- The usage of the task that compiles. -/
def compileUsage : Usage :=
  taskUsage
    [ { long := "output", short := some 'o', kind := .value }
    , { long := "auto", kind := .switch }
    , { long := "mkdir", kind := .switch }
    , { long := "overwrite", kind := .switch }
    , { long := "time", kind := .switch } ] none

/-- The usage of the task that checks. -/
def checkUsage : Usage := taskUsage [] none

/-- The usage of the task that inspects. -/
def inspectUsage : Usage :=
  taskUsage [{ long := "disasm", kind := .switch }, { long := "json", kind := .switch }] (some 1)

/-- The output that flags ask for. -/
def outputOf (given : Given) : Except Stop Output :=
  match given.value? "output", given.has "auto" with
  | some _, true => .error (.usage (.conflictingFlags "output" "auto"))
  | some path, false => .ok (.file (.ofText path))
  | none, true => .ok .besideSource
  | none, false => .ok .standardOutput

/-- The task that compiles. -/
def compileRequest (given : Given) : Except Stop Request :=
  (outputOf given).map fun output =>
    .compile
      { inputs := given.arguments.map Input.ofArgument, output
        makeDirectories := given.has "mkdir", overwrite := given.has "overwrite"
        time := given.has "time" }

/-- The task that inspects. -/
def inspectRequest (given : Given) : Except Stop Request :=
  match given.arguments with
  | [] => .error (.usage (.missingArgument "INPUT"))
  | input :: _ =>
      .ok (.inspect
        { input := Input.ofArgument input, listing := given.has "disasm", json := given.has "json" })

/-- The usage of a task and how its request is made. -/
def task? (name : String) : Option (Usage × (Given → Except Stop Request)) :=
  match name with
  | "compile" => some (compileUsage, compileRequest)
  | "check" => some (checkUsage, fun given => .ok (.check (given.arguments.map Input.ofArgument)))
  | "inspect" => some (inspectUsage, inspectRequest)
  | _ => none

/-- A request and the flags for every task, of which those behind its name count more. -/
def ofGiven (outer inner : Given) (request : Request) : CommandLine :=
  let value? (flag : String) := (inner.value? flag).or (outer.value? flag)
  { request
    color := ((value? "color").bind fun name => colorChoices.lookup name).getD .auto
    workers := (value? "workers").bind fun count => Numeral.count? count.toList
    config := (value? "config").map Path.ofText
    verbosity := max (inner.count "verbose") (outer.count "verbose")
    quiet := inner.has "quiet" || outer.has "quiet" }

/-- Ask for help, about a task or in general. -/
def helpAbout : List String → Stop
  | [] => .help
  | [name] => if (task? name).isSome || name = "help" then .help else .usage (.unknownCommand name)
  | _ :: name :: _ => .usage (.unknownCommand name)

/-- Read a command line. -/
def ofWords (words : List String) : Except Stop CommandLine := do
  match ← outerUsage.read true {} words with
  | (_, []) => throw (.usage .missingCommand)
  | (outer, name :: words) =>
      match task? name with
      | none =>
          if name = "help" then throw (helpAbout words)
          else throw (.usage (.unknownCommand name))
      | some (usage, request) =>
          let (inner, _) ← usage.read false {} words
          return ofGiven outer inner (← request inner)

end CommandLine

end Sequencer
