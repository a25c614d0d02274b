import Sequencer.CommandLine.Arguments
import Sequencer.Settings.Document

/-!
# The program

The program reads a command line, loads the settings, and carries out the task. It
ends with code zero if all went well, with one if anything failed, and with two if
the command line asks for nothing.
-/

namespace Sequencer

/-- Why settings cannot be loaded. -/
inductive SettingsError where
  | reading (path : Path) (fault : IOFault)
  | parsing (path : Path) (error : Json.ReadError)
  deriving DecidableEq, Repr

/-- The sentence that reports why settings cannot be loaded. -/
def SettingsError.message : SettingsError → String
  | .reading path fault => "reading config " ++ path.text ++ ": " ++ fault.message
  | .parsing path error => "parsing config " ++ path.text ++ ": " ++ error.message

/-- The settings that the bytes of a file hold. -/
def Settings.ofBytes (path : Path) (bytes : List UInt8) : Except SettingsError Settings :=
  match Text.Utf8.decode? bytes with
  | none => .error (.reading path .notText)
  | some text => (Settings.ofText text).mapError (.parsing path)

namespace Application

/-- The name and the version of the program. -/
def versionText : String := "cmdlist 0.1.0\n"

/-- How the program is called. -/
def helpText : String :=
  "Compile, check and inspect command lists\n\n"
    ++ "Usage: cmdlist [OPTIONS] <COMMAND>\n\n"
    ++ "Commands:\n"
    ++ "  compile [INPUTS]...  [-o PATH | --auto] [--mkdir] [--overwrite] [--time]\n"
    ++ "  check [INPUTS]...\n"
    ++ "  inspect <INPUT>  [--disasm] [--json]\n\n"
    ++ "Options:\n"
    ++ "  -v, --verbose        tell more\n"
    ++ "  -q, --quiet          tell errors only\n"
    ++ "      --color <WHEN>   auto, always or never\n"
    ++ "      --workers <N>    the number of workers\n"
    ++ "      --config <PATH>  a file with settings\n"
    ++ "  -h, --help           show this text\n"
    ++ "  -V, --version        show the version\n"

variable {m : Type → Type} [Monad m]

/-- Load the settings of a command line: those of the file that it names, or those of the
environment. -/
def loadSettings (workspace : Workspace m) (line : CommandLine)
    (workersVariable : Option String) : m (Except SettingsError Settings) := do
  let loaded : Except SettingsError Settings ←
    match line.config with
    | none =>
        pure (.ok { pool := PoolSettings.ofEnvironment (workersVariable.map String.toList) })
    | some path =>
        match ← workspace.read path with
        | .error failure => pure (.error (.reading path failure.fault))
        | .ok bytes => pure (Settings.ofBytes path bytes)
  return loaded.map fun settings =>
    match line.workers with
    | none => settings
    | some workers => { settings with pool := { settings.pool with workers := some workers } }

/-- Carry out what a command line asks for. The answer is the exit code. -/
def carryOut (setting : Setting m) : Request → Setting.Act m Nat
  | .compile task => setting.compile task
  | .check inputs => setting.check inputs
  | .inspect task => do
      setting.inspect task
      return 0

/-- Report what has ended the program. -/
def fail (workspace : Workspace m) (message : String) : m Nat := do
  workspace.writeMessage ("error: " ++ message ++ "\n")
  return 1

/-- Do what a command line says. The answer is the exit code. -/
def runLine (workspace : Workspace m) (line : CommandLine) (workersVariable : Option String)
    (terminal : Bool) : m Nat := do
  match ← loadSettings workspace line workersVariable with
  | .error error => fail workspace error.message
  | .ok settings =>
      let setting : Setting m := { workspace, settings, colored := line.color.isColored terminal }
      match ← (carryOut setting line.request).run with
      | .error error => fail workspace ("command failed: " ++ error.message)
      | .ok code => return code

/-- Run the program. The answer is the exit code. -/
def run (workspace : Workspace m) (words : List String) (workersVariable : Option String)
    (terminal : Bool) : m Nat := do
  match CommandLine.ofWords words with
  | .error .help =>
      workspace.writeOutput (Text.Utf8.encode helpText.toList)
      return 0
  | .error .version =>
      workspace.writeOutput (Text.Utf8.encode versionText.toList)
      return 0
  | .error (.usage error) =>
      workspace.writeMessage ("error: " ++ error.message ++ "\n")
      return 2
  | .ok line => runLine workspace line workersVariable terminal

end Application

end Sequencer
