import Sequencer.Command.Form
import Sequencer.Numeral.Whole
import Sequencer.Text.Blank

/-!
# Settings

Settings say how many channels the hardware has and how the worker pool is set up.
The number of workers is left to the machine unless something gives it: the settings
themselves, or the environment.
-/

namespace Sequencer

/-- How a worker pool is set up. -/
structure PoolSettings where
  /-- The number of workers, or none for as many as the machine has processors. -/
  workers : Option Nat := none
  /-- The number of jobs that may wait, if it is limited. -/
  queueBound : Option Nat := none
  /-- How the names of the threads of workers begin. -/
  threadName : String := "cmdlist-worker"
  deriving DecidableEq, Repr, Inhabited

/-- The settings of the compiler and of its worker pool. -/
structure Settings where
  compiler : Limits := {}
  pool : PoolSettings := {}
  deriving DecidableEq, Repr, Inhabited

namespace PoolSettings

/-- The number of workers that the environment asks for. Blanks around the number count
for nothing, and what is not a number of one or more is passed over. -/
def workersOfEnvironment (text : Option (List Char)) : Option Nat :=
  match text with
  | none => none
  | some text =>
      match Numeral.count? (Text.trim text) with
      | none => none
      | some 0 => none
      | some count => some count

/-- The settings that the environment gives. -/
def ofEnvironment (text : Option (List Char)) : PoolSettings :=
  { workers := workersOfEnvironment text }

/-- The number of workers on a machine with a number of processors. -/
def workerCount (settings : PoolSettings) (processors : Nat) : Nat :=
  settings.workers.getD processors

end PoolSettings

end Sequencer
