import Sequencer.Files.Path
import Sequencer.Job.Delivery

/-!
# Reporting failures

A failure is reported under the name of its input. An error with a place in the
source is followed by the view of the line at fault.
-/

namespace Sequencer

/-- Where a command list or a frame is read from. -/
inductive Input where
  | file (path : Path)
  | standardInput
  deriving DecidableEq, Repr, Inhabited

namespace Input

/-- How reports name an input. -/
def text : Input → String
  | .file path => path.text
  | .standardInput => "<stdin>"

/-- The input that an argument names. -/
def ofArgument (argument : String) : Input :=
  if argument = "-" then .standardInput else .file (.ofText argument)

end Input

/-- The report of an error in an input. -/
def DeliveredError.report (error : DeliveredError) (input : Input) : String :=
  match error with
  | .located diagnostic =>
      s!"{input.text}:{diagnostic.lineNumber}:{diagnostic.column}\n{diagnostic.render}"
  | .generic text => s!"{input.text}: {text}"

end Sequencer
