import Sequencer.Diagnostic
import Sequencer.Frame

/-!
# Outcomes of jobs

A job is one command list to be compiled. It comes to one outcome: a frame that is
ready to be sent, a diagnostic, or a sentence when nothing better is known.
-/

namespace Sequencer

/-- What a job comes to. -/
inductive Outcome where
  /-- The command list was compiled. -/
  | success (frame : Frame)
  /-- The command list is at fault. -/
  | rejected (diagnostic : Diagnostic)
  /-- Compiling failed in some other way. -/
  | failed (text : String)
  deriving DecidableEq, Repr, Inhabited

namespace Outcome

/-- The outcome of a job that was cancelled before it was started. -/
def cancelled : Outcome := .failed "compilation cancelled"

end Outcome

/-- The number of a job. Jobs are numbered from zero in the order in which they are
accepted. -/
structure JobId where
  number : Nat
  deriving DecidableEq, Repr, Inhabited

namespace JobId

/-- How a job is named. -/
def text (id : JobId) : String := s!"#{id.number}"

/-- The order in which jobs were accepted. -/
def order (first second : JobId) : Ordering := compare first.number second.number

end JobId

end Sequencer
