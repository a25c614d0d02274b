/-!
# Status lines

What becomes of an input is told in a line that starts with a tag. The tag has a
colour of its own, if colours are wanted.
-/

namespace Sequencer

/-- When tags are coloured. -/
inductive ColorChoice where
  /-- If the messages go to a terminal. -/
  | auto
  | always
  | never
  deriving DecidableEq, Repr, Inhabited

/-- Whether tags are coloured, on a terminal or elsewhere. -/
def ColorChoice.isColored (terminal : Bool) : ColorChoice → Bool
  | .auto => terminal
  | .always => true
  | .never => false

/-- What a status line is about. -/
inductive Status where
  | compiled
  | accepted
  | failed
  | timed
  deriving DecidableEq, Repr

namespace Status

/-- The tag of a status. -/
def tag : Status → String
  | .compiled => "COMPILE"
  | .accepted => "OK"
  | .failed => "ERROR"
  | .timed => "TIME"

/-- The number of the colour of a status: green, red or blue. -/
def color : Status → Nat
  | .compiled => 32
  | .accepted => 32
  | .failed => 31
  | .timed => 34

/-- A status line. -/
def line (status : Status) (colored : Bool) (text : String) : String :=
  let tag :=
    if colored then s!"\x1b[{status.color}m{status.tag}\x1b[39m" else status.tag
  tag ++ " " ++ text ++ "\n"

end Status

end Sequencer
