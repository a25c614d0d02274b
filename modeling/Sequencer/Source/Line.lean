import Sequencer.Text.Measure

/-!
# The lines of a source

A source is cut after every line feed, so it has one line more than line feeds.
Lines and columns count from one, and a column counts bytes. The text of a line
leaves out the line feed and one carriage return before it.

Offsets, lines and columns are exact here, whatever the length of the source. The
table that a machine makes of them in words of 32 bits is in
`Sequencer.Source.WordTable`.
-/

namespace Sequencer.Source

open Sequencer.Text

/-- A line: the offset of its first byte, and its characters up to the line feed. -/
structure Line where
  start : Nat
  body : List Char
  deriving DecidableEq, Repr, Inhabited

namespace Line

/-- The text of a line, without a carriage return at its end. -/
def text (line : Line) : List Char :=
  if line.body.getLast? = some '\r' then line.body.dropLast else line.body

/-- The offset behind the text of a line. -/
def stop (line : Line) : Nat := line.start + byteLength line.text

end Line

/-- The lines of a text whose first byte has offset `start`. -/
def linesFrom (start : Nat) : List Char → List Line
  | [] => [⟨start, []⟩]
  | c :: rest =>
      let following := linesFrom (start + c.utf8Size) rest
      if c = '\n' then ⟨start, []⟩ :: following
      else
        match following with
        | [] => [⟨start, [c]⟩]
        | line :: more => ⟨start, c :: line.body⟩ :: more

/-- The lines of a source, together with the length of its text. -/
structure LineTable where
  lines : List Line
  length : Nat
  deriving DecidableEq, Repr

namespace LineTable

/-- The line table of a source. -/
def ofText (source : List Char) : LineTable := ⟨linesFrom 0 source, byteLength source⟩

/-- The offsets at which lines start. -/
def starts (table : LineTable) : List Nat := table.lines.map Line.start

/-- The number of lines. -/
def count (table : LineTable) : Nat := table.lines.length

/-- The line and the column of an offset: the last line that starts at or before
it, even when the offset lies behind the source. -/
def position (table : LineTable) (offset : Nat) : Nat × Nat :=
  let reached := table.starts.takeWhile (· ≤ offset)
  (reached.length, offset - reached.getLast?.getD 0 + 1)

/-- The line with a number. Number zero stands for the first line, and a number
past the last for an empty line at the end of the source. -/
def line (table : LineTable) (number : Nat) : Line :=
  table.lines[max number 1 - 1]?.getD ⟨table.length, []⟩

end LineTable

end Sequencer.Source
