import Sequencer.Source.Line
import Sequencer.Source.Span
import Sequencer.Source.WordTable
import Sequencer.Text.Measure

/-!
# Diagnostics

A diagnostic shows an error to a person: a sentence, the text of the line at
fault, and where in it the fault lies. Lines and columns count from one, columns
count bytes, and zero stands for "none". A range of columns includes both ends.

`render` shows the line with a marker line below it: `^` under the column, `~`
under the rest of the range.
-/

namespace Sequencer

open Sequencer.Source Sequencer.Text

/-- An error in a line of text. -/
structure Diagnostic where
  message : String
  line : String
  lineNumber : Nat
  column : Nat
  rangeStart : Nat := 0
  rangeStop : Nat := 0
  deriving DecidableEq, Repr, Inhabited

namespace Diagnostic

/-- Whether a range of columns is present. -/
def hasRange (diagnostic : Diagnostic) : Bool :=
  0 < diagnostic.rangeStart && 0 < diagnostic.rangeStop

/-- Put a range of columns into a diagnostic. -/
def withRange (diagnostic : Diagnostic) (first last : Nat) : Diagnostic :=
  { diagnostic with rangeStart := first, rangeStop := last }

/-- Show an error at a place in a source. Its column is at most one behind the text
of the line. The range is that of the highlighted stretch, as far as the line
shows it, and is left out when the stretch is empty or lies in other lines. Lines
and columns are exact; `locate?` finds them in words. -/
def locate (source : List Char) (message : String) (span : Span) (highlight : Option Span) :
    Diagnostic :=
  let table := LineTable.ofText source
  let (lineNumber, column) := table.position span.start
  let line := (table.line lineNumber).text
  let width := byteLength line
  let located : Diagnostic :=
    { message, line := String.ofList line, lineNumber, column := min column (width + 1) }
  match highlight with
  | none => located
  | some stretch =>
      if stretch.isEmpty then located
      else
        let (firstLine, first) := table.position stretch.start
        let (lastLine, last) := table.position (stretch.stop - 1)
        let last := min last width
        if firstLine = lineNumber ∧ lastLine = lineNumber ∧ first ≤ last then
          located.withRange first last
        else located

/-- Show an error as `locate` does, with offsets in words and a source in bytes. Nothing is shown
where a step of it fails. -/
def locate? (source : List Char) (message : String) (span : Span) (highlight : Option Span) :
    Option Diagnostic := do
  let table ← WordTable.ofBytes? (Utf8.encode source)
  let (lineNumber, column) ← table.position? (UInt32.ofNat span.start)
  let line ← table.text? lineNumber source
  let width := Word.ofLength (byteLength line)
  let located : Diagnostic :=
    { message, line := String.ofList line, lineNumber := lineNumber.toNat
      column := (min column (Word.sumOrGreatest width 1)).toNat }
  match highlight.filter fun stretch => !stretch.isEmpty with
  | none => some located
  | some stretch =>
      let (firstLine, first) ← table.position? (UInt32.ofNat stretch.start)
      let stop ← Word.difference? (UInt32.ofNat stretch.stop) 1
      let (lastLine, last) ← table.position? stop
      let last := min last width
      some (if firstLine = lineNumber ∧ lastLine = lineNumber ∧ first ≤ last then
        located.withRange first.toNat last.toNat else located)

/-- The number of the line, where the line is shown. -/
def gutter (diagnostic : Diagnostic) : String :=
  if 0 < diagnostic.lineNumber then s!" {diagnostic.lineNumber}" else ""

/-- What stands below the line, behind the bar; nothing at all without a column. -/
def marker? (diagnostic : Diagnostic) : Option String :=
  let column := diagnostic.column
  let first := diagnostic.rangeStart
  let last := diagnostic.rangeStop
  if diagnostic.hasRange then
    if first ≤ column ∧ column ≤ last then
      some (run (first - 1) ' ' ++ run (column - first) '~' ++ "^" ++ run (last - column) '~')
    else some (run (first - 1) ' ' ++ run (last - first + 1) '~')
  else if 0 < column then some (run (column - 1) ' ' ++ "^")
  else none

/-- The sentence, the line at fault, and the marker line. -/
def render (diagnostic : Diagnostic) : String :=
  let gutter := diagnostic.gutter
  "SyntaxError: " ++ diagnostic.message ++ "\n" ++ gutter ++ "|" ++ diagnostic.line
    ++ match diagnostic.marker? with
      | none => ""
      | some marker => "\n" ++ run gutter.length ' ' ++ "|" ++ marker

/-- The place and the sentence in one line. -/
def text (diagnostic : Diagnostic) : String :=
  s!"line {diagnostic.lineNumber}:{diagnostic.column}: {diagnostic.message}"

end Diagnostic

end Sequencer
