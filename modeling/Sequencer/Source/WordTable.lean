import Sequencer.Text.Slice
import Sequencer.Text.Utf8

/-!
# The lines of a source, in words

A machine keeps offsets in words of 32 bits and looks at a source as bytes. A sum or a difference
may leave the range of words then, an index may lie behind the end of a list, and a slice may cut a
character apart. The functions of this file find lines and columns in words and bytes, and they have
no result where one of these happens: there a machine that checks its arithmetic stops.
-/

namespace Sequencer.Source

open Sequencer.Text

/-! ## Words -/

namespace Word

/-- The sum of two words, if it is a word. -/
def sum? (first second : UInt32) : Option UInt32 :=
  if first.toNat + second.toNat < UInt32.size then some (first + second) else none

/-- The difference of two words, if it is a word. -/
def difference? (first second : UInt32) : Option UInt32 :=
  if second ≤ first then some (first - second) else none

/-- The greatest word. -/
def greatest : UInt32 := UInt32.ofNat (UInt32.size - 1)

/-- The word of a length, or the greatest word if there is none. -/
def ofLength (length : Nat) : UInt32 :=
  if length < UInt32.size then UInt32.ofNat length else greatest

/-- The sum of two words, or the greatest word if it is none. -/
def sumOrGreatest (first second : UInt32) : UInt32 := (sum? first second).getD greatest

/-- Where a word stands in an ascending list, or else where it would have to be inserted. Nothing is
known of the search in other lists. -/
def search? (words : List UInt32) (word : UInt32) : Option (Except Nat Nat) :=
  if words.Pairwise (· < ·) then
    let index := (words.takeWhile (· < word)).length
    some (if words[index]? = some word then .ok index else .error index)
  else none

/-- The index that was found, or the one in front of the place of a word that was not. -/
def upTo : Except Nat Nat → Nat
  | .ok index => index
  | .error index => index - 1

end Word

/-! ## Tables -/

/-- The offsets at which the lines of a source start, and the length of the source. -/
structure WordTable where
  starts : List UInt32
  length : UInt32

namespace WordTable

/-- The offsets behind the line feeds of bytes, the first of which has an index. -/
def startsFrom? (index : Nat) : List UInt8 → Option (List UInt32)
  | [] => some []
  | byte :: rest =>
      if byte = 10 then do
        let start ← Word.sum? (UInt32.ofNat index) 1
        let following ← startsFrom? (index + 1) rest
        some (start :: following)
      else startsFrom? (index + 1) rest

/-- The table of a source. -/
def ofBytes? (bytes : List UInt8) : Option WordTable := do
  let starts ← startsFrom? 0 bytes
  some ⟨0 :: starts, UInt32.ofNat bytes.length⟩

/-- The line and the column of an offset. -/
def position? (table : WordTable) (offset : UInt32) : Option (UInt32 × UInt32) := do
  let found ← Word.search? table.starts offset
  let start ← table.starts[Word.upTo found]?
  let column ← Word.sum? ((Word.difference? offset start).getD 0) 1
  let number ← Word.sum? (UInt32.ofNat (Word.upTo found)) 1
  some (number, column)

/-- The offset at which the line with an index ends, in front of its line feed. -/
def stop? (table : WordTable) (index : Nat) : Option UInt32 :=
  match table.starts[index + 1]? with
  | none => some table.length
  | some next => Word.difference? next 1

/-- The offsets at which the text of a line starts and ends. -/
def bounds? (table : WordTable) (number : UInt32) (bytes : List UInt8) : Option (Nat × Nat) := do
  let index ← Word.difference? (max number 1) 1
  match table.starts[index.toNat]? with
  | none => some (bytes.length, bytes.length)
  | some start =>
      let stop ← table.stop? index.toNat
      if start < stop then
        let last ← Word.difference? stop 1
        let byte ← bytes[last.toNat]?
        some (start.toNat, if byte = 13 then last.toNat else stop.toNat)
      else some (start.toNat, stop.toNat)

/-- The text of a line. -/
def text? (table : WordTable) (number : UInt32) (source : List Char) : Option (List Char) := do
  let (start, stop) ← table.bounds? number (Utf8.encode source)
  slice? source start stop

end WordTable

end Sequencer.Source
