import Sequencer.Text.Measure

/-!
# Cutting a text

A stretch of bytes is cut out of a text where characters begin and end. Offsets that lie behind the
text, stand in the wrong order or cut a character apart give nothing.
-/

namespace Sequencer.Text

/-- Cut a text behind a number of bytes, if a character ends there. -/
def splitBytes? (count : Nat) : List Char → Option (List Char × List Char)
  | [] => if count = 0 then some ([], []) else none
  | c :: rest =>
      if count = 0 then some ([], c :: rest)
      else if c.utf8Size ≤ count then
        (splitBytes? (count - c.utf8Size) rest).map fun parts => (c :: parts.1, parts.2)
      else none

/-- The part of a text between two offsets, if characters begin and end there. -/
def slice? (text : List Char) (start stop : Nat) : Option (List Char) :=
  if start ≤ stop then
    (splitBytes? start text).bind fun (_, behind) =>
      (splitBytes? (stop - start) behind).map Prod.fst
  else none

end Sequencer.Text
