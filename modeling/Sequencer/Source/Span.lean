/-!
# Stretches of a source

A span names a half-open stretch of one source by byte offsets. Nothing forces
its ends into order, so its length is cut off at zero.

Offsets are exact here, whatever the length of the source. A machine keeps them in
words of 32 bits (`Span.inWords`), which changes nothing for a source shorter than
`2 ^ 32` bytes.
-/

namespace Sequencer.Source

/-- The stretch from `start` up to but not including `stop`. -/
structure Span where
  /-- The number of the source that the offsets count in. -/
  source : Nat
  start : Nat
  stop : Nat
  deriving DecidableEq, Repr, Inhabited

namespace Span

/-- The number of bytes covered. -/
def length (span : Span) : Nat := span.stop - span.start

/-- Whether no byte is covered. -/
def isEmpty (span : Span) : Bool := span.stop ≤ span.start

/-- The smallest stretch of the first span's source that covers both. -/
def join (first second : Span) : Span where
  source := first.source
  start := min first.start second.start
  stop := max first.stop second.stop

/-- A stretch with offsets that are kept in words of 32 bits. What a word cannot hold of an offset
is lost. -/
def inWords (span : Span) : Span where
  source := span.source
  start := span.start % UInt32.size
  stop := span.stop % UInt32.size

end Span

end Sequencer.Source
