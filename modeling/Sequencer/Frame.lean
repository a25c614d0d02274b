import Sequencer.Bytes.Reader

/-!
# Frames

A frame is what is sent to the sequencer: the duration of a program in nanoseconds
in eight bytes, the mask of the TTL lines it drives in four bytes, and its code. A
clock step takes ten nanoseconds, and durations are counted modulo `2 ^ 64`.
-/

namespace Sequencer

open Sequencer.Bytes

/-- The nanoseconds of a clock step. -/
def nanosecondsPerStep : UInt64 := 10

/-- The duration of a number of clock steps. -/
def nanoseconds (steps : UInt64) : UInt64 := steps * nanosecondsPerStep

/-- What stands before the code in a frame. -/
structure Header where
  duration : UInt64
  ttlMask : UInt32
  deriving DecidableEq, Repr, Inhabited

namespace Header

/-- The number of bytes of a header. -/
def length : Nat := 12

/-- The header of a program that takes a number of clock steps. -/
def ofSteps (steps : UInt64) (ttlMask : UInt32) : Header := ⟨nanoseconds steps, ttlMask⟩

/-- The bytes of a header. -/
def encode (header : Header) : List UInt8 := ofUInt64 header.duration ++ ofUInt32 header.ttlMask

@[simp]
theorem length_encode (header : Header) : header.encode.length = length := by
  simp [encode, ofUInt64, ofUInt32, length]

end Header

/-- A header and the code behind it. -/
structure Frame where
  header : Header
  code : List UInt8
  deriving DecidableEq, Repr, Inhabited

namespace Frame

/-- The bytes of a frame. -/
def encode (frame : Frame) : List UInt8 := frame.header.encode ++ frame.code

/-- Cut bytes into header and code. -/
def decode (bytes : List UInt8) : Except Fault Frame :=
  if bytes.length < Header.length then .error (.truncatedFrame bytes.length)
  else
    .ok
      { header :=
          { duration := UInt64.ofNat (toNat (bytes.take 8))
            ttlMask := UInt32.ofNat (toNat ((bytes.drop 8).take 4)) }
        code := bytes.drop Header.length }

end Frame

end Sequencer
