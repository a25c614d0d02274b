import Sequencer.Proofs.Frame.RoundTrip
import Mathlib.Logic.ExistsUnique

/-!
# Frames in one buffer

A frame is made in the buffer that holds its code: room is made behind the code, the code is moved
over itself to where it stands in a frame, and the header is written in front of it. A frame is cut
by a reader of two words and a slice. A step of this has no result where a range leaves its buffer
or where bytes do not fill the place that they are written to. That never happens, and frames made
and cut this way are those of `Frame.encode` and `Frame.decode` (`Frame.joinInPlace?_eq`,
`Frame.cut?_eq`). So frames are told by their bytes, and all bytes that have room for a header are
those of a frame (`Frame.corresponds`).
-/

namespace Sequencer

open Sequencer.Bytes

/-! ## Changing a buffer -/

namespace Bytes

/-- Cut a buffer behind a number of bytes, or fill it up to that number. -/
def resize (buffer : List UInt8) (length : Nat) (fill : UInt8) : List UInt8 :=
  buffer.take length ++ List.replicate (length - buffer.length) fill

/-- Move the bytes from `start` up to `stop` to another place of the same buffer. They are those
that stood there before, even where both places share bytes. -/
def copyWithin? (buffer : List UInt8) (start stop target : Nat) : Option (List UInt8) :=
  if start ≤ stop ∧ stop ≤ buffer.length ∧ target + (stop - start) ≤ buffer.length then
    some (buffer.take target ++ (buffer.drop start).take (stop - start) ++
      buffer.drop (target + (stop - start)))
  else none

/-- Write bytes over those from `start` up to `stop`, which have to be as many. -/
def overwrite? (buffer : List UInt8) (start stop : Nat) (bytes : List UInt8) :
    Option (List UInt8) :=
  if start ≤ stop ∧ stop ≤ buffer.length ∧ bytes.length = stop - start then
    some (buffer.take start ++ bytes ++ buffer.drop stop)
  else none

variable {front bytes : List UInt8}

theorem resize_length_add (buffer : List UInt8) (count : Nat) (fill : UInt8) :
    resize buffer (buffer.length + count) fill = buffer ++ List.replicate count fill := by
  rw [resize, List.take_of_length_le (Nat.le_add_right ..), Nat.add_sub_cancel_left]

/-- Bytes at the front of a buffer are moved up by as many bytes as there are behind them. What they
leave behind is still there. -/
theorem copyWithin?_front (bytes room : List UInt8) :
    copyWithin? (bytes ++ room) 0 bytes.length room.length =
      some ((bytes ++ room).take room.length ++ bytes) := by
  have whole : room.length + bytes.length = (bytes ++ room).length := by
    rw [List.length_append, Nat.add_comm]
  have inside : bytes.length ≤ (bytes ++ room).length := by
    rw [List.length_append]
    exact Nat.le_add_right ..
  rw [copyWithin?, Nat.sub_zero, if_pos ⟨Nat.zero_le _, inside, Nat.le_of_eq whole⟩, whole,
    List.drop_zero, List.take_left' rfl, List.drop_length, List.append_nil]

theorem overwrite?_front (same : bytes.length = front.length) (rest : List UInt8) :
    overwrite? (front ++ rest) 0 front.length bytes = some (bytes ++ rest) := by
  have inside : front.length ≤ (front ++ rest).length := by
    rw [List.length_append]
    exact Nat.le_add_right ..
  rw [overwrite?, if_pos ⟨Nat.zero_le _, inside, same⟩, List.take_zero, List.drop_left' rfl,
    List.nil_append]

end Bytes

/-! ## Headers -/

namespace Header

/-- The bytes of a header, written one word behind the other and then copied to their place. -/
def store? (header : Header) : Option (List UInt8) :=
  overwrite? (List.replicate length 0) 0 length
    (([] ++ ofUInt64 header.duration) ++ ofUInt32 header.ttlMask)

/-- Read a header from the front of a frame. -/
def read (bytes : List UInt8) : Except Fault Header :=
  if bytes.length < length then .error (.truncatedFrame bytes.length)
  else do
    let (duration, behind) ← (Reader.start bytes).uint64
    let (ttlMask, _) ← behind.uint32
    .ok ⟨duration, ttlMask⟩

theorem store?_eq (header : Header) : header.store? = some header.encode := by
  have place : List.replicate length (0 : UInt8) ++ [] = List.replicate length 0 :=
    List.append_nil _
  have size : header.encode.length = (List.replicate length (0 : UInt8)).length := by
    rw [length_encode, List.length_replicate]
  have filled := overwrite?_front size []
  rw [place, List.length_replicate, List.append_nil] at filled
  exact filled

theorem read_encode_append (header : Header) (code : List UInt8) :
    read (header.encode ++ code) = .ok header := by
  have long : ¬ (header.encode ++ code).length < length := by simp
  have first : (Reader.start (header.encode ++ code)).uint64 =
      .ok (header.duration, ⟨8, ofUInt32 header.ttlMask ++ code⟩) :=
    Reader.uint64_eq_ok_iff.mpr ⟨List.append_assoc .., rfl⟩
  have second : Reader.uint32 ⟨8, ofUInt32 header.ttlMask ++ code⟩ =
      .ok (header.ttlMask, ⟨12, code⟩) :=
    Reader.uint32_eq_ok_iff.mpr ⟨rfl, rfl⟩
  simp only [read, if_neg long, first, second, bind, Except.bind]

end Header

/-! ## Frames -/

namespace Frame

/-- Make a frame in the buffer that holds its code. -/
def joinInPlace? (code : List UInt8) (header : Header) : Option (List UInt8) := do
  let grown := resize code (code.length + Header.length) 0
  let moved ← copyWithin? grown 0 code.length Header.length
  let stored ← header.store?
  overwrite? moved 0 Header.length stored

/-- Cut a frame into header and code. -/
def cut? (bytes : List UInt8) : Option (Except Fault Frame) :=
  match Header.read bytes with
  | .error fault => some (.error fault)
  | .ok header =>
      if Header.length ≤ bytes.length then some (.ok ⟨header, bytes.drop Header.length⟩) else none

/-- A frame made in place has the bytes that it has anyway. -/
theorem joinInPlace?_eq (frame : Frame) :
    joinInPlace? frame.code frame.header = some frame.encode := by
  have room : (List.replicate Header.length (0 : UInt8)).length = Header.length :=
    List.length_replicate
  have moved := copyWithin?_front frame.code (List.replicate Header.length 0)
  rw [room] at moved
  have front : ((frame.code ++ List.replicate Header.length (0 : UInt8)).take
      Header.length).length = Header.length := by
    rw [List.length_take, List.length_append, room]
    exact Nat.min_eq_left (Nat.le_add_left ..)
  have written := overwrite?_front ((Header.length_encode frame.header).trans front.symm) frame.code
  rw [front] at written
  simp only [joinInPlace?, resize_length_add, moved, Header.store?_eq, Option.bind_eq_bind,
    Option.bind_some]
  exact written

/-- Bytes are cut as they are anyway. -/
theorem cut?_eq (bytes : List UInt8) : cut? bytes = some (decode bytes) := by
  rcases Nat.lt_or_ge bytes.length 12 with short | long
  · have few : bytes.length < Header.length := short
    rw [cut?, Header.read, if_pos few, decode_of_short short]
  · obtain ⟨frame, rfl⟩ := exists_eq_encode long
    have enough : Header.length ≤ frame.encode.length := long
    have read : Header.read frame.encode = .ok frame.header :=
      Header.read_encode_append frame.header frame.code
    rw [decode_encode, cut?, read]
    dsimp only
    rw [if_pos enough, drop_encode]

/-- What holds of a frame and of bytes, whatever they are: frames made in place and the bytes that
have room for a header tell each other. -/
structure Corresponds (frame : Frame) (bytes : List UInt8) : Prop where
  /-- A frame is the bytes of the duration and of the mask, the least significant first, and the
  code as it is. -/
  joined : joinInPlace? frame.code frame.header = some
    ((List.range 8).map (fun place => UInt8.ofNat (frame.header.duration.toNat / 256 ^ place)) ++
      (List.range 4).map (fun place => UInt8.ofNat (frame.header.ttlMask.toNat / 256 ^ place)) ++
      frame.code)
  /-- `Frame.encode` gives what is made in place. -/
  encoded : joinInPlace? frame.code frame.header = some frame.encode
  /-- `Frame.decode` gives what is cut. -/
  decoded : cut? bytes = some (decode bytes)
  /-- The parts of a frame are found again, the code as the slice behind the header. -/
  cut_joined : (joinInPlace? frame.code frame.header).bind cut? = some (.ok frame)
  code : (joinInPlace? frame.code frame.header).map (List.drop 12) = some frame.code
  /-- Bytes that have room for a header are cut, and their parts make the same bytes again. -/
  joined_cut : 12 ≤ bytes.length → ∃ parts, cut? bytes = some (.ok parts) ∧
    joinInPlace? parts.code parts.header = some bytes
  /-- They are the bytes of one frame, and other bytes are those of none. -/
  onto : 12 ≤ bytes.length ↔ ∃! parts : Frame, joinInPlace? parts.code parts.header = some bytes
  /-- Only bytes that have no room for a header are not cut, and what is reported is how many there
  are. -/
  truncated : ∀ fault, cut? bytes = some (.error fault) ↔
    bytes.length < 12 ∧ fault = .truncatedFrame bytes.length

/-- Frames and the bytes that have room for a header correspond. -/
theorem corresponds (frame : Frame) (bytes : List UInt8) : Corresponds frame bytes where
  joined := by
    rw [joinInPlace?_eq, encode, Header.encode, ofUInt64, ofUInt32, ofNat_eq_map_range,
      ofNat_eq_map_range]
  encoded := joinInPlace?_eq frame
  decoded := cut?_eq bytes
  cut_joined := by
    rw [joinInPlace?_eq, Option.bind_some, cut?_eq, decode_encode]
  code := by
    rw [joinInPlace?_eq]
    exact congrArg some (drop_encode frame)
  joined_cut long := by
    obtain ⟨parts, rfl⟩ := exists_eq_encode long
    exact ⟨parts, by rw [cut?_eq, decode_encode], joinInPlace?_eq parts⟩
  onto := by
    simp only [joinInPlace?_eq, Option.some.injEq]
    constructor
    · intro long
      obtain ⟨parts, rfl⟩ := exists_eq_encode long
      exact ⟨parts, rfl, fun other => encode_injective⟩
    · rintro ⟨parts, rfl, -⟩
      rw [encode, List.length_append, Header.length_encode]
      exact Nat.le_add_right ..
  truncated fault := by
    rw [cut?_eq, Option.some.injEq]
    rcases Nat.lt_or_ge bytes.length 12 with short | long
    · simp [decode_of_short short, short, eq_comm]
    · obtain ⟨parts, rfl⟩ := exists_eq_encode long
      simp [decode_encode, Nat.not_lt.mpr long]

end Frame

end Sequencer
