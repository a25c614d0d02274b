import Sequencer.Frame
import Sequencer.Proofs.Bytes.Words

/-!
# Frames and their bytes

A frame is found again in its bytes, and bytes that have room for a header are those of a frame.
Durations count ten nanoseconds a step, modulo `2 ^ 64`.
-/

namespace Sequencer

open Sequencer.Bytes

/-- Cutting the bytes of a frame gives the frame back. -/
theorem Frame.decode_encode (frame : Frame) : Frame.decode frame.encode = .ok frame := by
  rcases frame with ⟨⟨duration, ttlMask⟩, code⟩
  have long : ¬ (encode ⟨⟨duration, ttlMask⟩, code⟩).length < Header.length := by
    simp [encode]
  have bytes : encode ⟨⟨duration, ttlMask⟩, code⟩ =
      ofUInt64 duration ++ (ofUInt32 ttlMask ++ code) := by
    simp [encode, Header.encode]
  unfold decode
  rw [if_neg long, bytes]
  have first : (ofUInt64 duration ++ (ofUInt32 ttlMask ++ code)).take 8 = ofUInt64 duration :=
    List.take_left' (length_ofUInt64 duration)
  have others : (ofUInt64 duration ++ (ofUInt32 ttlMask ++ code)).drop 8 =
      ofUInt32 ttlMask ++ code :=
    List.drop_left' (length_ofUInt64 duration)
  have second : (ofUInt32 ttlMask ++ code).take 4 = ofUInt32 ttlMask :=
    List.take_left' (length_ofUInt32 ttlMask)
  have behind : (ofUInt64 duration ++ (ofUInt32 ttlMask ++ code)).drop Header.length = code := by
    rw [← List.append_assoc]
    exact List.drop_left' (by simp [Header.length])
  rw [first, others, second, behind]
  simp

theorem Frame.encode_injective {first second : Frame} (same : first.encode = second.encode) :
    first = second := by
  have decoded := decode_encode first
  rw [same, decode_encode] at decoded
  exact (Except.ok.inj decoded).symm

theorem Frame.drop_encode (frame : Frame) : frame.encode.drop Header.length = frame.code :=
  List.drop_left' (Header.length_encode _)

/-- Bytes that have room for a header are those of a frame. -/
theorem Frame.exists_eq_encode {bytes : List UInt8} (long : 12 ≤ bytes.length) :
    ∃ frame : Frame, bytes = frame.encode := by
  have first : (bytes.take 8).length = 8 := by
    rw [List.length_take]
    omega
  have second : ((bytes.drop 8).take 4).length = 4 := by
    rw [List.length_take, List.length_drop]
    omega
  refine ⟨⟨⟨UInt64.ofNat (toNat (bytes.take 8)), UInt32.ofNat (toNat ((bytes.drop 8).take 4))⟩,
    (bytes.drop 8).drop 4⟩, ?_⟩
  rw [encode, Header.encode, ofUInt64_ofNat_toNat first, ofUInt32_ofNat_toNat second,
    List.append_assoc, List.take_append_drop, List.take_append_drop]

theorem Frame.decode_of_short {bytes : List UInt8} (short : bytes.length < 12) :
    Frame.decode bytes = .error (.truncatedFrame bytes.length) :=
  if_pos short

/-- The nanoseconds of a number of steps. -/
theorem toNat_nanoseconds_ofNat (steps : Nat) :
    (nanoseconds (UInt64.ofNat steps)).toNat = 10 * steps % 2 ^ 64 := by
  simp [nanoseconds, nanosecondsPerStep, Nat.mul_comm]

theorem toNat_nanoseconds (steps : UInt64) :
    (nanoseconds steps).toNat = 10 * steps.toNat % 2 ^ 64 := by
  rw [← toNat_nanoseconds_ofNat, UInt64.ofNat_toNat]

end Sequencer
