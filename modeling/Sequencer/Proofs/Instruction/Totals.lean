import Sequencer.Proofs.Instruction.RoundTrip

/-!
# What a program drives and how long it takes

The mask of a program has one bit for each TTL line that one of its commands drives, and the
steps of its code are the steps of its instructions.
-/

namespace Sequencer

/-! ## TTL lines -/

/-- A command drives one of the thirty-two TTL lines. -/
def Command.Drives (command : Command) (line : Nat) : Prop :=
  (∃ levels, command = .ttlAll levels) ∨ ∃ channel on, command = .ttl channel on ∧
    channel.toNat = line

theorem Command.testBit_ttlMask_iff {command : Command} {line : Nat} (exists_line : line < 32) :
    command.ttlMask.toNat.testBit line ↔ command.Drives line := by
  cases command with
  | ttlAll levels =>
      have mask : (Command.ttlAll levels).ttlMask.toNat = 2 ^ 32 - 1 := rfl
      rw [mask, Nat.testBit_two_pow_sub_one]
      simp [exists_line, Drives]
  | ttl channel on =>
      simp only [ttlMask, Drives, reduceCtorEq, exists_false, false_or, ttl.injEq]
      by_cases small : channel < 32
      · have shift : channel.toNat % 32 = channel.toNat :=
          Nat.mod_eq_of_lt (UInt8.lt_iff_toNat_lt.mp small)
        rw [if_pos small, UInt32.toNat_shiftLeft, UInt32.toNat_one, UInt8.toNat_toUInt32, shift,
          Nat.one_shiftLeft, Nat.testBit_mod_two_pow, Nat.testBit_two_pow]
        simp [exists_line]
      · have large : 32 ≤ channel.toNat := by
          simpa [UInt8.lt_iff_toNat_lt] using small
        rw [if_neg small]
        simp
        omega
  | _ => simp [ttlMask, Drives]

theorem Program.testBit_ttlMask_iff {instructions : List Instruction} {line : Nat}
    (exists_line : line < 32) :
    (Program.ttlMask instructions).toNat.testBit line ↔
      ∃ instruction ∈ instructions, instruction.command.Drives line := by
  have driven (mask : UInt32) :
      (instructions.foldl (fun mask instruction => mask ||| instruction.command.ttlMask)
          mask).toNat.testBit line ↔
        mask.toNat.testBit line ∨
          ∃ instruction ∈ instructions, instruction.command.Drives line := by
    induction instructions generalizing mask with
    | nil => simp
    | cons instruction rest inductionHypothesis =>
        rw [List.foldl_cons, inductionHypothesis, UInt32.toNat_or, Nat.testBit_or, Bool.or_eq_true,
          Command.testBit_ttlMask_iff exists_line]
        simp [or_assoc]
  simpa [ttlMask] using driven 0

@[simp]
theorem Program.ttlMask_append (first second : List Instruction) :
    Program.ttlMask (first ++ second) = Program.ttlMask first ||| Program.ttlMask second := by
  have masked (mask : UInt32) :
      second.foldl (fun mask instruction => mask ||| instruction.command.ttlMask) mask =
        mask ||| Program.ttlMask second := by
    induction second generalizing mask with
    | nil => simp [ttlMask]
    | cons instruction rest inductionHypothesis =>
        rw [ttlMask, List.foldl_cons, List.foldl_cons, inductionHypothesis, inductionHypothesis,
          UInt32.zero_or, UInt32.or_assoc]
  rw [ttlMask, List.foldl_append, masked]
  rfl

/-! ## Steps -/

/-- The clock steps of a program. -/
def Program.steps (instructions : List Instruction) : Nat :=
  (instructions.map Instruction.steps).sum

@[simp]
theorem Program.steps_append (first second : List Instruction) :
    Program.steps (first ++ second) = Program.steps first + Program.steps second := by
  simp [Program.steps]

theorem Decoded.steps_place (offset : Nat) (instructions : List Instruction)
    (fault : Option Fault) :
    Decoded.steps ⟨Program.place offset instructions, fault⟩ =
      UInt64.ofNat (Program.steps instructions) := by
  have counted (total : Nat) :
      (Program.place offset instructions).foldl
          (fun total placed => total + UInt64.ofNat placed.steps) (UInt64.ofNat total) =
        UInt64.ofNat (total + Program.steps instructions) := by
    induction instructions generalizing offset total with
    | nil => rfl
    | cons instruction rest inductionHypothesis =>
        rw [Program.place, List.foldl_cons, ← UInt64.ofNat_add, inductionHypothesis,
          Program.steps, Program.steps, List.map_cons, List.sum_cons, Nat.add_assoc]
  simpa [Decoded.steps] using counted 0

/-- The steps of code that was made from a program are the steps of the program. -/
theorem totalSteps_encode {instructions : List Instruction}
    (inRange : ∀ instruction ∈ instructions, instruction.command.InRange) :
    totalSteps (Program.encode instructions) =
      .ok (UInt64.ofNat (Program.steps instructions)) := by
  unfold totalSteps
  rw [Program.ofCode_encode inRange]
  exact congrArg Except.ok (Decoded.steps_place 0 instructions none)

end Sequencer
