import Sequencer.Job.Backend
import Sequencer.Proofs.Compiler.Words
import Sequencer.Proofs.Frame.RoundTrip
import Sequencer.Proofs.Instruction.Totals

/-!
# Executing a job with the compiler of this library

A program that was read from a source can be encoded, its code can be read back, and its steps can
be counted. The compiler itself does not crash with a source shorter than `2 ^ 32 - 1` bytes
(`Backend.compile_ofLimits`). So a job neither crashes nor fails without a diagnostic then, and the
frame that it comes to says what the source says (`execute_ofLimits`).
-/

namespace Sequencer

open Sequencer.Source Sequencer.Text

/-! ## What is read is in range -/

theorem CommandTree.inRange_meaning {limits : Limits} {command : CommandTree}
    (within : command.Within limits) : command.meaning.InRange := by
  cases command with
  | ttl channel level =>
      have small : channel < 32 := Nat.lt_of_lt_of_le within (Nat.min_le_right ..)
      rw [meaning, Command.InRange, UInt8.lt_iff_toNat_lt, UInt8.toNat_ofNat']
      exact Nat.lt_of_le_of_lt (Nat.mod_le ..) small
  | _ => trivial

/-- A program that was read names no TTL line that there is not. -/
theorem Program.inRange_of_ofText {limits : Limits} {source : List Char}
    {statements : List Statement} (read : Program.ofText limits source = .ok statements) :
    ∀ instruction ∈ statements.map Statement.toInstruction, instruction.command.InRange := by
  rcases Program.ofText_eq_ok_iff.mp ⟨statements, read, rfl⟩ with ⟨tree, -, within, means⟩
  rw [← means]
  intro instruction inside
  rcases List.mem_map.mp inside with ⟨statement, derived, rfl⟩
  exact CommandTree.inRange_meaning (within statement derived).1

theorem Program.inRange_of_ofText? {limits : Limits} {source : List Char}
    {statements : List Statement} (read : Program.ofText? limits source = some (.ok statements)) :
    ∀ instruction ∈ statements.map Statement.toInstruction, instruction.command.InRange := by
  obtain ⟨statements', read', same⟩ := exists_ofText_of_ofText? read
  rw [← same]
  exact inRange_of_ofText read'

/-! ## Outcomes -/

section

variable {limits : Limits} {source : List Char} {statements : List Statement}

/-- The compiler of this library does not crash with a source shorter than `2 ^ 32 - 1` bytes. -/
theorem Backend.compile_ofLimits (limits : Limits) (short : byteLength source < 2 ^ 32 - 1) :
    (Backend.ofLimits limits).compile source =
      .ok ((Sequencer.compile limits source).mapError .located) := by
  unfold ofLimits
  dsimp only
  rw [compile?_eq limits short]

/-- With the compiler of this library a job is compiled, and its steps are counted. A crash of the
compiler is what the job comes to. -/
theorem execute_ofLimits_eq (limits : Limits) (source : List Char) :
    execute (.ofLimits limits) source =
      match compile? limits source with
      | none => .ok (.ofText Crash.overflow.message)
      | some (.error diagnostic) => .ok (.rejected diagnostic)
      | some (.ok compiled) =>
          match totalSteps compiled.code with
          | .error fault => .error (.brokenContract fault)
          | .ok steps => .ok (.success ⟨.ofSteps steps compiled.ttlMask, compiled.code⟩) := by
  unfold execute Backend.ofLimits
  dsimp only
  rcases compile? limits source with _ | diagnostic | compiled
  · rfl
  · rfl
  · dsimp only [Except.mapError]
    cases totalSteps compiled.code <;> rfl

theorem execute_ofLimits_of_error {error : ParseError}
    (failed : Program.ofText? limits source = some (.error error)) :
    execute (.ofLimits limits) source =
      .ok ((error.diagnostic? source).elim (.ofText Crash.overflow.message) .rejected) := by
  rw [execute_ofLimits_eq, compile?_of_error failed]
  cases error.diagnostic? source <;> rfl

theorem execute_ofLimits_of_ok (read : Program.ofText? limits source = some (.ok statements)) :
    execute (.ofLimits limits) source =
      .ok (.success
        ⟨.ofSteps (UInt64.ofNat (Program.steps (statements.map Statement.toInstruction)))
            (Program.ttlMask (statements.map Statement.toInstruction)),
          Program.encode (statements.map Statement.toInstruction)⟩) := by
  have counted : totalSteps (Program.compile (statements.map Statement.toInstruction)).code =
      .ok (UInt64.ofNat (Program.steps (statements.map Statement.toInstruction))) :=
    totalSteps_encode (Program.inRange_of_ofText? read)
  rw [execute_ofLimits_eq, compile?_of_ok read]
  dsimp only
  rw [counted]
  rfl

/-- What a source comes to: a frame, or what is wrong with it. -/
def Outcome.ofSource (limits : Limits) (source : List Char) : Outcome :=
  match Program.ofText? limits source with
  | none => .ofText Crash.overflow.message
  | some (.error error) =>
      (error.diagnostic? source).elim (.ofText Crash.overflow.message) .rejected
  | some (.ok statements) =>
      let instructions := statements.map Statement.toInstruction
      .success ⟨.ofSteps (UInt64.ofNat (Program.steps instructions)) (Program.ttlMask instructions),
        Program.encode instructions⟩

theorem execute_ofLimits_eq_ok (limits : Limits) (source : List Char) :
    execute (.ofLimits limits) source = .ok (.ofSource limits source) := by
  unfold Outcome.ofSource
  rcases read : Program.ofText? limits source with _ | error | statements
  · rw [execute_ofLimits_eq, compile?, read]
    rfl
  · exact execute_ofLimits_of_error read
  · exact execute_ofLimits_of_ok read

/-! ## Frames of programs -/

/-- A frame carries a program: its code is read back as the statements, each behind the bytes of the
ones before it, its mask has the bits of the TTL lines that the statements set, and its duration is
that of the statements. -/
structure Frame.Carries (frame : Frame) (statements : List Statement) : Prop where
  decodes : Frame.decode frame.encode = .ok frame
  sound : (Decoded.ofCode frame.code).fault = none
  instructions : (Decoded.ofCode frame.code).instructions.map PlacedInstruction.toInstruction =
    statements.map Statement.toInstruction
  offsets : ∀ index placed, (Decoded.ofCode frame.code).instructions[index]? = some placed →
    placed.offset = ((statements.take index).map fun statement =>
      5 + statement.opcode.operandLength).sum
  ttlMask : ∀ line < 32, frame.header.ttlMask.toNat.testBit line ↔
    ∃ statement ∈ statements, (∃ levels, statement.command = .ttlAll levels) ∨
      ∃ channel on, statement.command = .ttl channel on ∧ channel.toNat = line
  duration : frame.header.duration.toNat =
    10 * (statements.map fun statement =>
      statement.opcode.baseSteps + statement.wait.toNat).sum % 2 ^ 64

/-- The frame that a program comes to carries it. -/
theorem Frame.carries_encode (inRange : ∀ instruction ∈ statements.map Statement.toInstruction,
      instruction.command.InRange) :
    Carries ⟨.ofSteps (UInt64.ofNat (Program.steps (statements.map Statement.toInstruction)))
        (Program.ttlMask (statements.map Statement.toInstruction)),
      Program.encode (statements.map Statement.toInstruction)⟩ statements := by
  have read := Program.ofCode_encode inRange
  refine ⟨Frame.decode_encode _, ?_, ?_, ?_, ?_, ?_⟩
  · rw [read]
  · rw [read]
    exact Program.map_toInstruction_place 0 _
  · intro index placed found
    rw [read, Program.getElem?_place, Option.map_eq_some_iff] at found
    rcases found with ⟨instruction, -, rfl⟩
    rw [Program.length_encode, ← List.map_take, List.map_map, Nat.zero_add]
    rfl
  · intro line exists_line
    rw [Header.ofSteps, Program.testBit_ttlMask_iff exists_line]
    constructor
    · rintro ⟨_, inside, drives⟩
      rcases List.mem_map.mp inside with ⟨statement, found, rfl⟩
      exact ⟨statement, found, drives⟩
    · rintro ⟨statement, found, drives⟩
      exact ⟨statement.toInstruction, List.mem_map_of_mem found, drives⟩
  · rw [Header.ofSteps, toNat_nanoseconds_ofNat, Program.steps, List.map_map]
    rfl

/-! ## Execution -/

/-- What executing a source with the compiler of this library comes to. -/
structure ExecutesFaithfully (limits : Limits) (source : List Char) : Prop where
  noCrash : ∀ crash, execute (.ofLimits limits) source ≠ .error crash
  /-- There is no failure without a diagnostic. -/
  located : ∀ text, execute (.ofLimits limits) source ≠ .ok (.failed text)
  /-- The source is read, or an error is found in it. -/
  read : ∃ answer, Program.ofText? limits source = some answer
  rejected_iff : (∃ diagnostic, execute (.ofLimits limits) source = .ok (.rejected diagnostic)) ↔
    ∃ error, Program.ofText? limits source = some (.error error)
  /-- The diagnostic is that of the error. -/
  shows : ∀ error diagnostic, Program.ofText? limits source = some (.error error) →
    execute (.ofLimits limits) source = .ok (.rejected diagnostic) →
      error.diagnostic? source = some diagnostic
  /-- A source that is read comes to a frame that carries its statements. -/
  carries : ∀ statements, Program.ofText? limits source = some (.ok statements) →
    ∃ frame, execute (.ofLimits limits) source = .ok (.success frame) ∧ frame.Carries statements

end

end Sequencer
