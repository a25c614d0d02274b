import Sequencer.Proofs.Job.Execution
import Sequencer.Proofs.Token.Length

/-!
# Durations are exact

The steps of a program are counted modulo `2 ^ 64`, and so are its nanoseconds. A statement takes
few steps unless a number in it is large, and a large number is written with many digits. So ten
times the steps of a statement are at most `2 ^ 32` for each of its characters
(`StatementTree.steps_le`), and neither count wraps for a source below `2 ^ 32` bytes.
-/

namespace Sequencer

open Sequencer.Text

/-! ## Steps and characters -/

/-- The least number of characters that tokens are written with. -/
def Token.leastLengths (tokens : List Token) : Nat := (tokens.map Token.leastLength).sum

namespace Token

@[simp]
theorem leastLengths_nil : leastLengths [] = 0 :=
  rfl

@[simp]
theorem leastLengths_cons (token : Token) (tokens : List Token) :
    leastLengths (token :: tokens) = token.leastLength + leastLengths tokens := by
  simp [leastLengths]

@[simp]
theorem leastLengths_append (first second : List Token) :
    leastLengths (first ++ second) = leastLengths first + leastLengths second := by
  simp [leastLengths]

/-- Ten times a number of 32 bits is paid for by its digits and two characters more. -/
theorem ten_mul_le {value : Nat} (small : value ≤ 4294967295) :
    10 * value ≤ 2 ^ 32 * ((Token.number value).leastLength + 2) := by
  by_cases large : 16 ^ 7 ≤ value
  · have digits := eight_le_leastLength large
    omega
  · have digit : 1 ≤ (Token.number value).leastLength := Nat.le_add_left 1 _
    omega

end Token

/-- Ten times the steps of a command are at most `2 ^ 32` for each of its characters. -/
theorem CommandTree.steps_le {limits : Limits} {command : CommandTree}
    (within : command.Within limits) :
    10 * ((Opcode.ofCommand command.meaning).baseSteps + command.duration) ≤
      2 ^ 32 * Token.leastLengths command.yield := by
  cases command with
  | wait duration =>
      -- The parentheses are the two characters that the digits fall short of.
      have paid := Token.ten_mul_le within
      have opened : Token.leftParen.leastLength = 1 := rfl
      have closed : Token.rightParen.leastLength = 1 := rfl
      simp only [meaning, Opcode.ofCommand, Opcode.baseSteps, CommandTree.duration, yield, call,
        Token.leastLengths_cons, Token.leastLengths_nil, opened, closed]
      omega
  | _ =>
      simp only [meaning, Opcode.ofCommand, Opcode.baseSteps, CommandTree.duration, yield, call,
        assignment, Token.leastLengths_cons, Token.leastLengths_nil, Token.leastLength]
      omega

namespace StatementTree

theorem ten_mul_extra_le {limits : Limits} {statement : StatementTree}
    (within : statement.Within limits) :
    10 * statement.extra.getD 0 ≤ 2 ^ 32 * Token.leastLengths (extraYield statement.extra) := by
  rcases statement with ⟨command, _ | extra⟩
  · exact Nat.zero_le _
  · -- Here they are the `t` and the equals sign.
    have paid := Token.ten_mul_le ((Nat.le_add_left ..).trans within.2)
    have name : (Token.word "t").leastLength = 1 := rfl
    have equals : Token.equals.leastLength = 1 := rfl
    simp only [extraYield, Token.leastLengths_cons, Token.leastLengths_nil, name, equals,
      Option.getD_some] at paid ⊢
    omega

/-- Ten times the steps of a statement are at most `2 ^ 32` for each of its characters. -/
theorem steps_le {limits : Limits} {statement : StatementTree}
    (within : statement.Within limits) :
    10 * statement.meaning.steps ≤ 2 ^ 32 * Token.leastLengths statement.yield := by
  have stored : (UInt32.ofNat statement.duration).toNat = statement.duration :=
    UInt32.toNat_ofNat_of_lt' (Nat.lt_succ_of_le within.2)
  have command := CommandTree.steps_le within.1
  have extra := ten_mul_extra_le within
  have taken : statement.meaning.steps =
      (Opcode.ofCommand statement.command.meaning).baseSteps + statement.duration :=
    congrArg (_ + ·) stored
  rw [taken, duration, yield, Token.leastLengths_append, Nat.mul_add (2 ^ 32)]
  omega

end StatementTree

namespace ProgramTree

theorem leastLengths_statements_le (program : ProgramTree) :
    (program.statements.map fun statement => Token.leastLengths statement.yield).sum ≤
      Token.leastLengths program.yield := by
  rcases program with ⟨lines, last⟩
  induction lines with
  | nil =>
      cases last with
      | none => exact Nat.le_refl 0
      | some statement => simp [statements, yield, optionalYield]
  | cons line lines inductionHypothesis =>
      rcases line with ⟨_ | statement, separator⟩
      · have shown : (prepend ⟨lines, last⟩ none separator).yield =
            separator.token :: yield ⟨lines, last⟩ := yield_prepend ..
        have same : (prepend ⟨lines, last⟩ none separator).statements =
            statements ⟨lines, last⟩ := statements_prepend_none ..
        rw [prepend] at shown same
        rw [shown, same, Token.leastLengths_cons]
        exact inductionHypothesis.trans (Nat.le_add_left ..)
      · have shown : (prepend ⟨lines, last⟩ (some statement) separator).yield =
            statement.yield ++ separator.token :: yield ⟨lines, last⟩ := yield_prepend ..
        have same : (prepend ⟨lines, last⟩ (some statement) separator).statements =
            statement :: statements ⟨lines, last⟩ := statements_prepend_some ..
        rw [prepend] at shown same
        rw [shown, same, Token.leastLengths_append, Token.leastLengths_cons, List.map_cons,
          List.sum_cons]
        exact Nat.add_le_add_left (inductionHypothesis.trans (Nat.le_add_left ..)) _

/-- Ten times the steps of a program are at most `2 ^ 32` for each of its characters. -/
theorem steps_le {limits : Limits} {program : ProgramTree} (within : program.Within limits) :
    10 * Program.steps program.meaning ≤ 2 ^ 32 * Token.leastLengths program.yield := by
  refine Nat.le_trans ?_ (Nat.mul_le_mul_left _ program.leastLengths_statements_le)
  rw [Program.steps, meaning, List.map_map]
  have each := within
  rw [Within] at each
  generalize program.statements = statements at each
  induction statements with
  | nil => exact Nat.le_refl 0
  | cons statement rest inductionHypothesis =>
      rcases List.forall_mem_cons.mp each with ⟨first, others⟩
      have own := StatementTree.steps_le first
      have following := inductionHypothesis others
      simp only [List.map_cons, List.sum_cons, Function.comp_apply] at following ⊢
      omega

end ProgramTree

/-! ## Programs -/

/-- A program from a short source takes less than `2 ^ 64` nanoseconds. -/
theorem Program.ten_mul_steps_lt {limits : Limits} {source : List Char}
    {statements : List Statement} (short : byteLength source < 2 ^ 32)
    (read : Program.ofText limits source = .ok statements) :
    10 * Program.steps (statements.map Statement.toInstruction) < 2 ^ 64 := by
  obtain ⟨tree, lexes, within, means⟩ := Program.ofText_eq_ok_iff.mp ⟨statements, read, rfl⟩
  have written : Token.leastLengths tree.yield ≤ byteLength source :=
    Scan.sum_leastLength_le lexes
  calc 10 * Program.steps (statements.map Statement.toInstruction)
      = 10 * Program.steps tree.meaning := by rw [means]
    _ ≤ 2 ^ 32 * Token.leastLengths tree.yield := ProgramTree.steps_le within
    _ ≤ 2 ^ 32 * byteLength source := Nat.mul_le_mul_left _ written
    _ < 2 ^ 32 * 2 ^ 32 := Nat.mul_lt_mul_of_pos_left short (by decide)
    _ = 2 ^ 64 := (Nat.pow_add 2 32 32).symm

theorem Program.steps_take_le (instructions : List Instruction) (count : Nat) :
    Program.steps (instructions.take count) ≤ Program.steps instructions := by
  conv_rhs => rw [← List.take_append_drop count instructions, Program.steps_append]
  exact Nat.le_add_right ..

theorem Program.take_place (offset count : Nat) (instructions : List Instruction) :
    (Program.place offset instructions).take count =
      Program.place offset (instructions.take count) := by
  induction instructions generalizing offset count with
  | nil => simp [place]
  | cons instruction rest inductionHypothesis =>
      cases count with
      | zero => rfl
      | succ count => simp [place, inductionHypothesis]

/-- No count wraps when a source below `2 ^ 32` bytes is compiled. The steps that are counted
behind each instruction of the code are the sum of the steps so far, and the duration in the
header of the job's frame is ten times the sum of all. -/
theorem duration_eq_of_compile {limits : Limits} {source : List Char} {compiled : Compiled}
    (short : byteLength source < 2 ^ 32) (done : compile limits source = .ok compiled) :
    ∃ statements, Program.ofText limits source = .ok statements ∧
      10 * (statements.map fun statement =>
        statement.opcode.baseSteps + statement.wait.toNat).sum < 2 ^ 64 ∧
      (∀ count,
        (Decoded.steps ⟨(Decoded.ofCode compiled.code).instructions.take count, none⟩).toNat =
          ((statements.take count).map fun statement =>
            statement.opcode.baseSteps + statement.wait.toNat).sum) ∧
      ∃ steps frame, totalSteps compiled.code = .ok steps ∧
        steps.toNat = (statements.map fun statement =>
          statement.opcode.baseSteps + statement.wait.toNat).sum ∧
        (nanoseconds steps).toNat = 10 * steps.toNat ∧
        execute (.ofLimits limits) source = .ok (.success frame) ∧
        frame.header.duration.toNat = 10 * (statements.map fun statement =>
          statement.opcode.baseSteps + statement.wait.toNat).sum := by
  unfold compile at done
  split at done
  · cases done
  · rename_i statements read
    cases done
    have inRange := Program.inRange_of_ofText read
    have sum (statements : List Statement) :
        Program.steps (statements.map Statement.toInstruction) =
          (statements.map fun statement =>
            statement.opcode.baseSteps + statement.wait.toNat).sum := by
      rw [Program.steps, List.map_map]
      rfl
    have below := Program.ten_mul_steps_lt short read
    have exact (count : Nat) :
        (UInt64.ofNat
            (Program.steps ((statements.map Statement.toInstruction).take count))).toNat =
          Program.steps ((statements.map Statement.toInstruction).take count) := by
      have part := Program.steps_take_le (statements.map Statement.toInstruction) count
      exact UInt64.toNat_ofNat_of_lt' (by rw [UInt64.size]; omega)
    have whole := exact statements.length
    rw [List.take_of_length_le (List.length_map ..).le] at whole
    have duration := toNat_nanoseconds_ofNat
      (Program.steps (statements.map Statement.toInstruction))
    rw [Nat.mod_eq_of_lt below] at duration
    refine ⟨statements, read, sum statements ▸ below, ?_, _, _, totalSteps_encode inRange,
      whole.trans (sum statements), ?_,
      execute_ofLimits_of_ok (read ▸ Program.ofText?_eq limits short),
      duration.trans (congrArg (10 * ·) (sum statements))⟩
    · intro count
      rw [Program.compile, Program.ofCode_encode inRange, Program.take_place, Decoded.steps_place,
        exact, ← List.map_take, sum]
    · rw [whole, duration]

/-- A level that is held for five steps, and the longest wait there is. -/
theorem duration_eq_of_compile_lines :
    byteLength "ttl(3)=on t=5\nwait(0xffffffff)".toList < 2 ^ 32 ∧
      compile {} "ttl(3)=on t=5\nwait(0xffffffff)".toList =
        .ok ⟨[1, 5, 0, 0, 0, 3, 1, 2, 255, 255, 255, 255], 8⟩ ∧
      ∃ frame, execute (.ofLimits {}) "ttl(3)=on t=5\nwait(0xffffffff)".toList =
          .ok (.success frame) ∧
        frame.header.duration.toNat = 42949673030 := by
  have short : byteLength "ttl(3)=on t=5\nwait(0xffffffff)".toList < 2 ^ 32 := by decide +kernel
  have done : compile {} "ttl(3)=on t=5\nwait(0xffffffff)".toList =
      .ok ⟨[1, 5, 0, 0, 0, 3, 1, 2, 255, 255, 255, 255], 8⟩ := by decide +kernel
  have total : totalSteps [1, 5, 0, 0, 0, 3, 1, 2, 255, 255, 255, 255] = .ok 4294967303 := by
    decide +kernel
  obtain ⟨statements, -, -, -, steps, frame, counted, sum, -, executed, duration⟩ :=
    duration_eq_of_compile short done
  cases total.symm.trans counted
  exact ⟨short, done, frame, executed, duration.trans (congrArg (10 * ·) sum.symm)⟩

end Sequencer
