import Sequencer.Command.Form
import Sequencer.Token.Scan

/-!
# The grammar of command lists

    program := (stmt? (NEWLINE | ";"))* stmt?
    stmt    := command ("t" "=" INT)?
    command := "ttl" "=" INT
             | "ttl" "(" INT ")" "=" level
             | "wait" "(" INT ")"
             | "clock" "(" INT ")"
             | ("freq" | "amp" | "phase" | "dac") "(" INT ")" "=" INT
    level   := "0" | "1" | "on" | "off" | "true" | "false"

A derivation is a tree with one constructor for each production. Its yield is the list of tokens
that it derives. Nothing here refers to a reader: the bounds of numbers are a property of a tree,
and so is its meaning. Trees with the same yield are the same (`ProgramTree.yield_injective`).
-/

namespace Sequencer

/-! ## Levels -/

/-- The ways of writing a TTL level. -/
inductive LevelTree where
  | zero
  | one
  | off
  | on
  | false
  | true
  deriving DecidableEq, Repr

namespace LevelTree

/-- The token of a level. -/
def token : LevelTree → Token
  | .zero => .number 0
  | .one => .number 1
  | .off => .word "off"
  | .on => .word "on"
  | .false => .word "false"
  | .true => .word "true"

/-- Whether a level is the high one. -/
def meaning : LevelTree → Bool
  | .zero => Bool.false
  | .one => Bool.true
  | .off => Bool.false
  | .on => Bool.true
  | .false => Bool.false
  | .true => Bool.true

@[simp]
theorem token_inj {level level' : LevelTree} : level.token = level'.token ↔ level = level' := by
  cases level <;> cases level' <;> simp [token]

end LevelTree

/-! ## Commands -/

/-- The productions of a command, with the numbers in them as they are written. -/
inductive CommandTree where
  | ttlAll (levels : Nat)
  | ttl (channel : Nat) (level : LevelTree)
  | wait (duration : Nat)
  | clock (period : Nat)
  | frequency (channel value : Nat)
  | amplitude (channel value : Nat)
  | phase (channel value : Nat)
  | dac (channel value : Nat)
  deriving DecidableEq, Repr

namespace CommandTree

/-- The tokens of `name ( channel ) = value`. -/
def assignment (name : String) (channel : Nat) (value : Token) : List Token :=
  [.word name, .leftParen, .number channel, .rightParen, .equals, value]

/-- The tokens of `name ( argument )`. -/
def call (name : String) (argument : Nat) : List Token :=
  [.word name, .leftParen, .number argument, .rightParen]

/-- The tokens of a command. -/
def yield : CommandTree → List Token
  | .ttlAll levels => [.word "ttl", .equals, .number levels]
  | .ttl channel level => assignment "ttl" channel level.token
  | .wait duration => call "wait" duration
  | .clock period => call "clock" period
  | .frequency channel value => assignment "freq" channel (.number value)
  | .amplitude channel value => assignment "amp" channel (.number value)
  | .phase channel value => assignment "phase" channel (.number value)
  | .dac channel value => assignment "dac" channel (.number value)

/-- The name that a command begins with. -/
def name : CommandTree → String
  | .ttlAll _ => "ttl"
  | .ttl .. => "ttl"
  | .wait _ => "wait"
  | .clock _ => "clock"
  | .frequency .. => "freq"
  | .amplitude .. => "amp"
  | .phase .. => "phase"
  | .dac .. => "dac"

/-- The numbers of a command are within the bounds of the language and of the hardware. -/
def Within (limits : Limits) : CommandTree → Prop
  | .ttlAll levels => levels ≤ 4294967295
  | .ttl channel _ => channel < min limits.ttl.toNat 32
  | .wait duration => duration ≤ 4294967295
  | .clock period => period ≤ 255
  | .frequency channel value => channel < limits.dds.toNat ∧ value ≤ 4294967295
  | .amplitude channel value => channel < limits.dds.toNat ∧ value ≤ 4095
  | .phase channel value => channel < limits.dds.toNat ∧ value ≤ 65535
  | .dac channel value => channel < limits.dac.toNat ∧ value ≤ 65535

/-- The command that a tree stands for. -/
def meaning : CommandTree → Command
  | .ttlAll levels => .ttlAll (UInt32.ofNat levels)
  | .ttl channel level => .ttl (UInt8.ofNat channel) level.meaning
  | .wait _ => .wait
  | .clock period => .clock (UInt8.ofNat period)
  | .frequency channel value => .frequency (UInt8.ofNat channel) (UInt32.ofNat value)
  | .amplitude channel value => .amplitude (UInt8.ofNat channel) (UInt16.ofNat value)
  | .phase channel value => .phase (UInt8.ofNat channel) (UInt16.ofNat value)
  | .dac channel value => .dac (UInt8.ofNat channel) (UInt16.ofNat value)

/-- The steps that a command itself says to wait. -/
def duration : CommandTree → Nat
  | .wait duration => duration
  | _ => 0

/-- What stands behind a command shows where its tokens end. -/
theorem yield_append_inj {command command' : CommandTree} {rest rest' : List Token} :
    command.yield ++ rest = command'.yield ++ rest' ↔ command = command' ∧ rest = rest' := by
  constructor
  · intro same
    cases command <;> cases command' <;> simp_all [yield, assignment, call]
  · rintro ⟨rfl, rfl⟩
    rfl

theorem exists_yield_eq_name_cons (command : CommandTree) :
    ∃ tokens, command.yield = .word command.name :: tokens := by
  cases command <;> exact ⟨_, rfl⟩

/-- No separator and no end of input stands in a command. -/
theorem inner_of_mem_yield {command : CommandTree} {token : Token}
    (inside : token ∈ command.yield) : token.isSeparator = false ∧ token ≠ .endOfInput := by
  cases command with
  | ttl channel level =>
      cases level <;> simp [yield, assignment, LevelTree.token] at inside <;>
        rcases inside with rfl | rfl | rfl | rfl | rfl | rfl <;> simp [Token.isSeparator]
  | _ =>
      simp only [yield, assignment, call, List.mem_cons, List.not_mem_nil, or_false] at inside
      rcases inside with rfl | rfl | rfl | rfl | rfl | rfl <;> simp [Token.isSeparator]

end CommandTree

/-! ## Statements -/

/-- A command, and the number of `t = number` behind it. -/
structure StatementTree where
  command : CommandTree
  extra : Option Nat
  deriving DecidableEq, Repr

namespace StatementTree

/-- The tokens of `t = number`, if it is there. -/
def extraYield : Option Nat → List Token
  | none => []
  | some extra => [.word "t", .equals, .number extra]

/-- The tokens of a statement. -/
def yield (statement : StatementTree) : List Token :=
  statement.command.yield ++ extraYield statement.extra

/-- All steps that a statement says to wait. -/
def duration (statement : StatementTree) : Nat :=
  statement.command.duration + statement.extra.getD 0

/-- The command is within its bounds, and the wait fits 32 bits. -/
def Within (limits : Limits) (statement : StatementTree) : Prop :=
  statement.command.Within limits ∧ statement.duration ≤ 4294967295

/-- The instruction that a statement stands for. -/
def meaning (statement : StatementTree) : Instruction :=
  ⟨statement.command.meaning, UInt32.ofNat statement.duration⟩

theorem extraYield_injective : Function.Injective extraYield := by
  intro extra extra' same
  cases extra <;> cases extra' <;> simp_all [extraYield]

theorem yield_injective : Function.Injective yield := by
  rintro ⟨command, extra⟩ ⟨command', extra'⟩ same
  rcases CommandTree.yield_append_inj.mp same with ⟨rfl, sameExtra⟩
  have equal : extra = extra' := extraYield_injective sameExtra
  rw [equal]

theorem inner_of_mem_yield {statement : StatementTree} {token : Token}
    (inside : token ∈ statement.yield) : token.isSeparator = false ∧ token ≠ .endOfInput := by
  rcases List.mem_append.mp inside with inCommand | inExtra
  · exact CommandTree.inner_of_mem_yield inCommand
  · rcases statement with ⟨command, _ | extra⟩
    · simp [extraYield] at inExtra
    · simp only [extraYield, List.mem_cons, List.not_mem_nil, or_false] at inExtra
      rcases inExtra with rfl | rfl | rfl <;> simp [Token.isSeparator]

/-- A statement begins with the name of its command. -/
theorem exists_yield_eq_name_cons (statement : StatementTree) :
    ∃ tokens, statement.yield = .word statement.command.name :: tokens := by
  rcases statement.command.exists_yield_eq_name_cons with ⟨tokens, begins⟩
  exact ⟨tokens ++ extraYield statement.extra, by simp [yield, begins]⟩

theorem name_eq_of_yield {statement : StatementTree} {name : String} {tokens : List Token}
    (begins : statement.yield = .word name :: tokens) : statement.command.name = name := by
  obtain ⟨others, own⟩ := statement.exists_yield_eq_name_cons
  exact Token.word.inj (List.cons.inj (own.symm.trans begins)).1

end StatementTree

/-! ## Programs -/

/-- What ends a statement. -/
inductive Separator where
  | lineEnd
  | semicolon
  deriving DecidableEq, Repr

/-- The token of a separator. -/
def Separator.token : Separator → Token
  | .lineEnd => .endOfLine
  | .semicolon => .semicolon

@[simp]
theorem Separator.isSeparator_token (separator : Separator) : separator.token.isSeparator := by
  cases separator <;> rfl

theorem Separator.token_injective : Function.Injective Separator.token := by
  intro separator separator' same
  cases separator <;> cases separator' <;> simp_all [Separator.token]

theorem Token.isSeparator_iff {token : Token} :
    token.isSeparator ↔ ∃ separator : Separator, token = separator.token := by
  constructor
  · intro ends
    cases token <;> simp [isSeparator] at ends
    · exact ⟨.lineEnd, rfl⟩
    · exact ⟨.semicolon, rfl⟩
  · rintro ⟨separator, rfl⟩
    exact separator.isSeparator_token

/-- Statements that separators end, some of them empty, and a last one that nothing ends. -/
structure ProgramTree where
  lines : List (Option StatementTree × Separator)
  last : Option StatementTree
  deriving DecidableEq, Repr

namespace ProgramTree

/-- The tokens of a statement that may be left out. -/
def optionalYield : Option StatementTree → List Token
  | none => []
  | some statement => statement.yield

/-- The tokens of a program. -/
def yield (program : ProgramTree) : List Token :=
  program.lines.flatMap (fun line => optionalYield line.1 ++ [line.2.token]) ++
    optionalYield program.last

/-- The statements of a program in the order of the source. -/
def statements (program : ProgramTree) : List StatementTree :=
  program.lines.filterMap Prod.fst ++ program.last.toList

/-- All statements are within their bounds. -/
def Within (limits : Limits) (program : ProgramTree) : Prop :=
  ∀ statement ∈ program.statements, statement.Within limits

/-- The instructions that a program stands for. -/
def meaning (program : ProgramTree) : List Instruction :=
  program.statements.map StatementTree.meaning

/-- A program behind a line. -/
def prepend (program : ProgramTree) (statement : Option StatementTree) (separator : Separator) :
    ProgramTree :=
  ⟨(statement, separator) :: program.lines, program.last⟩

@[simp]
theorem yield_prepend (statement : Option StatementTree) (separator : Separator)
    (program : ProgramTree) :
    (program.prepend statement separator).yield =
      optionalYield statement ++ separator.token :: program.yield := by
  simp [yield, prepend]

@[simp]
theorem statements_prepend_none (separator : Separator) (program : ProgramTree) :
    (program.prepend none separator).statements = program.statements := by
  simp [statements, prepend]

@[simp]
theorem statements_prepend_some (statement : StatementTree) (separator : Separator)
    (program : ProgramTree) :
    (program.prepend (some statement) separator).statements =
      statement :: program.statements := by
  simp [statements, prepend]

theorem inner_of_mem_optionalYield {statement : Option StatementTree} {token : Token}
    (inside : token ∈ optionalYield statement) :
    token.isSeparator = false ∧ token ≠ .endOfInput := by
  cases statement with
  | none => simp [optionalYield] at inside
  | some statement => exact StatementTree.inner_of_mem_yield inside

theorem optionalYield_injective : Function.Injective optionalYield := by
  intro statement statement' same
  cases statement with
  | none =>
      cases statement' with
      | none => rfl
      | some statement' =>
          rcases statement'.exists_yield_eq_name_cons with ⟨tokens, begins⟩
          simp [optionalYield, begins] at same
  | some statement =>
      cases statement' with
      | none =>
          rcases statement.exists_yield_eq_name_cons with ⟨tokens, begins⟩
          simp [optionalYield, begins] at same
      | some statement' => rw [StatementTree.yield_injective same]

/-- The first separator shows where the first statement ends. -/
theorem optionalYield_append_separator_inj {statement statement' : Option StatementTree}
    {separator separator' : Separator} {rest rest' : List Token}
    (same : optionalYield statement ++ separator.token :: rest =
      optionalYield statement' ++ separator'.token :: rest') :
    statement = statement' ∧ separator = separator' ∧ rest = rest' := by
  have inner : ∀ (statement : Option StatementTree), ∀ token ∈ optionalYield statement,
      !token.isSeparator := by
    intro statement token inside
    simp [(inner_of_mem_optionalYield inside).1]
  have taken := congrArg (List.takeWhile fun token => !token.isSeparator) same
  have dropped := congrArg (List.dropWhile fun token => !token.isSeparator) same
  rw [List.takeWhile_append_of_pos (inner _), List.takeWhile_append_of_pos (inner _)] at taken
  rw [List.dropWhile_append_of_pos (inner _), List.dropWhile_append_of_pos (inner _)] at dropped
  simp only [List.takeWhile_cons, List.dropWhile_cons, Separator.isSeparator_token,
    Bool.not_true, Bool.false_eq_true, if_false, List.append_nil, List.cons.injEq] at taken dropped
  exact ⟨optionalYield_injective taken, Separator.token_injective dropped.1, dropped.2⟩

/-- A statement without a separator is no line with one. -/
theorem optionalYield_ne_append_separator {statement statement' : Option StatementTree}
    {separator : Separator} {rest : List Token} :
    optionalYield statement ≠ optionalYield statement' ++ separator.token :: rest := by
  intro same
  have inside : separator.token ∈ optionalYield statement := by simp [same]
  simpa using (inner_of_mem_optionalYield inside).1

/-- The grammar is unambiguous. -/
theorem yield_injective : Function.Injective yield := by
  rintro ⟨lines, last⟩ ⟨lines', last'⟩ same
  induction lines generalizing lines' with
  | nil =>
      cases lines' with
      | nil =>
          simp only [yield, List.flatMap_nil, List.nil_append] at same
          rw [optionalYield_injective same]
      | cons line' following' =>
          simp only [yield, List.flatMap_nil, List.nil_append, List.flatMap_cons,
            List.append_assoc, List.cons_append] at same
          exact absurd same optionalYield_ne_append_separator
  | cons line following inductionHypothesis =>
      cases lines' with
      | nil =>
          simp only [yield, List.flatMap_nil, List.nil_append, List.flatMap_cons,
            List.append_assoc, List.cons_append] at same
          exact absurd same.symm optionalYield_ne_append_separator
      | cons line' following' =>
          simp only [yield, List.flatMap_cons, List.append_assoc, List.cons_append,
            List.nil_append] at same
          obtain ⟨sameStatement, sameSeparator, sameRest⟩ :=
            optionalYield_append_separator_inj same
          have sameFollowing := inductionHypothesis following' sameRest
          simp only [mk.injEq] at sameFollowing ⊢
          exact ⟨by rw [Prod.ext sameStatement sameSeparator, sameFollowing.1], sameFollowing.2⟩

/-- No end of input stands in a program. -/
theorem ne_endOfInput_of_mem_yield {program : ProgramTree} {token : Token}
    (inside : token ∈ program.yield) : token ≠ .endOfInput := by
  rcases List.mem_append.mp inside with inLines | inLast
  · rcases List.mem_flatMap.mp inLines with ⟨line, -, inLine⟩
    rcases List.mem_append.mp inLine with inStatement | isSeparator
    · exact (inner_of_mem_optionalYield inStatement).2
    · rw [List.mem_singleton.mp isSeparator]
      exact Token.ne_endOfInput_of_isSeparator line.2.isSeparator_token
  · exact (inner_of_mem_optionalYield inLast).2

end ProgramTree

end Sequencer
