import Sequencer.Compiler
import Sequencer.Proofs.Token.Spelling

/-!
# Printing instructions

Instructions are printed one after the other with line feeds or semicolons between them
(`Program.text`). If their channels and amplitudes are within the limits, what is printed is read
as the same instructions, so it is compiled to the code and the mask of these instructions
(`Program.ofText_text`).
-/

namespace Sequencer

open Scan

/-! ## Derivations of printed instructions -/

/-- The channel of a command is there, and its amplitude is in its range. -/
def Command.Within (limits : Limits) : Command → Prop
  | .ttlAll _ => True
  | .ttl channel _ => channel.toNat < Device.ttl.count limits
  | .wait => True
  | .clock _ => True
  | .frequency channel _ => channel.toNat < Device.dds.count limits
  | .amplitude channel value =>
      channel.toNat < Device.dds.count limits ∧ value.toNat ≤ Quantity.amplitude.maximum
  | .phase channel _ => channel.toNat < Device.dds.count limits
  | .dac channel _ => channel.toNat < Device.dac.count limits

/-- The derivation of an instruction as it is printed. -/
def Instruction.tree : Instruction → StatementTree
  | ⟨.ttlAll levels, wait⟩ => ⟨.ttlAll levels.toNat, some wait.toNat⟩
  | ⟨.ttl channel on, wait⟩ =>
      ⟨.ttl channel.toNat (if on then .on else .off), some wait.toNat⟩
  | ⟨.wait, wait⟩ => ⟨.wait wait.toNat, none⟩
  | ⟨.clock period, wait⟩ => ⟨.clock period.toNat, some wait.toNat⟩
  | ⟨.frequency channel value, wait⟩ =>
      ⟨.frequency channel.toNat value.toNat, some wait.toNat⟩
  | ⟨.amplitude channel value, wait⟩ =>
      ⟨.amplitude channel.toNat value.toNat, some wait.toNat⟩
  | ⟨.phase channel value, wait⟩ => ⟨.phase channel.toNat value.toNat, some wait.toNat⟩
  | ⟨.dac channel value, wait⟩ => ⟨.dac channel.toNat value.toNat, some wait.toNat⟩

/-- A printed instruction waits as long as the instruction. -/
theorem Instruction.duration_tree (instruction : Instruction) :
    instruction.tree.duration = instruction.wait.toNat := by
  rcases instruction with ⟨command, wait⟩
  cases command <;> simp [tree, StatementTree.duration, CommandTree.duration]

theorem Instruction.meaning_tree (instruction : Instruction) :
    instruction.tree.meaning = instruction := by
  rw [StatementTree.meaning, duration_tree, UInt32.ofNat_toNat]
  rcases instruction with ⟨command, wait⟩
  cases command with
  | ttl channel on => cases on <;> simp [tree, CommandTree.meaning, LevelTree.meaning]
  | _ => simp [tree, CommandTree.meaning]

/-- All values but the amplitudes are bounded by the words that hold them. -/
theorem Instruction.within_tree_iff {limits : Limits} {instruction : Instruction} :
    instruction.tree.Within limits ↔ instruction.command.Within limits := by
  have duration : instruction.tree.duration ≤ 4294967295 := by
    rw [duration_tree]
    exact Nat.le_of_lt_succ instruction.wait.toNat_lt
  rw [StatementTree.Within, and_iff_left duration]
  rcases instruction with ⟨command, wait⟩
  cases command with
  | ttlAll levels => exact iff_of_true (Nat.le_of_lt_succ levels.toNat_lt) trivial
  | ttl channel on => exact Iff.rfl
  | wait => exact iff_of_true (Nat.le_of_lt_succ wait.toNat_lt) trivial
  | clock period => exact iff_of_true (Nat.le_of_lt_succ period.toNat_lt) trivial
  | frequency channel value => exact and_iff_left (Nat.le_of_lt_succ value.toNat_lt)
  | amplitude channel value => exact Iff.rfl
  | phase channel value => exact and_iff_left (Nat.le_of_lt_succ value.toNat_lt)
  | dac channel value => exact and_iff_left (Nat.le_of_lt_succ value.toNat_lt)

/-! ## Printed commands -/

section

variable {rest : List Char} {tokens : List Token}

theorem EndsWords.cons {c : Char} (other : isWordPart c = false) : EndsWords (c :: rest) := by
  rintro _ ⟨⟩
  exact other

/-- A name and an argument between parentheses. -/
theorem spells_call (first : Char) (more : List Char) (begins : isWordStart first = true)
    (goesOn : more.all isWordPart = true) {argument : Nat} (fits : argument < 2 ^ 64)
    (behind : Spells rest tokens) :
    Spells (first :: more ++ '(' :: (Nat.toDigits 10 argument ++ ')' :: rest))
      (CommandTree.call (String.ofList (first :: more)) argument ++ tokens) := by
  apply Spells.word first more begins goesOn (EndsWords.cons rfl)
  apply Spells.leftParen
  apply Spells.decimal fits (EndsWords.cons rfl)
  exact behind.rightParen

/-- A name and a channel that is set to a value. -/
theorem spells_assignment (first : Char) (more : List Char) (begins : isWordStart first = true)
    (goesOn : more.all isWordPart = true) {channel : Nat} (fits : channel < 2 ^ 64)
    {text : List Char} {value : Token} (behind : Spells text (value :: tokens)) :
    Spells
      (first :: more ++ '(' :: (Nat.toDigits 10 channel ++ ')' :: ' ' :: '=' :: ' ' :: text))
      (CommandTree.assignment (String.ofList (first :: more)) channel value ++ tokens) :=
  spells_call first more begins goesOn fits behind.blank.equals.blank

/-- The wait behind a command. -/
theorem spells_extra {wait : Nat} (fits : wait < 2 ^ 64) (ends : EndsWords rest)
    (behind : Spells rest tokens) :
    Spells (' ' :: 't' :: '=' :: (Nat.toDigits 10 wait ++ rest))
      (StatementTree.extraYield (some wait) ++ tokens) := by
  apply Spells.blank
  apply Spells.word 't' [] rfl rfl (EndsWords.cons rfl)
  apply Spells.equals
  exact behind.decimal fits ends

/-! ### Numbers and names in a printed text -/

theorem toString_string (text : String) : toString text = text :=
  rfl

theorem toString_uint8 (value : UInt8) :
    toString value = String.ofList (Nat.toDigits 10 value.toNat) :=
  Nat.toString_eq_ofList_toDigits

theorem toString_uint16 (value : UInt16) :
    toString value = String.ofList (Nat.toDigits 10 value.toNat) :=
  Nat.toString_eq_ofList_toDigits

theorem toString_uint32 (value : UInt32) :
    toString value = String.ofList (Nat.toDigits 10 value.toNat) :=
  Nat.toString_eq_ofList_toDigits

/-- A printed instruction spells the tokens of its derivation. -/
theorem Instruction.spells_text (instruction : Instruction) (ends : EndsWords rest)
    (behind : Spells rest tokens) :
    Spells (instruction.text.toList ++ rest) (instruction.tree.yield ++ tokens) := by
  have fits8 (value : UInt8) : value.toNat < 2 ^ 64 := value.toNat_lt.trans (by decide)
  have fits16 (value : UInt16) : value.toNat < 2 ^ 64 := value.toNat_lt.trans (by decide)
  have fits32 (value : UInt32) : value.toNat < 2 ^ 64 := value.toNat_lt.trans (by decide)
  rcases instruction with ⟨command, wait⟩
  have extra := spells_extra (fits32 wait) ends behind
  cases command <;>
    simp only [text, Command.text, toString_string, toString_uint8, toString_uint16,
      toString_uint32, String.toList_append, String.toList_ofList, String.reduceToList,
      List.append_assoc, List.cons_append, List.nil_append]
  case ttlAll levels =>
    apply Spells.word 't' ['t', 'l'] rfl rfl (EndsWords.cons rfl)
    apply Spells.blank
    apply Spells.equals
    apply Spells.blank
    exact extra.hexadecimal (by decide) (fits32 levels) (EndsWords.cons rfl)
  case ttl channel on =>
    apply spells_assignment 't' ['t', 'l'] rfl rfl (fits8 channel)
    cases on with
    | false => exact .word 'o' ['f', 'f'] rfl rfl (EndsWords.cons rfl) extra
    | true => exact .word 'o' ['n'] rfl rfl (EndsWords.cons rfl) extra
  case wait => exact spells_call 'w' ['a', 'i', 't'] rfl rfl (fits32 wait) behind
  case clock period =>
    exact spells_call 'c' ['l', 'o', 'c', 'k'] rfl rfl (fits8 period) extra
  case frequency channel value =>
    apply spells_assignment 'f' ['r', 'e', 'q'] rfl rfl (fits8 channel)
    exact extra.decimal (fits32 value) (EndsWords.cons rfl)
  case amplitude channel value =>
    apply spells_assignment 'a' ['m', 'p'] rfl rfl (fits8 channel)
    exact extra.decimal (fits16 value) (EndsWords.cons rfl)
  case phase channel value =>
    apply spells_assignment 'p' ['h', 'a', 's', 'e'] rfl rfl (fits8 channel)
    exact extra.decimal (fits16 value) (EndsWords.cons rfl)
  case dac channel value =>
    apply spells_assignment 'd' ['a', 'c'] rfl rfl (fits8 channel)
    exact extra.decimal (fits16 value) (EndsWords.cons rfl)

end

/-! ## Printed programs -/

/-- The character of a separator. -/
def Separator.char : Separator → Char
  | .lineEnd => '\n'
  | .semicolon => ';'

theorem Separator.endsWords (separator : Separator) (rest : List Char) :
    EndsWords (separator.char :: rest) := by
  cases separator <;> exact EndsWords.cons rfl

theorem Separator.spells (separator : Separator) {rest : List Char} {tokens : List Token}
    (behind : Spells rest tokens) :
    Spells (separator.char :: rest) (separator.token :: tokens) := by
  cases separator with
  | lineEnd => exact behind.lineEnd
  | semicolon => exact behind.semicolon

namespace Program

/-- Instructions in their order, with separators between them. The first separator stands behind
the first instruction. -/
def text (separators : Nat → Separator) : List Instruction → List Char
  | [] => []
  | [last] => last.text.toList
  | first :: next :: others =>
      first.text.toList ++
        (separators 0).char :: text (fun index => separators (index + 1)) (next :: others)

/-- With the same separator everywhere, instructions are joined by it. -/
theorem text_eq_intercalate (separator : Separator) (instructions : List Instruction) :
    text (fun _ => separator) instructions =
      [separator.char].intercalate (instructions.map (·.text.toList)) := by
  induction instructions with
  | nil => rfl
  | cons first others inductionHypothesis =>
      cases others with
      | nil => simp [text]
      | cons next others => simp_all [text]

/-- The derivation of instructions as they are printed. -/
def tree (separators : Nat → Separator) : List Instruction → ProgramTree
  | [] => ⟨[], none⟩
  | [last] => ⟨[], some last.tree⟩
  | first :: next :: others =>
      (tree (fun index => separators (index + 1)) (next :: others)).prepend (some first.tree)
        (separators 0)

theorem statements_tree (separators : Nat → Separator) (instructions : List Instruction) :
    (tree separators instructions).statements = instructions.map Instruction.tree := by
  fun_induction tree separators instructions with
  | case1 => rfl
  | case2 => rfl
  | case3 separators first next others inductionHypothesis =>
      rw [ProgramTree.statements_prepend_some, inductionHypothesis]
      rfl

/-- A printed program spells the tokens of its derivation. -/
theorem spells_text (separators : Nat → Separator) (instructions : List Instruction) :
    Spells (text separators instructions) (tree separators instructions).yield := by
  fun_induction text separators instructions with
  | case1 => exact .nothing
  | case2 separators last =>
      have spells : Spells (last.text.toList ++ []) (last.tree.yield ++ []) :=
        last.spells_text nofun .nothing
      rwa [List.append_nil, List.append_nil] at spells
  | case3 separators first next others inductionHypothesis =>
      rw [tree, ProgramTree.yield_prepend]
      exact first.spells_text (Separator.endsWords _ _) (Separator.spells _ inductionHypothesis)

theorem meaning_tree (separators : Nat → Separator) (instructions : List Instruction) :
    (tree separators instructions).meaning = instructions := by
  rw [ProgramTree.meaning, statements_tree, List.map_map]
  simp [Function.comp_def, Instruction.meaning_tree]

theorem within_tree_iff {limits : Limits} {separators : Nat → Separator}
    {instructions : List Instruction} :
    (tree separators instructions).Within limits ↔
      ∀ instruction ∈ instructions, instruction.command.Within limits := by
  rw [ProgramTree.Within, statements_tree, List.forall_mem_map]
  exact forall₂_congr fun instruction _ => Instruction.within_tree_iff

/-- Printed instructions are read again, and compiled as if they had never been printed. -/
theorem ofText_text {limits : Limits} {instructions : List Instruction}
    (within : ∀ instruction ∈ instructions, instruction.command.Within limits)
    (separators : Nat → Separator) :
    (∃ statements, ofText limits (text separators instructions) = .ok statements ∧
        statements.map Statement.toInstruction = instructions) ∧
      Sequencer.compile limits (text separators instructions) =
        .ok ⟨encode instructions, ttlMask instructions⟩ := by
  have read : ∃ statements, ofText limits (text separators instructions) = .ok statements ∧
      statements.map Statement.toInstruction = instructions := by
    rw [ofText_eq_ok_iff]
    exact ⟨tree separators instructions, (spells_text separators instructions).tokens_ofText,
      within_tree_iff.mpr within, meaning_tree separators instructions⟩
  apply And.intro read
  obtain ⟨statements, answer, same⟩ := read
  rw [Sequencer.compile, answer]
  exact congrArg (fun read => Except.ok (compile read)) same

/-- A line feed, and then semicolons. -/
theorem ofText_text_mixed :
    (∀ instruction ∈
        ([⟨.ttl 31 true, 5⟩, ⟨.wait, 3⟩, ⟨.ttlAll 48879, 0⟩, ⟨.amplitude 21 4095, 1⟩] :
          List Instruction),
      instruction.command.Within {}) ∧
    (∃ statements,
      ofText {} "ttl(31) = on t=5\nwait(3);ttl = 0x0000beef t=0;amp(21) = 4095 t=1".toList =
          .ok statements ∧
        statements.map Statement.toInstruction =
          [⟨.ttl 31 true, 5⟩, ⟨.wait, 3⟩, ⟨.ttlAll 48879, 0⟩, ⟨.amplitude 21 4095, 1⟩]) ∧
    Sequencer.compile {}
        "ttl(31) = on t=5\nwait(3);ttl = 0x0000beef t=0;amp(21) = 4095 t=1".toList =
      .ok ⟨encode [⟨.ttl 31 true, 5⟩, ⟨.wait, 3⟩, ⟨.ttlAll 48879, 0⟩, ⟨.amplitude 21 4095, 1⟩],
        0xFFFFFFFF⟩ := by
  have printed : text (fun index => if index = 0 then .lineEnd else .semicolon)
      [⟨.ttl 31 true, 5⟩, ⟨.wait, 3⟩, ⟨.ttlAll 48879, 0⟩, ⟨.amplitude 21 4095, 1⟩] =
        "ttl(31) = on t=5\nwait(3);ttl = 0x0000beef t=0;amp(21) = 4095 t=1".toList := by
    decide +kernel
  have within : ∀ instruction ∈
      ([⟨.ttl 31 true, 5⟩, ⟨.wait, 3⟩, ⟨.ttlAll 48879, 0⟩, ⟨.amplitude 21 4095, 1⟩] :
        List Instruction),
      instruction.command.Within {} := by
    simp [Command.Within, Device.count, Quantity.maximum]
  apply And.intro within
  rw [← printed]
  exact ofText_text within _

end Program

end Sequencer
