import Sequencer.Corpus
import Sequencer.Proofs.Command.Printing
import Sequencer.Proofs.Compiler.Joining
import Sequencer.Proofs.Token.Comments

/-!
# Compiling synthetic command lists

Every line of a synthetic command list but the comments is a command or two, and its numbers are in
their ranges as long as the frequencies, which grow with the line, fit 32 bits. So a list of up to
4294969 lines is read and compiled, and its code is decoded to the instructions that its lines say
(`Corpus.compiles_text`). Every longer list fails at line 4294970 (`Corpus.compile_text_of_lt`).
-/

namespace Sequencer

open Sequencer.Text Scan

namespace Corpus

/-! ## Derivations of lines -/

/-- The derivation of the line with an index. -/
def tree (index : Nat) : ProgramTree :=
  match index % 8 with
  | 0 => ⟨[], some ⟨.ttl (index % 32) .zero, some (index % 100)⟩⟩
  | 1 => ⟨[], some ⟨.frequency (index % 22) (index * 1000), none⟩⟩
  | 2 => ⟨[], some ⟨.amplitude (index % 22) (index % 4096), none⟩⟩
  | 3 =>
      ⟨[(some ⟨.phase (index % 22) (index % 65536), none⟩, .semicolon)],
        some ⟨.wait (index % 50), none⟩⟩
  | 4 => ⟨[], some ⟨.dac (index % 4) (index % 65536), none⟩⟩
  | 5 => ⟨[], some ⟨.clock (index % 256), none⟩⟩
  | 6 => ⟨[], none⟩
  | _ => ⟨[], some ⟨.ttlAll index, none⟩⟩

/-- Up to the frequency of the line with index 4294969 all numbers are in their ranges. The last
frequency before it is that of the line with index 4294961. -/
theorem within_tree {index : Nat} (early : index < 4294969) : (tree index).Within {} := by
  fun_cases tree index <;>
    simp [ProgramTree.Within, ProgramTree.statements, StatementTree.Within, CommandTree.Within,
      StatementTree.duration, CommandTree.duration] <;>
    omega

/-- In a block of eight lines one holds two commands, and one is a comment. -/
theorem length_meaning_tree (index : Nat) :
    (tree index).meaning.length =
      if index % 8 = 3 then 2 else if index % 8 = 6 then 0 else 1 := by
  fun_cases tree index <;> simp_all [ProgramTree.meaning, ProgramTree.statements]

/-- A line that is no comment spells the tokens of its derivation. -/
theorem spells_line {index : Nat} (small : index < 2 ^ 32) (noComment : index % 8 ≠ 6)
    {rest : List Char} {tokens : List Token} (ends : EndsWords rest) (behind : Spells rest tokens) :
    Spells ((line index).toList ++ rest) ((tree index).yield ++ tokens) := by
  have fits : index < 2 ^ 64 := small.trans (by decide)
  have fitsMod (range : Nat) : index % range < 2 ^ 64 := (Nat.mod_le index range).trans_lt fits
  fun_cases line index <;>
    simp only [toString_string, Nat.toString_eq_ofList_toDigits, String.toList_append,
      String.toList_ofList, String.reduceToList, List.append_assoc, List.cons_append,
      List.nil_append]
  case case1 shape =>
    have low : index % 2 = 0 := by omega
    rw [tree, shape, low]
    apply spells_assignment 't' ['t', 'l'] rfl rfl (fitsMod 32)
    exact (spells_extra (fitsMod 100) ends behind).decimal (by decide) (EndsWords.cons rfl)
  case case2 shape =>
    have frequency : index * 1000 < 2 ^ 64 := by omega
    rw [tree, shape]
    apply spells_assignment 'f' ['r', 'e', 'q'] rfl rfl (fitsMod 22)
    exact behind.decimal frequency ends
  case case3 shape =>
    rw [tree, shape]
    apply spells_assignment 'a' ['m', 'p'] rfl rfl (fitsMod 22)
    exact behind.decimal (fitsMod 4096) ends
  case case4 shape =>
    rw [tree, shape]
    apply spells_assignment 'p' ['h', 'a', 's', 'e'] rfl rfl (fitsMod 22)
    apply Spells.decimal (fitsMod 65536) (EndsWords.cons rfl)
    apply Spells.semicolon
    apply Spells.blank
    exact spells_call 'w' ['a', 'i', 't'] rfl rfl (fitsMod 50) behind
  case case5 shape =>
    rw [tree, shape]
    apply spells_assignment 'd' ['a', 'c'] rfl rfl (fitsMod 4)
    exact behind.decimal (fitsMod 65536) ends
  case case6 shape =>
    rw [tree, shape]
    exact spells_call 'c' ['l', 'o', 'c', 'k'] rfl rfl (fitsMod 256) behind
  case case7 shape => exact absurd shape noComment
  case case8 =>
    have shape : index % 8 = 7 := by grind
    rw [tree, shape]
    apply Spells.word 't' ['t', 'l'] rfl rfl (EndsWords.cons rfl)
    apply Spells.blank
    apply Spells.equals
    apply Spells.blank
    exact behind.hexadecimal (by decide) fits ends

theorem lineFeed_notMem_line (index : Nat) : '\n' ∉ (line index).toList := by
  have digits {radix : Nat} (large : 1 < radix) (small : radix ≤ 16) (number : Nat) :
      '\n' ∉ Nat.toDigits radix number := by
    intro inside
    cases (Token.Literal.isWordPart_of_mem_toDigits large small inside).1
  have decimal (number : Nat) : '\n' ∉ Nat.toDigits 10 number := digits (by decide) (by decide) _
  have hexadecimal (number : Nat) : '\n' ∉ (lowerHex 1 number).toList := by
    rw [toList_lowerHex, List.mem_append, not_or]
    exact ⟨by simp, digits (by decide) (by decide) number⟩
  fun_cases line index <;> simp [toString_string, decimal, hexadecimal]

/-- The tokens of a line are those of its derivation, and a comment has none. -/
theorem tokens_line {index : Nat} (small : index < 2 ^ 32) :
    (Scan.ofText (line index).toList).tokens = .ok (tree index).yield := by
  by_cases shape : index % 8 = 6
  · obtain ⟨comment, begins⟩ : ∃ comment, (line index).toList = '#' :: comment := by
      rw [line, shape]
      simp [toString_string]
    have single := lineFeed_notMem_line index
    rw [begins, List.mem_cons, not_or] at single
    have passed : (Scan.ofText (line index).toList).items = (Scan.ofText []).items :=
      begins ▸ items_append_comment single.2 []
    have yieldsNothing : (tree index).yield = [] := by
      rw [tree, shape]
      rfl
    rw [tokens, passed, yieldsNothing]
    exact Spells.nothing.tokens_ofText
  · have ends : EndsWords [] := by rintro _ ⟨⟩
    have spelled := spells_line small shape ends .nothing
    rw [List.append_nil, List.append_nil] at spelled
    exact spelled.tokens_ofText

/-- A line alone is read as its derivation means. -/
theorem exists_reads_line {index : Nat} (early : index < 4294969) :
    ∃ passed tokens, Program.Reads {} (line index).toList passed [] tokens
      (.ok (tree index).meaning) := by
  have small : index < 2 ^ 32 := early.trans (by decide)
  obtain ⟨statements, read, means⟩ :=
    Program.ofText_eq_ok_iff.mpr ⟨tree index, tokens_line small, within_tree early, rfl⟩
  rw [← means]
  exact Program.exists_reads_of_eq_ok read

/-! ## Lists -/

theorem toList_text_succ (lines : Nat) :
    (text (lines + 1)).toList = (text lines).toList ++ ((line lines).toList ++ ['\n']) := by
  simp [text, List.range_succ, String.join]

/-- The instructions that a number of lines say. -/
def instructions (lines : Nat) : List Instruction :=
  (List.range lines).flatMap fun index => (tree index).meaning

theorem instructions_succ (lines : Nat) :
    instructions (lines + 1) = instructions lines ++ (tree lines).meaning := by
  simp [instructions, List.range_succ]

theorem length_instructions (lines : Nat) :
    (instructions lines).length = lines + (lines + 4) / 8 - (lines + 1) / 8 := by
  induction lines with
  | zero => rfl
  | succ lines inductionHypothesis =>
      rw [instructions_succ, List.length_append, inductionHypothesis, length_meaning_tree]
      split_ifs <;> omega

/-- What is read behind a number of lines is put behind the instructions of these lines. -/
theorem exists_reads_text_append {lines : Nat} (few : lines ≤ 4294969) {rest : List Char}
    {passed : List Item} {tokens : List Token} {others : List Instruction}
    (reads : Program.Reads {} rest passed [] tokens (.ok others)) :
    ∃ passed tokens, Program.Reads {} ((text lines).toList ++ rest) passed [] tokens
      (.ok (instructions lines ++ others)) := by
  -- The last line is put to what stands behind it, since its line feed is what joins the two.
  induction lines generalizing rest passed tokens others with
  | zero => exact ⟨passed, tokens, reads⟩
  | succ lines inductionHypothesis =>
      obtain ⟨_, _, readsLine⟩ := exists_reads_line few
      obtain ⟨_, readsBehind, -⟩ := readsLine.append reads
      obtain ⟨passed, tokens, readsAll⟩ := inductionHypothesis (Nat.le_of_succ_le few) readsBehind
      rw [toList_text_succ, instructions_succ, List.append_assoc, List.append_assoc,
        List.append_assoc]
      exact ⟨passed, tokens, readsAll⟩

/-- A list of up to 4294969 lines is read as the instructions that its lines say. It is compiled,
and its code is decoded to these instructions. There is one for every line, but two for the fourth
line of every eight and none for the seventh. -/
theorem compiles_text {lines : Nat} (few : lines ≤ 4294969) :
    ∃ statements compiled decoded,
      Program.ofText {} (text lines).toList = .ok statements ∧
      statements.map Statement.toInstruction = instructions lines ∧
      statements.length = lines + (lines + 4) / 8 - (lines + 1) / 8 ∧
      compile {} (text lines).toList = .ok compiled ∧
      Decoded.ofCode compiled.code = ⟨decoded, none⟩ ∧
      decoded.map PlacedInstruction.toInstruction = instructions lines ∧
      decoded.length = lines + (lines + 4) / 8 - (lines + 1) / 8 := by
  have nothing : Program.ofText {} [] = .ok [] := by decide +kernel
  obtain ⟨_, _, readsNothing⟩ := Program.exists_reads_of_eq_ok nothing
  obtain ⟨_, _, reads⟩ := exists_reads_text_append few readsNothing
  rw [List.append_nil, List.map_nil, List.append_nil] at reads
  obtain ⟨statements, read, means⟩ := reads.exists_statements
  have inRange := Program.inRange_of_ofText read
  rw [means] at inRange
  have sameInstructions := Program.map_toInstruction_place 0 (instructions lines)
  refine ⟨statements, Program.compile (instructions lines), Program.place 0 (instructions lines),
    read, means, ?_, (compile_eq_ok_of_reads reads).1, Program.ofCode_encode inRange,
    sameInstructions, ?_⟩
  · rw [← length_instructions, ← means, List.length_map]
  · rw [← length_instructions, ← congrArg List.length sameInstructions, List.length_map]

/-- A block of eight lines and the first half of another. -/
theorem compiles_text_twelve_lines :
    12 ≤ 4294969 ∧
    text 12 =
      "ttl(0) = 0 t=0\nfreq(1) = 1000\namp(2) = 2\nphase(3) = 3; wait(3)\n" ++
      "dac(0) = 4\nclock(5)\n# step 6\nttl = 0x7\n" ++
      "ttl(8) = 0 t=8\nfreq(9) = 9000\namp(10) = 10\nphase(11) = 11; wait(11)\n" ∧
    ∃ statements compiled decoded,
      Program.ofText {} (text 12).toList = .ok statements ∧
      statements.length = 13 ∧
      compile {} (text 12).toList = .ok compiled ∧
      Decoded.ofCode compiled.code = ⟨decoded, none⟩ ∧
      decoded.length = 13 := by
  obtain ⟨statements, compiled, decoded, read, -, size, done, decodes, -, size'⟩ :=
    compiles_text (by decide : 12 ≤ 4294969)
  exact ⟨by decide, by decide +kernel, statements, compiled, decoded, read, size, done, decodes,
    size'⟩

/-! ## Longer lists -/

theorem compile_line {index : Nat} (early : index < 4294969) :
    compile {} (line index).toList = .ok (Program.compile (tree index).meaning) := by
  obtain ⟨_, _, reads⟩ := exists_reads_line early
  exact (compile_eq_ok_of_reads reads).1

/-- An error behind a number of lines is shown as many lines further down. -/
theorem compile_text_append_of_error {lines : Nat} (few : lines ≤ 4294969) {rest : List Char}
    {diagnostic : Diagnostic} (failed : compile {} rest = .error diagnostic) :
    compile {} ((text lines).toList ++ rest) =
      .error { diagnostic with lineNumber := diagnostic.lineNumber + lines } := by
  induction lines generalizing rest diagnostic with
  | zero => exact failed
  | succ lines inductionHypothesis =>
      have behind := compile_append_of_ok_of_error (compile_line few) failed
      rw [List.count_eq_zero.mpr (lineFeed_notMem_line lines)] at behind
      have shown := inductionHypothesis (Nat.le_of_succ_le few) behind
      rw [toList_text_succ, List.append_assoc, List.append_assoc]
      simpa [Nat.add_assoc, Nat.add_comm lines] using shown

/-- A longer list goes on behind a shorter one. -/
theorem isPrefix_text {lines lines' : Nat} (fewer : lines ≤ lines') :
    (text lines).toList <+: (text lines').toList := by
  induction lines', fewer using Nat.le_induction with
  | base => exact List.prefix_rfl
  | succ lines' _ inductionHypothesis =>
      rw [toList_text_succ]
      exact inductionHypothesis.trans (List.prefix_append ..)

/-- The first frequency that does not fit 32 bits. -/
theorem compile_line_of_largeFrequency :
    compile {} (line 4294969).toList =
      .error { message := "frequency 4294969000 out of range (0..=4294967295)"
               line := "freq(19) = 4294969000"
               lineNumber := 1, column := 12, rangeStart := 12, rangeStop := 21 } := by
  decide +kernel

/-- A list of more than 4294969 lines fails at the first frequency that does not fit 32 bits. -/
theorem compile_text_of_lt {lines : Nat} (many : 4294969 < lines) :
    compile {} (text lines).toList =
      .error { message := "frequency 4294969000 out of range (0..=4294967295)"
               line := "freq(19) = 4294969000"
               lineNumber := 4294970, column := 12, rangeStart := 12, rangeStop := 21 } := by
  obtain ⟨rest, parts⟩ := isPrefix_text (Nat.succ_le_of_lt many)
  rw [Nat.succ_eq_add_one, toList_text_succ, List.append_assoc, List.append_assoc] at parts
  obtain ⟨message, failed, -, same⟩ := compile_append_of_error compile_line_of_largeFrequency rest
  have noEndOfInput (beginning : String) :
      "frequency 4294969000 out of range (0..=4294967295)" ≠ beginning ++ "end of input" := by
    intro equal
    have last := congrArg (fun message => message.toList.getLast?) equal
    simp at last
  obtain rfl := same noEndOfInput
  rw [← parts]
  exact compile_text_append_of_error le_rfl failed

end Corpus

end Sequencer
