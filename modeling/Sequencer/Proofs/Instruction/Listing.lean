import Sequencer.Instruction.Listing
import Sequencer.Proofs.Command.Printing
import Sequencer.Proofs.Frame.RoundTrip
import Sequencer.Proofs.Instruction.Totals
import Sequencer.Proofs.Text.Lacking

/-!
# What a listing shows

A listing is a table. Each instruction has a row with four columns, which bars divide, and the total
stands in a row of its own behind them (`Listing.table_eq`). Clock steps and nanoseconds are shown
modulo `2 ^ 64`; the instruction itself is shown in the last column, and nothing of it is lost there
(`Instruction.cell_injective`). So code that is read without a fault can be told from its listing.
-/

namespace Sequencer

open Sequencer.Scan
open Sequencer.Text

/-! ## Rows -/

/-- A wait as a listing shows it. -/
def Instruction.waitText (wait : UInt32) : String :=
  if wait = 0 then "" else s!" ;; +{wait}"

/-- An instruction as the last column of a listing shows it. -/
def Instruction.cell (instruction : Instruction) : String :=
  padRight 7 ' ' instruction.opcode.mnemonic ++ " " ++ instruction.command.operandText ++
    waitText instruction.wait

/-- The columns of an instruction with a number of clock steps in front of it. -/
def PlacedInstruction.row (earlier : Nat) (placed : PlacedInstruction) : List String :=
  [lowerHex 4 placed.offset ++ " ",
    " " ++ padLeft 10 ' ' (toString (earlier % 2 ^ 64)) ++ " ",
    " " ++ padLeft 12 ' ' (toString (10 * earlier % 2 ^ 64)) ++ " ns ",
    " " ++ placed.cell]

namespace Listing

/-- The fields of a text, which bars divide in each of its lines. -/
def table (text : String) : List (List String) :=
  (text.toList.splitOn '\n').map fun line => (line.splitOn '|').map String.ofList

/-- The clock steps of instructions. -/
def stepSum (instructions : List PlacedInstruction) : Nat :=
  (instructions.map (·.steps)).sum

@[simp]
theorem stepSum_nil : stepSum [] = 0 :=
  rfl

@[simp]
theorem stepSum_cons (placed : PlacedInstruction) (rest : List PlacedInstruction) :
    stepSum (placed :: rest) = placed.steps + stepSum rest := by
  rw [stepSum, List.map_cons, List.sum_cons, stepSum]

/-- The rows of instructions with a number of clock steps in front of the first of them. -/
def rows (earlier : Nat) (instructions : List PlacedInstruction) : List (List String) :=
  instructions.mapIdx fun index placed => placed.row (earlier + stepSum (instructions.take index))

theorem rows_cons (earlier : Nat) (placed : PlacedInstruction) (rest : List PlacedInstruction) :
    rows earlier (placed :: rest) = placed.row earlier :: rows (earlier + placed.steps) rest := by
  simp [rows, List.mapIdx_cons, Nat.add_assoc]

/-- The row that closes a table. -/
def totalRow (steps : Nat) : List String :=
  [s!";; total: {steps % 2 ^ 64} steps, {10 * steps % 2 ^ 64} ns"]

/-! ## Texts without bars and line feeds -/

/-- A text may stand in a field. -/
def IsField (text : String) : Prop :=
  Lacks '|' text ∧ Lacks '\n' text

theorem isField_ofList {text : List Char} (plain : '|' ∉ text ∧ '\n' ∉ text) :
    IsField (String.ofList text) :=
  ⟨lacks_ofList plain.1, lacks_ofList plain.2⟩

theorem IsField.append {first second : String} (field : IsField first) (field' : IsField second) :
    IsField (first ++ second) :=
  ⟨field.1.append field'.1, field.2.append field'.2⟩

theorem isField_number (number : Nat) : IsField (toString number) :=
  ⟨lacks_number rfl number, lacks_number rfl number⟩

theorem isField_lowerHex (width number : Nat) : IsField (lowerHex width number) :=
  ⟨lacks_lowerHex rfl width number, lacks_lowerHex rfl width number⟩

theorem isField_operandText (command : Command) : IsField command.operandText := by
  cases command with
  | wait => exact isField_ofList (by decide)
  | ttlAll levels =>
      have mark : IsField "0x" := isField_ofList (by decide)
      exact mark.append (isField_lowerHex 8 _)
  | clock period => exact isField_number period.toNat
  | ttl channel on =>
      have comma : IsField ", " := isField_ofList (by decide)
      have level : IsField (if on then "1" else "0") := by
        cases on <;> exact isField_ofList (by decide)
      exact ((isField_number channel.toNat).append comma).append level
  | frequency channel value | amplitude channel value | phase channel value | dac channel value =>
      have comma : IsField ", " := isField_ofList (by decide)
      exact ((isField_number channel.toNat).append comma).append (isField_number value.toNat)

theorem isField_cell (instruction : Instruction) : IsField instruction.cell := by
  have mnemonic : IsField instruction.opcode.mnemonic := by
    cases instruction.opcode <;> exact isField_ofList (by decide)
  have wait : IsField (Instruction.waitText instruction.wait) := by
    rw [Instruction.waitText]
    split
    · exact isField_ofList (by decide)
    · have mark : IsField " ;; +" := isField_ofList (by decide)
      exact mark.append (isField_number instruction.wait.toNat)
  have blank : IsField " " := isField_ofList (by decide)
  have padded : IsField (padRight 7 ' ' instruction.opcode.mnemonic) :=
    ⟨mnemonic.1.padRight (by decide) 7, mnemonic.2.padRight (by decide) 7⟩
  exact ((padded.append blank).append (isField_operandText _)).append wait

theorem isField_of_mem_row {earlier : Nat} {placed : PlacedInstruction} {text : String}
    (inside : text ∈ placed.row earlier) : IsField text := by
  have blank : IsField " " := isField_ofList (by decide)
  have unit : IsField " ns " := isField_ofList (by decide)
  have number (width count : Nat) : IsField (padLeft width ' ' (toString count)) :=
    ⟨(isField_number count).1.padLeft (by decide) width,
      (isField_number count).2.padLeft (by decide) width⟩
  simp only [PlacedInstruction.row, List.mem_cons, List.not_mem_nil, or_false] at inside
  rcases inside with rfl | rfl | rfl | rfl
  · exact (isField_lowerHex 4 _).append blank
  · exact (blank.append (number 10 _)).append blank
  · exact (blank.append (number 12 _)).append unit
  · exact blank.append (isField_cell _)

theorem isField_of_mem_totalRow {steps : Nat} {text : String} (inside : text ∈ totalRow steps) :
    IsField text := by
  have mark : IsField ";; total: " := isField_ofList (by decide)
  have unit : IsField " steps, " := isField_ofList (by decide)
  have unit' : IsField " ns" := isField_ofList (by decide)
  rw [List.mem_singleton.mp inside]
  exact (((mark.append (isField_number _)).append unit).append (isField_number _)).append unit'

/-! ## The table of a listing -/

/-- The characters of a row. -/
def rowText (row : List String) : List Char :=
  ['|'].intercalate (row.map String.toList)

theorem toString_uint64 (value : UInt64) : toString value = toString value.toNat :=
  rfl

theorem toNat_ofNat (steps : Nat) : (UInt64.ofNat steps).toNat = steps % 2 ^ 64 :=
  UInt64.toNat_ofNat'

theorem toList_listingLine (placed : PlacedInstruction) (earlier : Nat) :
    (placed.listingLine (UInt64.ofNat earlier)).toList =
      rowText (placed.row earlier) ++ ['\n'] := by
  rw [PlacedInstruction.listingLine, toString_uint64, toString_uint64, toNat_ofNat,
    toNat_nanoseconds_ofNat]
  simp [rowText, PlacedInstruction.row, Instruction.cell, Instruction.waitText, List.intercalate]

theorem toList_totalLine (steps : Nat) :
    (totalLine (UInt64.ofNat steps)).toList = rowText (totalRow steps) ++ ['\n'] := by
  rw [totalLine, toString_uint64, toString_uint64, toNat_ofNat, toNat_nanoseconds_ofNat]
  simp [rowText, totalRow, List.intercalate, toString_string]

/-- Lines start at the sums of the steps in front of them, and the steps behind the last of them are
the steps of all. -/
theorem linesFrom_ofNat (earlier : Nat) (instructions : List PlacedInstruction) :
    (linesFrom (UInt64.ofNat earlier) instructions).1.map String.toList =
        (rows earlier instructions).map (rowText · ++ ['\n']) ∧
      (linesFrom (UInt64.ofNat earlier) instructions).2 =
        UInt64.ofNat (earlier + stepSum instructions) := by
  induction instructions generalizing earlier with
  | nil => exact ⟨rfl, rfl⟩
  | cons placed rest inductionHypothesis =>
      rcases inductionHypothesis (earlier + placed.steps) with ⟨lines, steps⟩
      rw [linesFrom, ← UInt64.ofNat_add, rows_cons, stepSum_cons, ← Nat.add_assoc]
      constructor
      · rw [List.map_cons, List.map_cons, toList_listingLine, lines]
      · exact steps

theorem notMem_rowText {row : List String} (fields : ∀ text ∈ row, IsField text) :
    '\n' ∉ rowText row := by
  cases row with
  | nil => exact List.not_mem_nil
  | cons first rest =>
      induction rest generalizing first with
      | nil => simpa [rowText, Lacks] using (fields first List.mem_cons_self).2
      | cons second rest inductionHypothesis =>
          rw [List.forall_mem_cons] at fields
          rw [rowText, List.map_cons, List.map_cons, List.intercalate_cons_cons,
            List.append_assoc, List.mem_append, not_or]
          have following := inductionHypothesis second fields.2
          exact ⟨fields.1.2, by simpa [rowText] using following⟩

/-- Bars divide the fields of a row. -/
theorem splitOn_rowText {row : List String} (filled : row ≠ [])
    (fields : ∀ text ∈ row, IsField text) :
    ((rowText row).splitOn '|').map String.ofList = row := by
  rw [rowText, List.splitOn_intercalate, List.map_map]
  · simp
  · intro field inside
    rcases List.mem_map.mp inside with ⟨text, within, rfl⟩
    exact (fields text within).1
  · simpa using filled

/-- Line feeds divide lines that end with them, and leave nothing behind the last of them. -/
theorem intercalate_lines (lines : List (List Char)) :
    ['\n'].intercalate (lines ++ [[]]) = (lines.map (· ++ ['\n'])).flatten := by
  induction lines with
  | nil => rfl
  | cons line rest inductionHypothesis =>
      rw [List.cons_append, List.intercalate_cons_of_ne_nil (by simp), inductionHypothesis,
        List.map_cons, List.flatten_cons]

/-- Rows that are written one behind the other can be told again. -/
theorem table_of_toList {text : String} {rows : List (List String)}
    (written : text.toList = (rows.map (rowText · ++ ['\n'])).flatten)
    (filled : ∀ row ∈ rows, row ≠ [] ∧ ∀ text ∈ row, IsField text) :
    table text = rows ++ [[""]] := by
  have lines : text.toList = ['\n'].intercalate (rows.map rowText ++ [[]]) := by
    rw [written, intercalate_lines, List.map_map]
    rfl
  have divided : rows.map ((fun line => (line.splitOn '|').map String.ofList) ∘ rowText) =
      rows.map id := by
    apply List.map_congr_left
    intro row inside
    exact splitOn_rowText (filled row inside).1 (filled row inside).2
  rw [table, lines, List.splitOn_intercalate, List.map_append, List.map_map, divided, List.map_id]
  · rfl
  · intro line inside
    rcases List.mem_append.mp inside with within | last
    · rcases List.mem_map.mp within with ⟨row, among, rfl⟩
      exact notMem_rowText (filled row among).2
    · rw [List.mem_singleton.mp last]
      exact List.not_mem_nil
  · simp

theorem ofCode_eq_ok_iff {code : List UInt8} {text : String} :
    ofCode code = .ok text ↔ (Decoded.ofCode code).fault = none ∧
      text = String.join (linesFrom 0 (Decoded.ofCode code).instructions).1 ++
        totalLine (linesFrom 0 (Decoded.ofCode code).instructions).2 := by
  rw [ofCode]
  cases found : (Decoded.ofCode code).fault with
  | some fault => simp
  | none => simp [eq_comm]

/-- A listing has a row for each instruction and one for the total. -/
theorem table_eq {code : List UInt8} {text : String} (listed : ofCode code = .ok text) :
    table text =
      rows 0 (Decoded.ofCode code).instructions ++
        [totalRow (stepSum (Decoded.ofCode code).instructions), [""]] := by
  rcases ofCode_eq_ok_iff.mp listed with ⟨-, rfl⟩
  have zero : UInt64.ofNat 0 = 0 := rfl
  rcases linesFrom_ofNat 0 (Decoded.ofCode code).instructions with ⟨lines, steps⟩
  rw [zero] at lines steps
  rw [Nat.zero_add] at steps
  rw [← List.singleton_append, ← List.append_assoc]
  apply table_of_toList
  · rw [String.toList_append, String.toList_join, List.flatMap, lines, steps, toList_totalLine]
    simp
  · intro row inside
    rcases List.mem_append.mp inside with within | last
    · rcases List.mem_mapIdx.mp within with ⟨index, small, rfl⟩
      exact ⟨List.cons_ne_nil _ _, fun _ => isField_of_mem_row⟩
    · rw [List.mem_singleton.mp last]
      exact ⟨List.cons_ne_nil _ _, fun _ => isField_of_mem_totalRow⟩

end Listing

/-! ## Nothing is lost -/

section

variable {first second : List Char}

/-- A run of letters and digits ends where no letter or digit follows. -/
theorem append_inj_of_endsWords {run run' : List Char} (part : run.all isWordPart = true)
    (part' : run'.all isWordPart = true) (ends : EndsWords first) (ends' : EndsWords second)
    (same : run ++ first = run' ++ second) : run = run' ∧ first = second := by
  have taken := takeWhile_isWordPart_of_endsWords part ends
  have taken' := takeWhile_isWordPart_of_endsWords part' ends'
  rw [same] at taken
  exact ⟨taken.1.symm.trans taken'.1, taken.2.symm.trans taken'.2⟩

theorem all_isWordPart_digits {radix : Nat} (large : 1 < radix) (small : radix ≤ 16)
    (zeros number : Nat) :
    (List.replicate zeros '0' ++ Nat.toDigits radix number).all isWordPart = true := by
  rw [List.all_eq_true]
  intro c inside
  rcases List.mem_append.mp inside with zero | digit
  · rw [List.eq_of_mem_replicate zero]
    rfl
  · exact (Token.Literal.isWordPart_of_mem_toDigits large small digit).1

/-- Digits of a number, with zeros in front of them, stand for no other number. -/
theorem digits_append_inj {radix : Nat} (large : 1 < radix) (small : radix ≤ 16)
    {zeros zeros' number number' : Nat} (ends : EndsWords first) (ends' : EndsWords second)
    (same : List.replicate zeros '0' ++ Nat.toDigits radix number ++ first =
      List.replicate zeros' '0' ++ Nat.toDigits radix number' ++ second) :
    number = number' ∧ first = second := by
  have parts := append_inj_of_endsWords (all_isWordPart_digits large small zeros number)
    (all_isWordPart_digits large small zeros' number') ends ends' same
  have value := congrArg (Token.Literal.positional radix) parts.1
  rw [Token.Literal.positional_zeros, Token.Literal.positional_zeros,
    Token.Literal.positional_toDigits large small,
    Token.Literal.positional_toDigits large small] at value
  exact ⟨value, parts.2⟩

theorem toString_append_inj {number number' : Nat} (ends : EndsWords first)
    (ends' : EndsWords second)
    (same : (toString number).toList ++ first = (toString number').toList ++ second) :
    number = number' ∧ first = second := by
  rw [Nat.toString_eq_ofList_toDigits, Nat.toString_eq_ofList_toDigits, String.toList_ofList,
    String.toList_ofList] at same
  have padded : List.replicate 0 '0' ++ Nat.toDigits 10 number ++ first =
      List.replicate 0 '0' ++ Nat.toDigits 10 number' ++ second := same
  exact digits_append_inj (by decide) (by decide) ends ends' padded

theorem lowerHex_append_inj {width number number' : Nat} (ends : EndsWords first)
    (ends' : EndsWords second)
    (same : (lowerHex width number).toList ++ first = (lowerHex width number').toList ++ second) :
    number = number' ∧ first = second := by
  rw [toList_lowerHex, toList_lowerHex] at same
  exact digits_append_inj (by decide) (by decide) ends ends' same

/-- A channel and a value behind a comma. -/
theorem pair_append_inj {channel channel' value value' : Nat} (ends : EndsWords first)
    (ends' : EndsWords second)
    (same : (toString channel ++ ", " ++ toString value).toList ++ first =
      (toString channel' ++ ", " ++ toString value').toList ++ second) :
    channel = channel' ∧ value = value' ∧ first = second := by
  simp only [String.toList_append, List.append_assoc] at same
  have comma (rest : List Char) : EndsWords (", ".toList ++ rest) := EndsWords.cons rfl
  rcases toString_append_inj (comma _) (comma _) same with ⟨channels, behind⟩
  rcases toString_append_inj ends ends' (List.append_cancel_left behind) with ⟨values, rest⟩
  exact ⟨channels, values, rest⟩

/-- Operands of commands of one kind are shown alike only if they are the same. -/
theorem Command.operandText_append_inj {command command' : Command} (ends : EndsWords first)
    (ends' : EndsWords second) (kind : Opcode.ofCommand command = Opcode.ofCommand command')
    (same : command.operandText.toList ++ first = command'.operandText.toList ++ second) :
    command = command' ∧ first = second := by
  cases command with
  | wait =>
      cases command' <;> simp only [Opcode.ofCommand, reduceCtorEq] at kind
      exact ⟨rfl, same⟩
  | ttlAll levels =>
      cases command' <;> simp only [Opcode.ofCommand, reduceCtorEq] at kind
      rename_i levels'
      have behind : (lowerHex 8 levels.toNat).toList ++ first =
          (lowerHex 8 levels'.toNat).toList ++ second := by
        simpa [operandText, toString_string] using same
      rcases lowerHex_append_inj ends ends' behind with ⟨value, rest⟩
      exact ⟨congrArg Command.ttlAll (UInt32.toNat_inj.mp value), rest⟩
  | clock period =>
      cases command' <;> simp only [Opcode.ofCommand, reduceCtorEq] at kind
      rcases toString_append_inj ends ends' same with ⟨value, rest⟩
      exact ⟨congrArg Command.clock (UInt8.toNat_inj.mp value), rest⟩
  | ttl channel on =>
      cases command' <;> simp only [Opcode.ofCommand, reduceCtorEq] at kind
      rename_i channel' on'
      have bit (level : Bool) :
          (if level then "1" else "0") = toString (if level then 1 else 0 : Nat) := by
        cases level <;> rfl
      rw [operandText, operandText, bit, bit] at same
      rcases pair_append_inj ends ends' same with ⟨channels, levels, rest⟩
      have on_eq : on = on' := by
        cases on <;> cases on' <;> first | rfl | contradiction
      rw [UInt8.toNat_inj.mp channels, on_eq]
      exact ⟨rfl, rest⟩
  | frequency channel value =>
      cases command' <;> simp only [Opcode.ofCommand, reduceCtorEq] at kind
      rcases pair_append_inj ends ends' same with ⟨channels, values, rest⟩
      rw [UInt8.toNat_inj.mp channels, UInt32.toNat_inj.mp values]
      exact ⟨rfl, rest⟩
  | amplitude channel value | phase channel value | dac channel value =>
      cases command' <;> simp only [Opcode.ofCommand, reduceCtorEq] at kind
      rcases pair_append_inj ends ends' same with ⟨channels, values, rest⟩
      rw [UInt8.toNat_inj.mp channels, UInt16.toNat_inj.mp values]
      exact ⟨rfl, rest⟩

/-- A mnemonic fills its column, and the blanks behind it do not make it another one. -/
theorem Opcode.length_padRight_mnemonic (opcode : Opcode) :
    (padRight 7 ' ' opcode.mnemonic).toList.length = 7 := by
  cases opcode <;> rfl

theorem Opcode.padRight_mnemonic_inj {opcode opcode' : Opcode}
    (same : (padRight 7 ' ' opcode.mnemonic).toList = (padRight 7 ' ' opcode'.mnemonic).toList) :
    opcode = opcode' := by
  cases opcode <;> cases opcode' <;> first | rfl | exact absurd same (by decide)

end

namespace Instruction

theorem toList_waitText (wait : UInt32) :
    (waitText wait).toList =
      if wait = 0 then [] else " ;; +".toList ++ (toString wait.toNat).toList := by
  rw [waitText]
  split
  · rfl
  · exact String.toList_append

theorem endsWords_waitText (wait : UInt32) : EndsWords (waitText wait).toList := by
  rw [toList_waitText]
  split
  · exact nofun
  · exact EndsWords.cons rfl

theorem waitText_inj {wait wait' : UInt32}
    (same : (waitText wait).toList = (waitText wait').toList) : wait = wait' := by
  rw [toList_waitText, toList_waitText] at same
  by_cases zero : wait = 0
  · by_cases zero' : wait' = 0
    · rw [zero, zero']
    · rw [if_pos zero, if_neg zero'] at same
      contradiction
  · by_cases zero' : wait' = 0
    · rw [if_neg zero, if_pos zero'] at same
      contradiction
    · rw [if_neg zero, if_neg zero'] at same
      have nothing : EndsWords [] := nofun
      have numbers := List.append_cancel_left same
      rw [← List.append_nil (toString wait.toNat).toList,
        ← List.append_nil (toString wait'.toNat).toList] at numbers
      exact UInt32.toNat_inj.mp (toString_append_inj nothing nothing numbers).1

/-- An instruction is told by the last column of its row. -/
theorem cell_injective : Function.Injective cell := by
  intro instruction instruction' same
  have same' := congrArg String.toList same
  simp only [cell, String.toList_append, List.append_assoc] at same'
  have widths : (padRight 7 ' ' instruction.opcode.mnemonic).toList.length =
      (padRight 7 ' ' instruction'.opcode.mnemonic).toList.length := by
    rw [Opcode.length_padRight_mnemonic, Opcode.length_padRight_mnemonic]
  rcases List.append_inj same' widths with ⟨mnemonics, behind⟩
  rcases Command.operandText_append_inj (endsWords_waitText _) (endsWords_waitText _)
    (Opcode.padRight_mnemonic_inj mnemonics) (List.append_cancel_left behind) with ⟨commands, waits⟩
  rcases instruction with ⟨command, wait⟩
  rcases instruction' with ⟨command', wait'⟩
  rw [Instruction.mk.injEq]
  exact ⟨commands, waitText_inj waits⟩

end Instruction

namespace Listing

/-- The instructions in the rows of a table. -/
theorem map_getLast?_rows (earlier : Nat) (instructions : List PlacedInstruction) :
    (rows earlier instructions).map List.getLast? =
      (instructions.map PlacedInstruction.toInstruction).map
        fun instruction => some (" " ++ instruction.cell) := by
  induction instructions generalizing earlier with
  | nil => rfl
  | cons placed rest inductionHypothesis =>
      rw [rows_cons, List.map_cons, List.map_cons, List.map_cons, inductionHypothesis]
      rfl

/-- The code that a listing shows is the only one that it shows. -/
theorem code_eq_of_ofCode_eq {code code' : List UInt8} {text : String}
    (listed : ofCode code = .ok text) (listed' : ofCode code' = .ok text) : code = code' := by
  have tables := (table_eq listed).symm.trans (table_eq listed')
  have lastColumns := congrArg (List.map List.getLast?) (List.append_inj' tables rfl).1
  rw [map_getLast?_rows, map_getLast?_rows] at lastColumns
  have cells : Function.Injective fun instruction : Instruction =>
      some (" " ++ instruction.cell) := by
    intro instruction instruction' same
    exact Instruction.cell_injective (by simpa using same)
  have instructions := List.map_injective_iff.mpr cells lastColumns
  have whole := Decoded.rest_eq_encode_of_fault_eq_none (ofCode_eq_ok_iff.mp listed).1
  have whole' := Decoded.rest_eq_encode_of_fault_eq_none (ofCode_eq_ok_iff.mp listed').1
  exact whole.trans ((congrArg Program.encode instructions).trans whole'.symm)

theorem code_eq_of_ofCode_eq_wait :
    ofCode [2, 7, 0, 0, 0] =
        .ok "0000 |          0 |            0 ns | WAIT     ;; +7\n;; total: 7 steps, 70 ns\n" ∧
      ([2, 7, 0, 0, 0] : List UInt8) = Program.encode [⟨.wait, 7⟩] := by
  have read : Decoded.ofCode (Program.encode [⟨.wait, 7⟩]) = _ := Program.ofCode_encode (by decide)
  have listed : ofCode (Program.encode [⟨.wait, 7⟩]) =
      .ok "0000 |          0 |            0 ns | WAIT     ;; +7\n;; total: 7 steps, 70 ns\n" := by
    rw [ofCode_eq_ok_iff, read]
    decide
  exact ⟨listed, code_eq_of_ofCode_eq listed listed⟩

end Listing

end Sequencer
