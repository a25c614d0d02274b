import Sequencer.Proofs.Bytes.Shortage
import Sequencer.Proofs.Instruction.Totals

/-!
# Code that is cut off or goes on

Code that is read without a fault may be cut off or may go on with other bytes. What is left of it
is read up to the cut. If the cut lies inside of an instruction, reading ends with an end that was
not expected, and it does so inside of that instruction (`Decoded.detectsCuts`). What goes on behind
it is read as it is read alone, further on. Both follow from what holds of the read of one
instruction.
-/

namespace Sequencer

open Sequencer.Bytes

/-! ## One instruction -/

theorem Command.readChannelValue_shift (make : UInt8 → UInt16 → Command) (distance : Nat)
    (reader : Reader) :
    readChannelValue make (reader.shift distance) =
      Reader.shifted distance (readChannelValue make reader) := by
  rw [readChannelValue, Reader.uint8, Reader.word_shift]
  apply Reader.shifted_bind
  intro channel after
  dsimp only
  rw [Reader.uint16, Reader.word_shift]
  exact Reader.shifted_bind (fun _ _ => rfl) _

/-- Operands are read further on as they are read here. -/
theorem Opcode.readOperands_shift (opcode : Opcode) (distance : Nat) (reader : Reader) :
    opcode.readOperands (reader.shift distance) =
      Reader.shifted distance (opcode.readOperands reader) := by
  cases opcode with
  | wait => rfl
  | amplitude | phase | dac => exact Command.readChannelValue_shift _ distance reader
  | ttlAll =>
      rw [readOperands, Reader.uint32, Reader.word_shift]
      exact Reader.shifted_bind (fun _ _ => rfl) _
  | clock =>
      rw [readOperands, Reader.uint8, Reader.word_shift]
      exact Reader.shifted_bind (fun _ _ => rfl) _
  | frequency =>
      rw [readOperands, Reader.uint8, Reader.word_shift]
      apply Reader.shifted_bind
      intro channel after
      dsimp only
      rw [Reader.uint32, Reader.word_shift]
      exact Reader.shifted_bind (fun _ _ => rfl) _
  | ttl =>
      rw [readOperands, Reader.uint8, Reader.word_shift]
      apply Reader.shifted_bind
      intro channel after
      dsimp only
      rw [Reader.uint8, Reader.word_shift]
      apply Reader.shifted_bind
      intro level after
      dsimp only
      split <;> rfl

/-- An instruction is its opcode, its wait and its operands, read one after the other. -/
theorem Instruction.read_eq_bind (reader : Reader) :
    Instruction.read reader = reader.uint8 >>= fun found =>
      match Opcode.ofByte? found.1 with
      | none => .error (.unknownOpcode found.1 reader.offset)
      | some opcode => found.2.uint32 >>= fun wait =>
          opcode.readOperands wait.2 >>= fun operands =>
            .ok (⟨operands.1, wait.1⟩, operands.2) := by
  unfold Instruction.read
  cases reader.uint8 with
  | error fault => rfl
  | ok found =>
      simp only [bind, Except.bind]
      cases Opcode.ofByte? found.1 with
      | none => rfl
      | some opcode =>
          dsimp only
          cases found.2.uint32 with
          | error fault => rfl
          | ok wait =>
              dsimp only
              cases opcode.readOperands wait.2 with
              | error fault => rfl
              | ok operands => rfl

/-- An instruction is read further on as it is read here. -/
theorem Instruction.read_shift (distance : Nat) (reader : Reader) :
    Instruction.read (reader.shift distance) =
      Reader.shifted distance (Instruction.read reader) := by
  rw [read_eq_bind, read_eq_bind, Reader.uint8, Reader.word_shift]
  apply Reader.shifted_bind
  intro byte after
  dsimp only
  cases Opcode.ofByte? byte with
  | none => rfl
  | some opcode =>
      dsimp only
      rw [Reader.uint32, Reader.word_shift]
      apply Reader.shifted_bind
      intro wait after
      dsimp only
      rw [Opcode.readOperands_shift]
      exact Reader.shifted_bind (fun _ _ => rfl) _

theorem Command.takesBytes_readChannelValue (make : UInt8 → UInt16 → Command) (channel : UInt8)
    (value : UInt16) :
    Reader.TakesBytes (readChannelValue make) (channel :: ofUInt16 value) (make channel value) :=
  (Reader.TakesBytes.uint8 channel).bind fun _ =>
    (Reader.TakesBytes.uint16 value).change (make channel)

/-- Operands are taken from the bytes that store them. -/
theorem Opcode.takesBytes_readOperands {command : Command} (inRange : command.InRange) :
    Reader.TakesBytes (fun reader => (ofCommand command).readOperands reader) command.operandBytes
      command := by
  cases command with
  | ttlAll levels => exact (Reader.TakesBytes.uint32 levels).change Command.ttlAll
  | wait => exact .nothing Command.wait
  | clock period => exact (Reader.TakesBytes.uint8 period).change Command.clock
  | frequency channel value =>
      exact (Reader.TakesBytes.uint8 channel).bind fun _ =>
        (Reader.TakesBytes.uint32 value).change (Command.frequency channel)
  | amplitude channel value | phase channel value | dac channel value =>
      exact Command.takesBytes_readChannelValue _ channel value
  | ttl channel on =>
      -- The ranges of both operands are looked at only behind the second of them.
      have accepted : ¬ (32 ≤ channel ∨ (1 : UInt8) < if on then 1 else 0) := by
        rw [not_or, UInt8.not_le]
        exact ⟨inRange, by cases on <;> decide⟩
      have level : decide ((if on then 1 else 0 : UInt8) = 1) = on := by cases on <;> rfl
      refine (Reader.TakesBytes.uint8 channel).bind fun _ =>
        (Reader.TakesBytes.uint8 (if on then 1 else 0)).bind fun _ => ?_
      dsimp only
      simp only [if_neg accepted, level]
      exact .nothing (Command.ttl channel on)

/-- An instruction is taken from its bytes. -/
theorem Instruction.takesBytes_read {instruction : Instruction}
    (inRange : instruction.command.InRange) :
    Reader.TakesBytes Instruction.read instruction.encode instruction := by
  rw [funext read_eq_bind]
  refine (Reader.TakesBytes.uint8 instruction.opcode.toByte).bind fun _ => ?_
  simp only [Opcode.ofByte?_toByte]
  exact (Reader.TakesBytes.uint32 instruction.wait).bind fun _ =>
    (Opcode.takesBytes_readOperands inRange).change (Instruction.mk · instruction.wait)

/-! ## Instructions in their places -/

/-- The offset behind an instruction. -/
def PlacedInstruction.stop (placed : PlacedInstruction) : Nat :=
  placed.offset + (Instruction.headLength + placed.opcode.operandLength)

theorem PlacedInstruction.offset_lt_stop (placed : PlacedInstruction) :
    placed.offset < placed.stop := by
  rw [stop, Instruction.headLength]
  omega

/-- The same instruction, a distance further on. -/
def PlacedInstruction.shift (distance : Nat) (placed : PlacedInstruction) : PlacedInstruction :=
  { placed with offset := placed.offset + distance }

namespace Program

variable {offset : Nat} {placed : PlacedInstruction} {instructions : List Instruction}

theorem place_append (offset : Nat) (first second : List Instruction) :
    place offset (first ++ second) =
      place offset first ++ place (offset + (encode first).length) second := by
  induction first generalizing offset with
  | nil => rfl
  | cons instruction rest inductionHypothesis =>
      simp only [List.cons_append, place, inductionHypothesis, encode_cons, List.length_append,
        Nat.add_assoc]

/-- Instructions stand within the code of their program. -/
theorem mem_place_inside (inside : placed ∈ place offset instructions) :
    offset ≤ placed.offset ∧ placed.stop ≤ offset + (encode instructions).length := by
  induction instructions generalizing offset with
  | nil => cases inside
  | cons instruction rest inductionHypothesis =>
      rw [encode_cons, List.length_append]
      cases inside with
      | head =>
          constructor
          · exact Nat.le_refl offset
          · rw [Instruction.length_encode]
            exact Nat.add_le_add_left (Nat.le_add_right ..) offset
      | tail _ later =>
          have within := inductionHypothesis later
          omega

/-- No instruction ends in front of the end of the first one. -/
theorem stop_ge_of_mem_place {instruction : Instruction} {rest : List Instruction}
    (inside : placed ∈ place offset (instruction :: rest)) :
    offset + instruction.encode.length ≤ placed.stop := by
  cases inside with
  | head =>
      rw [Instruction.length_encode]
      exact Nat.le_refl _
  | tail _ later =>
      exact Nat.le_trans (mem_place_inside later).1 (Nat.le_of_lt placed.offset_lt_stop)

/-- Some instruction ends where a program does. -/
theorem exists_stop_eq (offset : Nat) (filled : instructions ≠ []) :
    ∃ placed ∈ place offset instructions, placed.stop = offset + (encode instructions).length := by
  rcases (List.eq_nil_or_concat instructions).resolve_left filled with ⟨before, last, rfl⟩
  rw [List.concat_eq_append, place_append, encode_append, List.length_append]
  refine ⟨{ last with offset := offset + (encode before).length },
    List.mem_append_right _ List.mem_cons_self, ?_⟩
  rw [encode_cons, encode_nil, List.append_nil, Instruction.length_encode, ← Nat.add_assoc]
  rfl

/-- Bytes that are left, behind the last whole instruction, of a program that is cut off: none, or
some but not all bytes of its first instruction. -/
inductive CutOff : List UInt8 → List Instruction → Prop where
  | between (instructions : List Instruction) : CutOff [] instructions
  | inside (instruction : Instruction) (rest : List Instruction) (first missing : List UInt8)
      (parts : instruction.encode = first ++ missing) (begun : first ≠ []) (left : missing ≠ []) :
      CutOff first (instruction :: rest)

/-- A cut of the code of a program leaves some of its instructions whole. -/
theorem exists_cut (instructions : List Instruction) {count : Nat}
    (within : count ≤ (encode instructions).length) :
    ∃ before after first, instructions = before ++ after ∧ CutOff first after ∧
      count = (encode before).length + first.length ∧
      (encode instructions).take count = encode before ++ first := by
  induction instructions generalizing count with
  | nil => exact ⟨[], [], [], rfl, .between [], Nat.le_zero.mp within, List.take_nil⟩
  | cons instruction rest inductionHypothesis =>
      rw [encode_cons, List.length_append] at within
      rcases Nat.lt_or_ge count instruction.encode.length with early | late
      · rcases Nat.eq_zero_or_pos count with rfl | positive
        · exact ⟨[], instruction :: rest, [], rfl, .between _, rfl, rfl⟩
        · have length := List.length_take_of_le (Nat.le_of_lt early)
          refine ⟨[], instruction :: rest, instruction.encode.take count, rfl,
            .inside instruction rest _ (instruction.encode.drop count) ?_ ?_ ?_, ?_, ?_⟩
          · exact (List.take_append_drop ..).symm
          · exact List.ne_nil_of_length_pos (by rwa [length])
          · exact List.drop_eq_nil_iff.not.mpr (Nat.not_le.mpr early)
          · rw [length]
            exact (Nat.zero_add count).symm
          · rw [encode_cons, List.take_append_of_le_length (Nat.le_of_lt early)]
            rfl
      · have shorter : count - instruction.encode.length ≤ (encode rest).length := by omega
        rcases inductionHypothesis shorter with
          ⟨before, after, first, parts, cut, count_eq, taken⟩
        refine ⟨instruction :: before, after, first, congrArg (instruction :: ·) parts, cut, ?_, ?_⟩
        · rw [encode_cons, List.length_append]
          omega
        · rw [encode_cons, List.take_append, List.take_of_length_le late, taken, encode_cons,
            List.append_assoc]

/-- No instruction behind a cut ends in front of it. -/
theorem CutOff.lt_stop {first : List UInt8} (cut : CutOff first instructions)
    (inside : placed ∈ place offset instructions) : offset + first.length < placed.stop := by
  cases cut with
  | between =>
      exact Nat.lt_of_le_of_lt (mem_place_inside inside).1 placed.offset_lt_stop
  | inside instruction rest first missing parts begun left =>
      have ends := stop_ge_of_mem_place inside
      have positive := List.length_pos_iff.mpr left
      rw [parts, List.length_append] at ends
      omega

end Program

/-! ## Code that is read without a fault -/

namespace Decoded

/-- What was read, a distance further on. -/
def shift (distance : Nat) (decoded : Decoded) : Decoded :=
  ⟨decoded.instructions.map (PlacedInstruction.shift distance),
    decoded.fault.map (Fault.shift distance)⟩

/-- Bytes are read further on as they are read here. -/
theorem fromReader_shift (distance : Nat) (reader : Reader) :
    fromReader (reader.shift distance) = (fromReader reader).shift distance := by
  fun_induction fromReader reader with
  | case1 reader empty =>
      have empty' : (reader.shift distance).rest.isEmpty = true := empty
      rw [fromReader, if_pos empty']
      rfl
  | case2 reader left fault failed =>
      have left' : (reader.shift distance).rest ≠ [] := mt List.isEmpty_iff.mpr left
      have failed' : Instruction.read (reader.shift distance) =
          .error (fault.shift distance) := by
        rw [Instruction.read_shift, failed]
        rfl
      exact fromReader_of_read_error left' failed'
  | case3 reader left instruction after read following inductionHypothesis =>
      have read' : Instruction.read (reader.shift distance) =
          .ok (instruction, after.shift distance) := by
        rw [Instruction.read_shift, read]
        rfl
      rw [fromReader_of_read read', inductionHypothesis]
      rfl

theorem inRange_of_mem {reader : Reader} {placed : PlacedInstruction}
    (inside : placed ∈ (fromReader reader).instructions) : placed.command.InRange := by
  fun_induction fromReader reader with
  | case1 | case2 => cases inside
  | case3 reader left instruction after read following inductionHypothesis =>
      cases inside with
      | head => exact (Instruction.read_eq_ok_iff.mp read).1
      | tail _ later => exact inductionHypothesis later

/-- Code that is read without a fault is the code of a program. -/
theorem exists_eq_encode {code : List UInt8} (complete : (ofCode code).fault = none) :
    ∃ instructions : List Instruction, (∀ instruction ∈ instructions,
      instruction.command.InRange) ∧ code = Program.encode instructions := by
  refine ⟨_, ?_, rest_eq_encode_of_fault_eq_none complete⟩
  intro instruction inside
  obtain ⟨placed, within, rfl⟩ := List.mem_map.mp inside
  exact inRange_of_mem within

/-- Nothing stands in front of an offset, or an instruction ends at it. -/
def IsBoundary (decoded : Decoded) (offset : Nat) : Prop :=
  offset = 0 ∨ ∃ placed ∈ decoded.instructions, placed.stop = offset

section Cuts

variable {before after : List Instruction} {first : List UInt8}

theorem stop_le_of_mem_place {placed : PlacedInstruction}
    (inside : placed ∈ Program.place 0 before) :
    placed.stop ≤ (Program.encode before).length := by
  rw [← Nat.zero_add (Program.encode before).length]
  exact (Program.mem_place_inside inside).2

/-- The instructions that end in front of a cut are those that it leaves whole. -/
theorem filter_place (cut : Program.CutOff first after) :
    (Program.place 0 (before ++ after)).filter
      (·.stop ≤ (Program.encode before).length + first.length) = Program.place 0 before := by
  rw [Program.place_append, Nat.zero_add, List.filter_append, List.filter_eq_self.mpr,
    List.filter_eq_nil_iff.mpr, List.append_nil]
  · intro placed inside
    rw [decide_eq_true_eq, Nat.not_le]
    exact cut.lt_stop inside
  · intro placed inside
    exact decide_eq_true (Nat.le_add_right_of_le (stop_le_of_mem_place inside))

/-- A cut falls between instructions if it leaves no part of one. -/
theorem isBoundary_place_iff (cut : Program.CutOff first after) (fault : Option Fault) :
    IsBoundary ⟨Program.place 0 (before ++ after), fault⟩
      ((Program.encode before).length + first.length) ↔ first = [] := by
  rw [IsBoundary, Program.place_append, Nat.zero_add]
  constructor
  · rintro (none | ⟨placed, inside, ends⟩)
    · exact List.length_eq_zero_iff.mp (Nat.add_eq_zero_iff.mp none).2
    · rcases List.mem_append.mp inside with inside | inside
      · have bound := stop_le_of_mem_place inside
        exact List.length_eq_zero_iff.mp (by omega)
      · exact absurd ends (Nat.ne_of_gt (cut.lt_stop inside))
  · rintro rfl
    by_cases filled : before = []
    · exact .inl (by rw [filled]; rfl)
    · rcases Program.exists_stop_eq 0 filled with ⟨placed, inside, ends⟩
      rw [Nat.zero_add] at ends
      exact .inr ⟨placed, List.mem_append_left _ inside, ends⟩

/-- What was cut off ends reading with a shortage. -/
theorem fromReader_of_cutOff_inside (offset : Nat) {instruction : Instruction}
    {missing : List UInt8} (inRange : instruction.command.InRange)
    (parts : instruction.encode = first ++ missing) (begun : first ≠ []) (left : missing ≠ []) :
    ∃ fault, fromReader ⟨offset, first⟩ = ⟨[], some fault⟩ ∧
      fault.IsShortage offset (offset + first.length) := by
  rcases (Instruction.takesBytes_read inRange).short offset first missing parts left with
    ⟨fault, failed, shortage⟩
  exact ⟨fault, fromReader_of_read_error begun failed, shortage⟩

end Cuts

/-- Reading what a cut leaves ends without a fault at a boundary. Elsewhere it ends with a shortage,
inside of the instruction that is cut. -/
theorem ofCode_take {code : List UInt8} (complete : (ofCode code).fault = none) {count : Nat}
    (within : count ≤ code.length) :
    (ofCode (code.take count)).instructions =
        (ofCode code).instructions.filter (·.stop ≤ count) ∧
      ((ofCode (code.take count)).fault = none ∧ (ofCode code).IsBoundary count ∨
        ∃ fault, (ofCode (code.take count)).fault = some fault ∧
          ¬ (ofCode code).IsBoundary count ∧
          ∃ placed ∈ (ofCode code).instructions, placed.offset < count ∧ count < placed.stop ∧
            fault.IsShortage placed.offset count) := by
  rcases exists_eq_encode complete with ⟨instructions, inRange, rfl⟩
  rcases Program.exists_cut instructions within with ⟨before, after, first, rfl, cut, rfl, taken⟩
  have read := fromReader_encode_append 0 first
    fun instruction inside => inRange instruction (List.mem_append_left after inside)
  rw [taken, Program.ofCode_encode inRange, ofCode, Reader.start, read, filter_place cut,
    isBoundary_place_iff cut, Nat.zero_add]
  cases cut with
  | between =>
      rw [fromReader_nil]
      exact ⟨List.append_nil _, .inl ⟨rfl, rfl⟩⟩
  | inside instruction rest first missing parts begun left =>
      have known := inRange instruction (List.mem_append_right before List.mem_cons_self)
      rcases fromReader_of_cutOff_inside (Program.encode before).length known parts begun left with
        ⟨fault, failed, shortage⟩
      have here : { instruction with offset := (Program.encode before).length } ∈
          Program.place 0 (before ++ instruction :: rest) := by
        rw [Program.place_append, Nat.zero_add]
        exact List.mem_append_right _ List.mem_cons_self
      have cut : Program.CutOff first (instruction :: rest) :=
        .inside instruction rest first missing parts begun left
      rw [failed]
      exact ⟨List.append_nil _, .inr ⟨fault, rfl, begun, _, here,
        Nat.lt_add_of_pos_right (List.length_pos_iff.mpr begun), cut.lt_stop List.mem_cons_self,
        shortage⟩⟩

/-- What is read of code that is cut off, and of code that goes on. -/
structure DetectsCuts (code : List UInt8) : Prop where
  /-- What is left is read up to the last instruction that ends in front of the cut. -/
  instructions : ∀ count ≤ code.length, (ofCode (code.take count)).instructions =
    (ofCode code).instructions.filter (·.stop ≤ count)
  /-- Reading ends without a fault only if the cut falls between instructions. -/
  fault_eq_none_iff : ∀ count ≤ code.length,
    (ofCode (code.take count)).fault = none ↔ (ofCode code).IsBoundary count
  /-- Otherwise it ends, inside of the instruction that is cut, where more bytes are needed than are
  left of the code. -/
  fault : ∀ count ≤ code.length, ∀ fault, (ofCode (code.take count)).fault = some fault →
    ∃ placed ∈ (ofCode code).instructions, placed.offset < count ∧ count < placed.stop ∧
      ∃ needed offset, fault = .unexpectedEnd needed offset ∧
        placed.offset ≤ offset ∧ offset < placed.stop ∧ count < offset + needed
  totalSteps_iff : ∀ count ≤ code.length,
    (∃ steps, totalSteps (code.take count) = .ok steps) ↔ (ofCode code).IsBoundary count
  /-- What stands behind the code is read as it is read alone, further on. -/
  append : ∀ rest, ofCode (code ++ rest) =
    ⟨(ofCode code).instructions ++ ((ofCode rest).shift code.length).instructions,
      ((ofCode rest).shift code.length).fault⟩

/-- Wherever code is cut off, this is detected, unless it ends between instructions there. -/
theorem detectsCuts {code : List UInt8} (complete : (ofCode code).fault = none) :
    DetectsCuts code where
  instructions count within := (ofCode_take complete within).1
  fault_eq_none_iff count within := by
    rcases (ofCode_take complete within).2 with ⟨none, boundary⟩ | ⟨fault, some, inside, -⟩
    · exact iff_of_true none boundary
    · exact iff_of_false (by rw [some]; nofun) inside
  fault count within fault failed := by
    rcases (ofCode_take complete within).2 with ⟨none, -⟩ | ⟨found, some, -, cut⟩
    · rw [none] at failed
      contradiction
    · rw [some] at failed
      rcases cut with ⟨placed, inside, begins, ends, shortage⟩
      rcases shortage with ⟨needed, offset, rfl, later, earlier, missing⟩
      exact ⟨placed, inside, begins, ends, needed, offset, (Option.some.inj failed).symm, later,
        Nat.lt_of_le_of_lt earlier ends, missing⟩
  totalSteps_iff count within := by
    rcases (ofCode_take complete within).2 with ⟨none, boundary⟩ | ⟨fault, some, inside, -⟩
    · exact iff_of_true ⟨_, by rw [totalSteps, none]⟩ boundary
    · refine iff_of_false ?_ inside
      rw [totalSteps, some]
      exact nofun
  append rest := by
    rcases exists_eq_encode complete with ⟨instructions, inRange, rfl⟩
    rw [Program.ofCode_encode inRange, ofCode, ofCode, ← fromReader_shift]
    exact fromReader_encode_append 0 rest inRange

theorem detectsCuts_ttl_wait :
    (ofCode [1, 7, 0, 0, 0, 3, 1, 2, 1, 0, 0, 0]).fault = none ∧
      DetectsCuts [1, 7, 0, 0, 0, 3, 1, 2, 1, 0, 0, 0] := by
  have complete : (ofCode [1, 7, 0, 0, 0, 3, 1, 2, 1, 0, 0, 0]).fault = none := by
    have read := @Program.ofCode_encode [⟨.ttl 3 true, 7⟩, ⟨.wait, 1⟩] (by decide)
    exact congrArg fault read
  exact ⟨complete, detectsCuts complete⟩

end Decoded

end Sequencer
