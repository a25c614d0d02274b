import Sequencer.Instruction.Cursor
import Sequencer.Proofs.Instruction.Listing

/-!
# Three readers of code

Code may be gone through with a cursor, its steps may be counted, and it may be listed. All three
agree on every piece of code, whether it can be read to its end or not (`Decoded.readersAgree`). The
cursor hands out what decoding finds (`Cursor.item_eq`), and going through all instructions comes to
what the list of them comes to, unless there is a fault (`Cursor.fold_eq`).
-/

namespace Sequencer

open Sequencer.Bytes

/-- The instructions that were read, and the fault behind them if there is one. -/
def Decoded.items (decoded : Decoded) : List (Except Fault PlacedInstruction) :=
  decoded.instructions.map .ok ++ decoded.fault.toList.map .error

namespace Cursor

/-! ## One step of a cursor -/

theorem next_of_failed (reader : Reader) : next ⟨reader, true⟩ = (none, ⟨reader, true⟩) :=
  rfl

theorem next_of_isEmpty {reader : Reader} (empty : reader.rest.isEmpty = true) :
    next ⟨reader, false⟩ = (none, ⟨reader, false⟩) := by
  rw [List.isEmpty_iff] at empty
  simp [next, Reader.remaining, empty]

theorem next_of_read {reader rest : Reader} {instruction : Instruction}
    (left : ¬ reader.rest.isEmpty = true)
    (done : Instruction.read reader = .ok (instruction, rest)) :
    next ⟨reader, false⟩ =
      (some (.ok { instruction with offset := reader.offset }), ⟨rest, false⟩) := by
  rw [List.isEmpty_iff] at left
  simp [next, Reader.remaining, left, done]

theorem next_of_read_error {reader : Reader} {fault : Fault} (left : ¬ reader.rest.isEmpty = true)
    (failed : Instruction.read reader = .error fault) :
    next ⟨reader, false⟩ = (some (.error fault), ⟨reader, true⟩) := by
  rw [List.isEmpty_iff] at left
  simp [next, Reader.remaining, left, failed]

/-! ## All of its steps -/

/-- A cursor that hands out nothing stays where it is. -/
theorem item_of_next_none {cursor : Cursor} (ended : cursor.next = (none, cursor)) (count : Nat) :
    cursor.item count = none := by
  induction count with
  | zero => rw [item, ended]
  | succ count inductionHypothesis => rw [item, ended, inductionHypothesis]

/-- A cursor hands out what decoding finds. -/
theorem item_eq (reader : Reader) (count : Nat) :
    item ⟨reader, false⟩ count = (Decoded.fromReader reader).items[count]? := by
  fun_induction Decoded.fromReader reader generalizing count with
  | case1 reader empty => exact item_of_next_none (next_of_isEmpty empty) count
  | case2 reader left fault failed =>
      have handed := next_of_read_error left failed
      cases count with
      | zero =>
          rw [item, handed]
          rfl
      | succ count =>
          rw [item, handed]
          exact item_of_next_none (next_of_failed reader) count
  | case3 reader left instruction rest read following inductionHypothesis =>
      have handed := next_of_read left read
      cases count with
      | zero =>
          rw [item, handed]
          rfl
      | succ count =>
          rw [item, handed, inductionHypothesis]
          rfl

section

variable {α : Type} (step : α → PlacedInstruction → α) (value : α)

/-- The next step decides how instructions are gone through. -/
theorem fold_eq_next (cursor : Cursor) :
    cursor.fold step value =
      match cursor.next with
      | (none, _) => .ok value
      | (some (.error fault), _) => .error fault
      | (some (.ok placed), after) => after.fold step (step value placed) := by
  rw [fold]
  split
  · simp_all
  · simp_all
  · simp_all

/-- Going through all instructions comes to what the list of them comes to. -/
theorem fold_eq (reader : Reader) :
    fold step value ⟨reader, false⟩ =
      match (Decoded.fromReader reader).fault with
      | some fault => .error fault
      | none => .ok ((Decoded.fromReader reader).instructions.foldl step value) := by
  fun_induction Decoded.fromReader reader generalizing value with
  | case1 reader empty =>
      rw [fold_eq_next, next_of_isEmpty empty]
      rfl
  | case2 reader left fault failed => rw [fold_eq_next, next_of_read_error left failed]
  | case3 reader left instruction rest read following inductionHypothesis =>
      rw [fold_eq_next, next_of_read left read]
      exact inductionHypothesis _

end

/-! ## Steps and listings -/

theorem totalSteps_eq (code : List UInt8) : totalSteps code = Sequencer.totalSteps code := by
  rw [totalSteps, start, fold_eq]
  rfl

/-- Lines that are written behind each other, with the steps in front of the next of them. -/
theorem foldl_listingLine (text : String) (start : UInt64) (instructions : List PlacedInstruction) :
    instructions.foldl
        (fun (text, start) placed =>
          (text ++ placed.listingLine start, start + UInt64.ofNat placed.steps)) (text, start) =
      (text ++ String.join (Listing.linesFrom start instructions).1,
        (Listing.linesFrom start instructions).2) := by
  induction instructions generalizing text start with
  | nil => simp [Listing.linesFrom]
  | cons placed rest inductionHypothesis =>
      rw [List.foldl_cons, inductionHypothesis, Listing.linesFrom, String.join_cons,
        String.append_assoc]

theorem listing_eq (code : List UInt8) : listing code = Listing.ofCode code := by
  rw [listing, start, fold_eq, Listing.ofCode, Decoded.ofCode]
  cases (Decoded.fromReader (Reader.start code)).fault with
  | some fault => rfl
  | none =>
      rw [foldl_listingLine, String.empty_append]
      rfl

end Cursor

namespace Decoded

/-! ## What is handed out -/

theorem getElem?_items_of_lt {decoded : Decoded} {count : Nat}
    (early : count < decoded.instructions.length) :
    decoded.items[count]? = some (.ok decoded.instructions[count]) := by
  rw [items, List.getElem?_append_left (by rwa [List.length_map]), List.getElem?_map,
    List.getElem?_eq_getElem early]
  rfl

/-- A fault is handed out behind all instructions only. -/
theorem getElem?_items_eq_error_iff {decoded : Decoded} {count : Nat} {fault : Fault} :
    decoded.items[count]? = some (.error fault) ↔
      decoded.fault = some fault ∧ count = decoded.instructions.length := by
  rcases Nat.lt_or_ge count decoded.instructions.length with early | late
  · rw [getElem?_items_of_lt early]
    exact iff_of_false nofun fun last => absurd last.2 (Nat.ne_of_lt early)
  · rw [items, List.getElem?_append_right (by rwa [List.length_map]), List.length_map]
    cases decoded.fault with
    | none => exact iff_of_false (by simp) (by simp)
    | some found =>
        rw [Option.toList_some, List.map_singleton, List.getElem?_singleton]
        split <;> simp <;> omega

theorem length_items_le (decoded : Decoded) :
    decoded.items.length ≤ decoded.instructions.length + 1 := by
  rw [items, List.length_append, List.length_map, List.length_map]
  cases decoded.fault <;> simp

/-- Every instruction takes five bytes or more. -/
theorem five_mul_length_le (reader : Reader) :
    5 * (fromReader reader).instructions.length ≤ reader.remaining := by
  fun_induction fromReader reader with
  | case1 | case2 => exact Nat.zero_le _
  | case3 reader left instruction rest read following inductionHypothesis =>
      have length := congrArg List.length (Instruction.read_eq_ok_iff.mp read).2.1
      rw [List.length_append, Instruction.length_encode, Instruction.headLength] at length
      have bound : 5 * following.instructions.length ≤ rest.rest.length := inductionHypothesis
      rw [List.length_cons, Reader.remaining]
      omega

theorem steps_eq (decoded : Decoded) :
    decoded.steps = UInt64.ofNat (Listing.stepSum decoded.instructions) := by
  have counted (instructions : List PlacedInstruction) (total : Nat) :
      instructions.foldl (fun total placed => total + UInt64.ofNat placed.steps)
          (UInt64.ofNat total) = UInt64.ofNat (total + Listing.stepSum instructions) := by
    induction instructions generalizing total with
    | nil => rfl
    | cons placed rest inductionHypothesis =>
        rw [List.foldl_cons, ← UInt64.ofNat_add, inductionHypothesis, Listing.stepSum_cons,
          Nat.add_assoc]
  rw [← Nat.zero_add (Listing.stepSum decoded.instructions), ← counted]
  rfl

/-! ## Agreement -/

/-- The three readers agree on a piece of code. -/
structure ReadersAgree (code : List UInt8) : Prop where
  /-- The cursor hands out what decoding finds. -/
  items : ∀ count, (Cursor.start code).item count = (ofCode code).items[count]?
  /-- It hands out at most one item for every five bytes, and one more. -/
  ended : ∀ count, code.length / 5 + 1 ≤ count → (Cursor.start code).item count = none
  /-- Instructions only come in front of a fault, nothing comes behind it, and neither counting
  steps nor listing goes on behind it. -/
  failed : ∀ count fault, (Cursor.start code).item count = some (.error fault) →
    (∀ earlier < count, ∃ placed, (Cursor.start code).item earlier = some (.ok placed)) ∧
      (∀ later, count < later → (Cursor.start code).item later = none) ∧
      totalSteps code = .error fault ∧ Listing.ofCode code = .error fault
  /-- Without a fault the steps of all instructions are counted, and each of them is listed. -/
  complete : (∀ count fault, (Cursor.start code).item count ≠ some (.error fault)) →
    totalSteps code = .ok (UInt64.ofNat (Listing.stepSum (ofCode code).instructions)) ∧
      ∃ text, Listing.ofCode code = .ok text ∧
        Listing.table text = Listing.rows 0 (ofCode code).instructions ++
          [Listing.totalRow (Listing.stepSum (ofCode code).instructions), [""]]
  /-- Both may be done while the cursor hands out instructions. -/
  onDemand : Cursor.totalSteps code = totalSteps code ∧ Cursor.listing code = Listing.ofCode code

theorem item_start (code : List UInt8) (count : Nat) :
    (Cursor.start code).item count = (ofCode code).items[count]? :=
  Cursor.item_eq (Reader.start code) count

/-- Whether there is a fault shows in what is handed out. -/
theorem fault_eq_none_of_item {code : List UInt8}
    (sound : ∀ count fault, (Cursor.start code).item count ≠ some (.error fault)) :
    (ofCode code).fault = none := by
  cases found : (ofCode code).fault with
  | none => rfl
  | some fault =>
      have handed := getElem?_items_eq_error_iff.mpr ⟨found, rfl⟩
      rw [← item_start] at handed
      exact absurd handed (sound _ fault)

theorem readersAgree (code : List UInt8) : ReadersAgree code where
  items := item_start code
  ended count late := by
    have bound : 5 * (ofCode code).instructions.length ≤ code.length :=
      five_mul_length_le (Reader.start code)
    have few := length_items_le (ofCode code)
    rw [item_start]
    exact List.getElem?_eq_none (by omega)
  failed count fault handed := by
    rw [item_start] at handed
    rcases getElem?_items_eq_error_iff.mp handed with ⟨found, rfl⟩
    have few := length_items_le (ofCode code)
    refine ⟨?_, ?_, ?_, ?_⟩
    · intro earlier early
      rw [item_start]
      exact ⟨_, getElem?_items_of_lt early⟩
    · intro later late
      rw [item_start]
      exact List.getElem?_eq_none (by omega)
    · rw [totalSteps, found]
    · rw [Listing.ofCode, found]
  complete sound := by
    have none := fault_eq_none_of_item sound
    constructor
    · rw [totalSteps, none, ← steps_eq]
    · have listed := Listing.ofCode_eq_ok_iff.mpr ⟨none, rfl⟩
      exact ⟨_, listed, Listing.table_eq listed⟩
  onDemand := ⟨Cursor.totalSteps_eq code, Cursor.listing_eq code⟩

end Decoded

end Sequencer
