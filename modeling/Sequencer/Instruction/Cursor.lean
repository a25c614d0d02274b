import Sequencer.Instruction.Listing

/-!
# Instructions on demand

A cursor hands out the instructions of a piece of code one after the other. It ends behind the last
of them or behind the first fault, and it hands out nothing more then. The steps of a piece of code
and its listing are found by going through its instructions once.
-/

namespace Sequencer

open Sequencer.Bytes

/-- A position between the instructions of a piece of code. -/
structure Cursor where
  reader : Reader
  /-- Whether a fault was handed out. -/
  failed : Bool
  deriving DecidableEq, Repr

namespace Cursor

/-- The position in front of the first instruction. -/
def start (code : List UInt8) : Cursor := ⟨Reader.start code, false⟩

/-- Hand out the next instruction or the fault that ends reading. -/
def next (cursor : Cursor) : Option (Except Fault PlacedInstruction) × Cursor :=
  if cursor.failed || cursor.reader.remaining == 0 then (none, cursor)
  else
    match Instruction.read cursor.reader with
    | .error fault => (some (.error fault), { cursor with failed := true })
    | .ok (instruction, rest) =>
        (some (.ok { instruction with offset := cursor.reader.offset }), ⟨rest, false⟩)

/-- What the cursor hands out when it was asked a number of times before. -/
def item (cursor : Cursor) : Nat → Option (Except Fault PlacedInstruction)
  | 0 => cursor.next.1
  | count + 1 => item cursor.next.2 count

/-- An instruction that was handed out is passed. -/
theorem remaining_of_next {cursor after : Cursor} {placed : PlacedInstruction}
    (handed : cursor.next = (some (.ok placed), after)) :
    after.reader.remaining < cursor.reader.remaining := by
  unfold next at handed
  split at handed
  · simp at handed
  · split at handed
    · simp at handed
    · rename_i read
      rw [Prod.mk.injEq] at handed
      rw [← handed.2]
      exact Instruction.remaining_of_read read

/-- Go through all instructions, up to the first fault. -/
def fold {α : Type} (step : α → PlacedInstruction → α) (value : α) (cursor : Cursor) :
    Except Fault α :=
  match _handed : cursor.next with
  | (none, _) => .ok value
  | (some (.error fault), _) => .error fault
  | (some (.ok placed), after) => fold step (step value placed) after
termination_by cursor.reader.remaining
decreasing_by exact remaining_of_next _handed

/-- The clock steps of a piece of code, added up as its instructions come. -/
def totalSteps (code : List UInt8) : Except Fault UInt64 :=
  (start code).fold (fun total placed => total + UInt64.ofNat placed.steps) 0

/-- The listing of a piece of code, written as its instructions come. -/
def listing (code : List UInt8) : Except Fault String := do
  let (text, steps) ← (start code).fold
    (fun (text, start) placed =>
      (text ++ placed.listingLine start, start + UInt64.ofNat placed.steps))
    ("", 0)
  return text ++ Listing.totalLine steps

end Cursor

end Sequencer
