/-!
# The size of a text

Positions in a source count the bytes that its text takes when it is stored in
UTF-8. This file measures a list of characters in that unit and fills a text up
to the width of a column.
-/

namespace Sequencer.Text

/-- The number of bytes that a text takes in UTF-8. -/
def byteLength : List Char → Nat
  | [] => 0
  | c :: rest => c.utf8Size + byteLength rest

@[simp]
theorem byteLength_nil : byteLength [] = 0 :=
  rfl

@[simp]
theorem byteLength_cons (c : Char) (rest : List Char) :
    byteLength (c :: rest) = c.utf8Size + byteLength rest :=
  rfl

@[simp]
theorem byteLength_append (first second : List Char) :
    byteLength (first ++ second) = byteLength first + byteLength second := by
  induction first with
  | nil => simp
  | cons c rest inductionHypothesis => simp [inductionHypothesis, Nat.add_assoc]

/-- `count` copies of one character. -/
def run (count : Nat) (c : Char) : String :=
  String.ofList (List.replicate count c)

/-- Put fill characters before a text until it has `width` characters. -/
def padLeft (width : Nat) (fill : Char) (text : String) : String :=
  run (width - text.length) fill ++ text

/-- Put fill characters behind a text until it has `width` characters. -/
def padRight (width : Nat) (fill : Char) (text : String) : String :=
  text ++ run (width - text.length) fill

end Sequencer.Text
