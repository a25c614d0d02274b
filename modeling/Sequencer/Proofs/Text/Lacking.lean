import Sequencer.Proofs.Token.Spelling

/-!
# Characters that a text lacks

A text that is to be divided at a character must not have that character in its parts. Whether a
text lacks a character is told by what it is put together from; numbers lack every character that
is neither a letter nor a digit. Lines without line feeds are found again in the text that they are
written to (`lines_of_toList`).
-/

namespace Sequencer.Text

/-- A character does not stand in a text. -/
def Lacks (c : Char) (text : String) : Prop :=
  c ∉ text.toList

instance (c : Char) (text : String) : Decidable (Lacks c text) :=
  inferInstanceAs (Decidable (¬ _))

variable {c fill : Char} {first second text : String}

theorem lacks_ofList {characters : List Char} (lacks : c ∉ characters) :
    Lacks c (String.ofList characters) := by
  rwa [Lacks, String.toList_ofList]

theorem Lacks.append (lacks : Lacks c first) (lacks' : Lacks c second) :
    Lacks c (first ++ second) := by
  rw [Lacks, String.toList_append, List.mem_append, not_or]
  exact ⟨lacks, lacks'⟩

theorem lacks_run (other : c ≠ fill) (count : Nat) : Lacks c (run count fill) := by
  apply lacks_ofList
  exact fun inside => other (List.eq_of_mem_replicate inside)

theorem Lacks.padLeft (lacks : Lacks c text) (other : c ≠ fill) (width : Nat) :
    Lacks c (padLeft width fill text) :=
  (lacks_run other _).append lacks

theorem Lacks.padRight (lacks : Lacks c text) (other : c ≠ fill) (width : Nat) :
    Lacks c (padRight width fill text) :=
  lacks.append (lacks_run other _)

/-- The digits of a number are letters and digits. -/
theorem notMem_toDigits (other : Scan.isWordPart c = false) {radix : Nat} (large : 1 < radix)
    (small : radix ≤ 16) (number : Nat) : c ∉ Nat.toDigits radix number := by
  intro inside
  have part := (Token.Literal.isWordPart_of_mem_toDigits large small inside).1
  rw [other] at part
  contradiction

theorem lacks_number (other : Scan.isWordPart c = false) (number : Nat) :
    Lacks c (toString number) := by
  rw [Nat.toString_eq_ofList_toDigits]
  exact lacks_ofList (notMem_toDigits other (by decide) (by decide) number)

theorem lacks_before {front : String} (other : Scan.isWordPart c = false)
    (plain : Lacks c front) (number : Nat) : Lacks c (front ++ toString number) :=
  plain.append (lacks_number other number)

theorem lacks_around {front back : String} (other : Scan.isWordPart c = false)
    (plain : Lacks c front) (plain' : Lacks c back) (number : Nat) :
    Lacks c (front ++ toString number ++ back) :=
  (lacks_before other plain number).append plain'

theorem lacks_lowerHex (other : Scan.isWordPart c = false) (width number : Nat) :
    Lacks c (lowerHex width number) := by
  have digits : Lacks c (String.ofList (Nat.toDigits 16 number)) :=
    lacks_ofList (notMem_toDigits other (by decide) (by decide) number)
  apply digits.padLeft
  rintro rfl
  contradiction

/-! ## Lines -/

/-- The lines of a text. Behind the last line feed there is one more, which may hold nothing. -/
def lines (text : String) : List String := (text.toList.splitOn '\n').map String.ofList

/-- Lines that are written one behind the other can be told again. -/
theorem lines_of_toList {text rest : String} {lines : List String}
    (whole : ∀ line ∈ lines, Lacks '\n' line)
    (written : text.toList =
      (lines.map fun line => line.toList ++ ['\n']).flatten ++ rest.toList) :
    Text.lines text = lines ++ Text.lines rest := by
  rw [Text.lines, written, Text.lines]
  clear written
  induction lines with
  | nil => rfl
  | cons line more inductionHypothesis =>
      obtain ⟨first, others⟩ := List.forall_mem_cons.mp whole
      rw [List.map_cons, List.flatten_cons, List.append_assoc, List.append_assoc,
        List.singleton_append, List.splitOn_append_cons_self_of_not_mem first, List.map_cons,
        inductionHypothesis others, String.ofList_toList, List.cons_append]

end Sequencer.Text
