import Sequencer.Proofs.Source.Words
import Mathlib.Data.Prod.Lex
import Mathlib.Order.Monotone.Defs

/-!
# Offsets, lines and columns

The line of an offset is told by the line feeds among the bytes in front of it
(`length_takeWhile_starts`), and its column by how far it is from the start of that line. So a line
and a column tell an offset, and offsets stand in the order of their lines and columns
(`LineTable.strictMono_position`). On a source whose length is a word the same is found with words,
by a search among the starts of the lines (`WordTable.placesExactly_ofBytes`). Only behind the
greatest word, which may be the end of a source, a column may be none
(`WordTable.position?_ofBytes_indented`).
-/

namespace Sequencer

open Sequencer.Source Sequencer.Text

namespace Source

/-- The bytes of a character that is no line feed hold none. -/
theorem notMem_utf8EncodeChar {c : Char} (inLine : c ≠ '\n') : 10 ∉ String.utf8EncodeChar c :=
  mt Utf8.lineFeed_mem_utf8EncodeChar inLine

/-- Bytes in front of others are passed over when a byte is counted that is none of them. -/
theorem count_take_append {byte : UInt8} {first : List UInt8} (without : byte ∉ first)
    (second : List UInt8) (count : Nat) :
    ((first ++ second).take count).count byte =
      (second.take (count - first.length)).count byte := by
  have none : (first.take count).count byte = 0 :=
    List.count_eq_zero.mpr fun inside => without (List.mem_of_mem_take inside)
  rw [List.take_append, List.count_append, none, Nat.zero_add]

/-- As many lines start behind the first one, up to an offset, as there are line feeds in front of
it. The offset may stand inside of a character. -/
theorem length_takeWhile_starts (start offset : Nat) (text : List Char) :
    (((linesFrom start text).map Line.start).takeWhile (· ≤ start + offset)).length =
      ((Utf8.encode text).take offset).count 10 + 1 := by
  induction text generalizing start offset with
  | nil => simp [linesFrom, Utf8.encode]
  | cons c rest inductionHypothesis =>
      rw [Utf8.encode_cons]
      by_cases lineFeed : c = '\n'
      · subst lineFeed
        have bytes : String.utf8EncodeChar '\n' = [10] := rfl
        rw [linesFrom_lineFeed, List.map_cons, bytes, List.singleton_append,
          List.takeWhile_cons_of_pos (by simp), List.length_cons]
        cases offset with
        | zero =>
            obtain ⟨body, more, lines⟩ := exists_linesFrom_eq_cons (start + 1) rest
            simp [lines]
        | succ offset =>
            have others := inductionHypothesis (start + 1) offset
            rw [Nat.add_assoc, Nat.add_comm 1] at others
            rw [others, List.take_succ_cons, List.count_cons_self]
      · obtain ⟨body, more, following, lines⟩ := linesFrom_cons lineFeed start rest
        rw [lines, List.map_cons, List.takeWhile_cons_of_pos (by simp), List.length_cons,
          count_take_append (notMem_utf8EncodeChar lineFeed), String.length_utf8EncodeChar]
        rcases Nat.lt_or_ge offset c.utf8Size with inside | behind
        · -- The offset stands inside of the character, and the next line starts behind it.
          have ascending := pairwise_starts_linesFrom (start + c.utf8Size) rest
          rw [following, List.map_cons, List.pairwise_cons] at ascending
          have stops : (more.map Line.start).takeWhile (decide <| · ≤ start + offset) = [] := by
            cases more with
            | nil => rfl
            | cons next others =>
                have later : start + c.utf8Size < next.start := ascending.1 _ (by simp)
                have notReached : ¬ next.start ≤ start + offset := by omega
                simp [notReached]
          rw [stops, Nat.sub_eq_zero_of_le inside.le]
          rfl
        · have others := inductionHypothesis (start + c.utf8Size) (offset - c.utf8Size)
          have same : start + c.utf8Size + (offset - c.utf8Size) = start + offset := by omega
          rw [following, List.map_cons, same, List.takeWhile_cons_of_pos (by simp; omega),
            List.length_cons] at others
          rw [others]

namespace LineTable

variable {source : List Char}

/-- An offset stands behind the start of its line and in front of the next line. -/
theorem exists_position_eq (source : List Char) (offset : Nat) :
    ∃ earlier start later, (ofText source).starts = earlier ++ start :: later ∧ start ≤ offset ∧
      (∀ next ∈ later, offset < next) ∧
      (ofText source).position offset = (earlier.length + 1, offset - start + 1) := by
  have ascending : (ofText source).starts.Pairwise (· < ·) := pairwise_starts_linesFrom 0 source
  obtain ⟨more, starts⟩ := exists_starts_eq_cons source
  have filled : (ofText source).starts.takeWhile (decide <| · ≤ offset) ≠ [] := by
    simp [starts]
  obtain ⟨earlier, start, parts⟩ := (List.eq_nil_or_concat' _).resolve_left filled
  have inside : start ∈ (ofText source).starts.takeWhile (decide <| · ≤ offset) := by
    simp [parts]
  have whole := List.takeWhile_append_dropWhile (p := (decide <| · ≤ offset))
    (l := (ofText source).starts)
  rw [parts, List.append_assoc, List.singleton_append] at whole
  refine ⟨earlier, start, _, whole.symm, by simpa using List.mem_takeWhile_imp inside, ?_, ?_⟩
  · intro next later
    cases behind : (ofText source).starts.dropWhile (decide <| · ≤ offset) with
    | nil => simp [behind] at later
    | cons first others =>
        have notReached := List.head?_dropWhile_not (decide <| · ≤ offset) (ofText source).starts
        rw [← whole, behind] at ascending
        rw [behind] at notReached later
        have ordered := (List.pairwise_cons.mp (List.pairwise_cons.mp
          (List.pairwise_append.mp ascending).2.1).2).1
        have above : offset < first := by simpa using notReached
        rcases List.mem_cons.mp later with rfl | later
        · exact above
        · exact above.trans (ordered next later)
  · rw [position, parts]
    simp

/-- The line of an offset is told by the line feeds in front of it. -/
theorem position_fst_eq (source : List Char) (offset : Nat) :
    ((ofText source).position offset).1 = 1 + ((Utf8.encode source).take offset).count 10 := by
  have counted := length_takeWhile_starts 0 offset source
  rw [Nat.zero_add] at counted
  rw [Nat.add_comm, ← counted]
  rfl

/-- Where the line of an offset starts, the column begins to count. -/
theorem exists_getElem?_starts (source : List Char) (offset : Nat) :
    ∃ start, (ofText source).starts[((ofText source).position offset).1 - 1]? = some start ∧
      start ≤ offset ∧ ((ofText source).position offset).2 = offset - start + 1 := by
  obtain ⟨earlier, start, later, starts, reached, -, position⟩ := exists_position_eq source offset
  refine ⟨start, ?_, reached, by rw [position]⟩
  rw [position, starts, Nat.add_sub_cancel, List.getElem?_append_right (Nat.le_refl _),
    Nat.sub_self]
  rfl

/-- An offset stands in front of the line behind its own. -/
theorem lt_of_getElem?_starts {offset next : Nat}
    (starts : (ofText source).starts[((ofText source).position offset).1]? = some next) :
    offset < next := by
  obtain ⟨earlier, start, later, parts, -, above, position⟩ := exists_position_eq source offset
  have behind : earlier.length + 1 - earlier.length = 0 + 1 := by omega
  rw [position, parts, List.getElem?_append_right (Nat.le_succ _), behind,
    List.getElem?_cons_succ] at starts
  exact above next (List.mem_of_getElem? starts)

/-- Offsets stand in the order of their lines and, in one line, in that of their columns. -/
theorem strictMono_position (source : List Char) :
    StrictMono fun offset => toLex ((ofText source).position offset) := by
  intro first second ordered
  have fewer : ((Utf8.encode source).take first).count 10 ≤
      ((Utf8.encode source).take second).count 10 :=
    (List.take_sublist_take_left ordered.le).count_le 10
  have lines : ((ofText source).position first).1 ≤ ((ofText source).position second).1 := by
    rw [position_fst_eq, position_fst_eq]
    exact Nat.add_le_add_left fewer 1
  rw [Prod.Lex.toLex_lt_toLex]
  rcases lines.lt_or_eq with earlier | same
  · exact .inl earlier
  · obtain ⟨start, starts, reached, column⟩ := exists_getElem?_starts source first
    obtain ⟨start', starts', -, column'⟩ := exists_getElem?_starts source second
    rw [← same, starts, Option.some.injEq] at starts'
    subst starts'
    refine .inr ⟨same, ?_⟩
    rw [column, column']
    omega

end LineTable

namespace WordTable

variable {table : WordTable} {source : List Char} {offset number column : UInt32}

/-- A line and a column tell an offset of a source. -/
structure Tells (table : WordTable) (source : List Char) (offset number column : UInt32) : Prop where
  /-- The number of the line is one more than the number of line feeds in front of the offset. -/
  number_eq : number.toNat = 1 + ((Utf8.encode source).take offset.toNat).count 10
  number_pos : 1 ≤ number
  number_le : number.toNat ≤ table.starts.length
  column_pos : 1 ≤ column
  /-- The offset is found again from where the line starts and from the column. -/
  found : ∃ start, table.starts[number.toNat - 1]? = some start ∧
    start.toNat + column.toNat - 1 = offset.toNat
  /-- It stands in front of the next line, if there is one. -/
  inLine : ∀ next, table.starts[number.toNat]? = some next → offset < next

/-- What holds of the table of a source: it finds the line and the column of every offset up to the
end of the source, only that the greatest word may have no column. -/
structure PlacesExactly (table : WordTable) (source : List Char) : Prop where
  /-- Lines start one behind the other, the first one at the start of the source. -/
  head : table.starts.head? = some 0
  ascending : table.starts.Pairwise (· < ·)
  places : ∀ offset : UInt32, offset.toNat ≤ byteLength source → offset.toNat ≠ 2 ^ 32 - 1 →
    ∃ number column, table.position? offset = some (number, column) ∧
      table.Tells source offset number column
  /-- So no two offsets have one place, -/
  injective : ∀ first second place, table.position? first = some place →
    table.position? second = some place → first = second
  /-- and later offsets have later places. -/
  strictMono : ∀ first second place place', first < second → table.position? first = some place →
    table.position? second = some place' → toLex place < toLex place'

namespace Stores

variable (stores : table.Stores (LineTable.ofText source))

include stores

theorem head_starts : table.starts.head? = some 0 := by
  obtain ⟨more, starts⟩ := LineTable.exists_starts_eq_cons source
  have same := stores.starts
  rw [starts] at same
  cases words : table.starts with
  | nil => simp [words] at same
  | cons first others =>
      rw [words, List.map_cons, List.cons.injEq] at same
      exact congrArg some (UInt32.toNat_inj.mp same.1)

/-- A place in words is that of the line table. -/
theorem toNat_of_position?_eq (found : table.position? offset = some (number, column)) :
    (LineTable.ofText source).position offset.toNat = (number.toNat, column.toNat) := by
  rw [stores.position?_eq] at found
  split at found
  · rename_i words
    obtain ⟨rfl, rfl⟩ := Prod.mk.inj (Option.some.inj found)
    rw [UInt32.toNat_ofNat_of_lt' words.1, UInt32.toNat_ofNat_of_lt' words.2]
  · cases found

theorem tells_of_position?_eq (found : table.position? offset = some (number, column)) :
    table.Tells source offset number column := by
  have place := stores.toNat_of_position?_eq found
  obtain ⟨start, starts, reached, distance⟩ :=
    LineTable.exists_getElem?_starts source offset.toNat
  have lines := LineTable.position_fst_eq source offset.toNat
  have bounds := LineTable.position_fst_mem source offset.toNat
  rw [place] at starts distance lines bounds
  refine ⟨lines, UInt32.le_iff_toNat_le.mpr bounds.1, ?_, ?_, ?_, ?_⟩
  · rw [stores.length_starts]
    exact bounds.2
  · rw [UInt32.le_iff_toNat_le, UInt32.toNat_one]
    omega
  · rw [← stores.starts, List.getElem?_map] at starts
    obtain ⟨word, stands, rfl⟩ := Option.map_eq_some_iff.mp starts
    exact ⟨word, stands, by omega⟩
  · intro next stands
    have behind : (LineTable.ofText source).starts[number.toNat]? = some next.toNat := by
      rw [← stores.starts, List.getElem?_map, stands]
      rfl
    have line : ((LineTable.ofText source).position offset.toNat).1 = number.toNat := by
      rw [place]
    rw [← line] at behind
    exact UInt32.lt_iff_toNat_lt.mpr (LineTable.lt_of_getElem?_starts behind)

theorem lt_of_position?_eq {first second : UInt32} {place place' : UInt32 × UInt32}
    (ordered : first < second) (found : table.position? first = some place)
    (found' : table.position? second = some place') : toLex place < toLex place' := by
  have less := LineTable.strictMono_position source (UInt32.lt_iff_toNat_lt.mp ordered)
  dsimp only at less
  rw [stores.toNat_of_position?_eq found, stores.toNat_of_position?_eq found',
    Prod.Lex.toLex_lt_toLex] at less
  rw [Prod.Lex.toLex_lt_toLex, UInt32.lt_iff_toNat_lt, UInt32.lt_iff_toNat_lt, ← UInt32.toNat_inj]
  exact less

theorem placesExactly : table.PlacesExactly source where
  head := stores.head_starts
  ascending := stores.ascending
  places offset _ notGreatest := by
    have small : offset.toNat + 1 < UInt32.size := by
      have range := offset.toNat_lt_size
      have size : UInt32.size = 2 ^ 32 := rfl
      omega
    obtain ⟨number, column, found, -⟩ := stores.exists_position?_eq small
    exact ⟨number, column, found, stores.tells_of_position?_eq found⟩
  injective first second place found found' := by
    have same := (stores.toNat_of_position?_eq found).trans
      (stores.toNat_of_position?_eq found').symm
    exact UInt32.toNat_inj.mp ((LineTable.strictMono_position source).injective (congrArg toLex same))
  strictMono _ _ _ _ := stores.lt_of_position?_eq

end Stores

end WordTable

end Source

end Sequencer
