import Sequencer.Proofs.Source.Lines
import Sequencer.Proofs.Text.Slices
import Sequencer.Source.WordTable
import Mathlib.Data.List.Nodup
import Mathlib.Data.List.Perm.Subperm
import Mathlib.Data.UInt

/-!
# Line tables in words

A table in words and bytes does what a line table does, as far as sums and differences are words. On
a source whose length is a word it has a result for every offset below the greatest word, and it is
that of the line table (`WordTable.Stores.exists_position?_eq`, `WordTable.Stores.text?_eq`).
-/

namespace Sequencer

open Sequencer.Source Sequencer.Text

/-! ## Bytes of a text -/

namespace Text.Utf8

@[simp]
theorem encode_cons (c : Char) (rest : List Char) :
    encode (c :: rest) = String.utf8EncodeChar c ++ encode rest :=
  List.flatMap_cons

@[simp]
theorem encode_append (first second : List Char) :
    encode (first ++ second) = encode first ++ encode second :=
  List.flatMap_append

@[simp]
theorem length_encode (text : List Char) : (encode text).length = byteLength text := by
  induction text with
  | nil => rfl
  | cons c rest inductionHypothesis =>
      rw [encode_cons, List.length_append, String.length_utf8EncodeChar, inductionHypothesis,
        byteLength_cons]

/-- A byte below `0x80` is a character of its own. -/
theorem eq_singleton_of_mem_utf8EncodeChar {byte : UInt8} {c : Char}
    (inside : byte ∈ String.utf8EncodeChar c) (small : byte.toNat < 0x80) :
    String.utf8EncodeChar c = [byte] ∧ c.toNat = byte.toNat := by
  unfold String.utf8EncodeChar at inside ⊢
  dsimp only at inside ⊢
  split at inside
  · rename_i ascii
    have same : byte = UInt8.ofNat c.toNat := List.mem_singleton.mp inside
    have fits : c.toNat < 256 := Nat.lt_of_le_of_lt ascii (by decide)
    rw [if_pos ascii, same, UInt8.toNat_ofNat', Nat.mod_eq_of_lt fits]
    exact ⟨rfl, rfl⟩
  -- All bytes of a longer character have their highest bit set.
  · exfalso
    split at inside
    · simp only [List.mem_cons, List.not_mem_nil, or_false] at inside
      rcases inside with rfl | rfl <;> rw [UInt8.toNat_ofNat'] at small <;> omega
    · split at inside
      · simp only [List.mem_cons, List.not_mem_nil, or_false] at inside
        rcases inside with rfl | rfl | rfl <;> rw [UInt8.toNat_ofNat'] at small <;> omega
      · simp only [List.mem_cons, List.not_mem_nil, or_false] at inside
        rcases inside with rfl | rfl | rfl | rfl <;> rw [UInt8.toNat_ofNat'] at small <;> omega

theorem lineFeed_mem_utf8EncodeChar {c : Char} (inside : 10 ∈ String.utf8EncodeChar c) :
    c = '\n' :=
  Char.toNat_inj.mp (eq_singleton_of_mem_utf8EncodeChar inside (by decide)).2

theorem getLast?_utf8EncodeChar_eq_iff {c : Char} :
    (String.utf8EncodeChar c).getLast? = some 13 ↔ c = '\r' := by
  constructor
  · intro last
    have inside := List.mem_of_getLast? last
    exact Char.toNat_inj.mp (eq_singleton_of_mem_utf8EncodeChar inside (by decide)).2
  · rintro rfl
    rfl

/-- The byte in front of an offset is the last one of the text in front of it. -/
theorem getElem?_encode_pred {before : List Char} (filled : before ≠ []) (after : List Char) :
    (encode (before ++ after))[byteLength before - 1]? = (encode before).getLast? := by
  have positive := byteLength_pos filled
  have inside : byteLength before - 1 < (encode before).length := by
    rw [length_encode]
    omega
  rw [encode_append, List.getElem?_append_left inside, List.getLast?_eq_getElem?, length_encode]

theorem exists_getLast?_encode {text : List Char} (filled : text ≠ []) :
    ∃ byte, (encode text).getLast? = some byte ∧ (byte = 13 ↔ text.getLast? = some '\r') := by
  obtain ⟨earlier, c, rfl⟩ := (List.eq_nil_or_concat' text).resolve_left filled
  have bytes : encode (earlier ++ [c]) = encode earlier ++ String.utf8EncodeChar c := by
    rw [encode_append]
    exact congrArg _ (List.append_nil _)
  obtain ⟨byte, last⟩ : ∃ byte, (String.utf8EncodeChar c).getLast? = some byte :=
    ⟨_, List.getLast?_eq_some_getLast String.utf8EncodeChar_ne_nil⟩
  refine ⟨byte, ?_, ?_⟩
  · rw [bytes, List.getLast?_append_of_ne_nil _ String.utf8EncodeChar_ne_nil, last]
  · rw [List.getLast?_concat, Option.some.injEq, ← getLast?_utf8EncodeChar_eq_iff, last,
      Option.some.injEq]

end Text.Utf8

/-! ## Words -/

namespace Source.Word

variable {first second word : UInt32} {words : List UInt32}

theorem exists_sum?_eq (first second : UInt32)
    (fits : first.toNat + second.toNat < UInt32.size) :
    ∃ word, sum? first second = some word ∧ word.toNat = first.toNat + second.toNat :=
  ⟨_, if_pos fits, by rw [UInt32.toNat_add, Nat.mod_eq_of_lt fits]⟩

/-- The word behind a word is there except for the greatest one. -/
theorem sum?_one (word : UInt32) :
    sum? word 1 =
      if word.toNat + 1 < UInt32.size then some (UInt32.ofNat (word.toNat + 1)) else none := by
  have same : UInt32.ofNat (word.toNat + 1) = word + 1 := by
    rw [UInt32.ofNat_add, UInt32.ofNat_toNat]
    rfl
  rw [sum?, UInt32.toNat_one, same]

theorem exists_difference?_eq (first second : UInt32) (ordered : second.toNat ≤ first.toNat) :
    ∃ word, difference? first second = some word ∧ word.toNat = first.toNat - second.toNat :=
  have ordered := UInt32.le_iff_toNat_le.mpr ordered
  ⟨_, if_pos ordered, UInt32.toNat_sub_of_le _ _ ordered⟩

theorem toNat_ofLength {length : Nat} (short : length < UInt32.size) :
    (ofLength length).toNat = length := by
  rw [ofLength, if_pos short, UInt32.toNat_ofNat_of_lt' short]

/-- A word is not cut off by a sum that is none. -/
theorem toNat_min_sumOrGreatest (word first second : UInt32) :
    (min word (sumOrGreatest first second)).toNat =
      min word.toNat (first.toNat + second.toNat) := by
  rw [UInt32.toNat_min]
  by_cases fits : first.toNat + second.toNat < UInt32.size
  · obtain ⟨sum, done, sumEq⟩ := exists_sum?_eq first second fits
    rw [sumOrGreatest, done, Option.getD_some, sumEq]
  · have none : sum? first second = none := if_neg fits
    have below : word.toNat ≤ greatest.toNat := Nat.le_of_lt_succ word.toNat_lt
    have range := word.toNat_lt_size
    rw [sumOrGreatest, none, Option.getD_none, Nat.min_eq_left below, Nat.min_eq_left (by omega)]

/-- The words of an ascending list up to a word are those below it, and the word if it is there. -/
theorem takeWhile_le_eq (ascending : words.Pairwise (· < ·)) (word : UInt32) :
    words.takeWhile (· ≤ word) = words.takeWhile (· < word) ++
      if words[(words.takeWhile (· < word)).length]? = some word then [word] else [] := by
  induction words with
  | nil => rfl
  | cons head rest inductionHypothesis =>
      obtain ⟨behind, ascending⟩ := List.pairwise_cons.mp ascending
      rcases Std.lt_trichotomy head word with below | rfl | above
      · simp [below, UInt32.le_of_lt below, inductionHypothesis ascending]
      · have none : rest.takeWhile (· ≤ head) = [] := by
          cases rest with
          | nil => rfl
          | cons next others =>
              have notReached := UInt32.not_le.mpr (behind next List.mem_cons_self)
              simp [notReached]
        simp [none]
      · have notReached := UInt32.not_le.mpr above
        have notBelow : ¬ head < word := fun below => UInt32.lt_asymm below above
        simp [notReached, notBelow, (UInt32.ne_of_lt above).symm]

/-- A search in an ascending list finds the last word up to the one that is searched for. -/
theorem exists_search?_eq (ascending : words.Pairwise (· < ·)) (word : UInt32) :
    ∃ found, search? words word = some found ∧
      upTo found = (words.takeWhile (· ≤ word)).length - 1 := by
  refine ⟨_, if_pos ascending, ?_⟩
  rw [takeWhile_le_eq ascending]
  by_cases found : words[(words.takeWhile (· < word)).length]? = some word
  · simp [found, upTo]
  · simp [found, upTo]

/-- An ascending list has no more words up to a number than there are such numbers. -/
theorem length_takeWhile_le_succ (ascending : words.Pairwise (· < ·)) (word : UInt32) :
    (words.takeWhile (· ≤ word)).length ≤ word.toNat + 1 := by
  have taken : (words.takeWhile (· ≤ word)).Pairwise (· < ·) :=
    ascending.sublist (List.takeWhile_sublist _)
  have distinct : ((words.takeWhile (· ≤ word)).map UInt32.toNat).Nodup :=
    (taken.imp UInt32.ne_of_lt).map UInt32.toNat fun _ _ different same =>
      different (UInt32.toNat_inj.mp same)
  have inside : (words.takeWhile (· ≤ word)).map UInt32.toNat ⊆ List.range (word.toNat + 1) := by
    intro number inside
    obtain ⟨other, within, rfl⟩ := List.mem_map.mp inside
    have below : other ≤ word := by simpa using List.mem_takeWhile_imp within
    exact List.mem_range.mpr (Nat.lt_succ_of_le (UInt32.le_iff_toNat_le.mp below))
  simpa using (distinct.subperm inside).length_le

end Word

/-! ## Lines -/

theorem pairwise_starts_linesFrom (start : Nat) (text : List Char) :
    ((linesFrom start text).map Line.start).Pairwise (· < ·) := by
  induction text generalizing start with
  | nil => exact List.pairwise_singleton ..
  | cons c rest inductionHypothesis =>
      have ascending := inductionHypothesis (start + c.utf8Size)
      by_cases lineFeed : c = '\n'
      · subst lineFeed
        refine List.pairwise_cons.mpr ⟨fun other inside => ?_, ascending⟩
        obtain ⟨line, within, rfl⟩ := List.mem_map.mp inside
        exact (start_mem_linesFrom within).1
      · obtain ⟨body, more, following, lines⟩ := linesFrom_cons lineFeed start rest
        rw [following, List.map_cons, List.pairwise_cons] at ascending
        rw [lines, List.map_cons, List.pairwise_cons]
        refine ⟨fun other inside => ?_, ascending.2⟩
        exact (Nat.le_add_right ..).trans_lt (ascending.1 other inside)

/-- A line stands in a text behind other text, up to the line feed in front of the next line or up
to the end. -/
structure Line.Stands (start : Nat) (text : List Char) (line : Line) (next : Option Line)
    (before after : List Char) : Prop where
  text_eq : text = before ++ (line.body ++ after)
  start_eq : line.start = start + byteLength before
  last : next = none → after = []
  ends : ∀ following, next = some following →
    following.start = line.start + byteLength line.body + 1

theorem exists_stands {start index : Nat} {text : List Char} {line : Line}
    (found : (linesFrom start text)[index]? = some line) :
    ∃ before after, line.Stands start text (linesFrom start text)[index + 1]? before after := by
  induction text generalizing start index line with
  | nil =>
      cases index with
      | zero =>
          cases found
          exact ⟨[], [], rfl, rfl, fun _ => rfl, nofun⟩
      | succ index => cases found
  | cons c rest inductionHypothesis =>
      by_cases lineFeed : c = '\n'
      · subst lineFeed
        rw [linesFrom_lineFeed] at found ⊢
        cases index with
        | zero =>
            cases found
            obtain ⟨body, more, following⟩ := exists_linesFrom_eq_cons (start + 1) rest
            refine ⟨[], '\n' :: rest, rfl, rfl, ?_, ?_⟩ <;> simp [following]
        | succ index =>
            obtain ⟨before, after, text_eq, start_eq, last, ends⟩ := inductionHypothesis found
            refine ⟨'\n' :: before, after, congrArg ('\n' :: ·) text_eq, ?_, last, ends⟩
            rw [start_eq, byteLength_cons, Nat.add_assoc]
            rfl
      · obtain ⟨body, more, following, lines⟩ := linesFrom_cons lineFeed start rest
        rw [lines] at found ⊢
        cases index with
        | zero =>
            cases found
            have found : (linesFrom (start + c.utf8Size) rest)[0]? =
                some ⟨start + c.utf8Size, body⟩ := by
              rw [following]
              rfl
            obtain ⟨before, after, text_eq, start_eq, last, ends⟩ := inductionHypothesis found
            -- The line starts where the rest does, so nothing of the rest stands in front of it.
            have nothing : before = [] := by
              by_contra filled
              have positive := byteLength_pos filled
              dsimp only at start_eq
              omega
            subst nothing
            rw [following] at last ends
            refine ⟨[], after, congrArg (c :: ·) text_eq, rfl, last, fun next same => ?_⟩
            rw [ends next same, byteLength_cons]
            dsimp only
            omega
        | succ index =>
            have found' : (linesFrom (start + c.utf8Size) rest)[index + 1]? = some line := by
              rw [following]
              exact found
            obtain ⟨before, after, text_eq, start_eq, last, ends⟩ := inductionHypothesis found'
            rw [following] at last ends
            refine ⟨c :: before, after, congrArg (c :: ·) text_eq, ?_, last, ends⟩
            rw [start_eq, byteLength_cons, Nat.add_assoc]

/-- The last byte of a line tells whether a carriage return ends the line. -/
theorem Line.Stands.exists_byte {source : List Char} {line : Line} {next : Option Line}
    {before after : List Char} (stands : line.Stands 0 source next before after)
    (filled : line.body ≠ []) :
    ∃ byte, (Utf8.encode source)[line.start + byteLength line.body - 1]? = some byte ∧
      (byte = 13 ↔ line.body.getLast? = some '\r') := by
  have longer : before ++ line.body ≠ [] := List.append_ne_nil_of_right_ne_nil _ filled
  obtain ⟨byte, last, isReturn⟩ := Utf8.exists_getLast?_encode longer
  rw [List.getLast?_append_of_ne_nil _ filled] at isReturn
  refine ⟨byte, ?_, isReturn⟩
  rw [stands.start_eq, Nat.zero_add, ← byteLength_append, stands.text_eq, ← List.append_assoc,
    Utf8.getElem?_encode_pred longer, last]

/-! ## Line tables -/

namespace WordTable

/-- A table in words stores a line table. -/
structure Stores (table : WordTable) (lines : LineTable) : Prop where
  starts : table.starts.map UInt32.toNat = lines.starts
  length : table.length.toNat = lines.length

theorem Stores.length_starts {table : WordTable} {lines : LineTable} (stores : table.Stores lines) :
    table.starts.length = lines.count := by
  rw [← LineTable.length_starts, ← stores.starts, List.length_map]

theorem startsFrom?_append {first : List UInt8} (noLineFeed : 10 ∉ first) (index : Nat)
    (second : List UInt8) :
    startsFrom? index (first ++ second) = startsFrom? (index + first.length) second := by
  induction first generalizing index with
  | nil => rfl
  | cons byte rest inductionHypothesis =>
      rw [List.mem_cons, not_or] at noLineFeed
      rw [List.cons_append, startsFrom?, if_neg (Ne.symm noLineFeed.1),
        inductionHypothesis noLineFeed.2, List.length_cons, Nat.add_assoc, Nat.add_comm 1]

/-- There is one line where there is no line feed. -/
theorem ofBytes?_of_notMem {text : List Char} (single : '\n' ∉ text) :
    ofBytes? (Utf8.encode text) = some ⟨[0], UInt32.ofNat (byteLength text)⟩ := by
  have noLineFeed : 10 ∉ Utf8.encode text := by
    rw [Utf8.encode, List.mem_flatMap]
    rintro ⟨c, inside, byte⟩
    exact single (Utf8.lineFeed_mem_utf8EncodeChar byte ▸ inside)
  have scanned := startsFrom?_append noLineFeed 0 []
  rw [List.append_nil] at scanned
  rw [ofBytes?, scanned, Utf8.length_encode]
  rfl

/-- The greatest word has no column in the first line. -/
theorem position?_eq_none (length : UInt32) :
    position? ⟨[0], length⟩ (UInt32.ofNat (2 ^ 32 - 1)) = none :=
  rfl

/-- The offsets behind the line feeds of a text are those at which its lines start. -/
theorem exists_startsFrom?_eq (index : Nat) (text : List Char)
    (short : index + byteLength text < UInt32.size) :
    ∃ starts, startsFrom? index (Utf8.encode text) = some starts ∧
      index :: starts.map UInt32.toNat = (linesFrom index text).map Line.start := by
  induction text generalizing index with
  | nil => exact ⟨[], rfl, rfl⟩
  | cons c rest inductionHypothesis =>
      rw [byteLength_cons, ← Nat.add_assoc] at short
      obtain ⟨starts, scanned, same⟩ := inductionHypothesis _ short
      rw [Utf8.encode_cons]
      by_cases lineFeed : c = '\n'
      · subst lineFeed
        have bytes : String.utf8EncodeChar '\n' = [10] := rfl
        have scanned' : startsFrom? (index + 1) (Utf8.encode rest) = some starts := scanned
        have fits : index + 1 < UInt32.size := Nat.lt_of_le_of_lt (Nat.le_add_right ..) short
        have word : (UInt32.ofNat index).toNat = index :=
          UInt32.toNat_ofNat_of_lt' (Nat.lt_of_succ_lt fits)
        obtain ⟨next, sum, behind⟩ := Word.exists_sum?_eq (UInt32.ofNat index) 1 (by rwa [word])
        rw [word] at behind
        refine ⟨next :: starts, ?_, ?_⟩
        · rw [bytes, List.singleton_append, startsFrom?, if_pos rfl, sum, scanned']
          rfl
        · rw [linesFrom_lineFeed, List.map_cons, List.map_cons, behind]
          exact congrArg (index :: ·) same
      · obtain ⟨body, more, following, lines⟩ := linesFrom_cons lineFeed index rest
        refine ⟨starts, ?_, ?_⟩
        · rw [startsFrom?_append (mt Utf8.lineFeed_mem_utf8EncodeChar lineFeed),
            String.length_utf8EncodeChar, scanned]
        · rw [following] at same
          rw [lines]
          exact congrArg (index :: ·) (List.cons.inj same).2

/-- The table of a source whose length is a word. -/
theorem exists_ofBytes?_eq {source : List Char} (short : byteLength source < UInt32.size) :
    ∃ table, ofBytes? (Utf8.encode source) = some table ∧
      table.Stores (LineTable.ofText source) := by
  obtain ⟨starts, scanned, same⟩ :=
    exists_startsFrom?_eq 0 source (by rwa [Nat.zero_add])
  refine ⟨⟨0 :: starts, UInt32.ofNat (Utf8.encode source).length⟩, ?_, same, ?_⟩
  · rw [ofBytes?, scanned]
    rfl
  · rw [Utf8.length_encode, UInt32.toNat_ofNat_of_lt' short]
    rfl

namespace Stores

variable {table : WordTable} {source : List Char} {number : UInt32}

theorem ascending (stores : table.Stores (LineTable.ofText source)) :
    table.starts.Pairwise (· < ·) := by
  have starts := pairwise_starts_linesFrom 0 source
  have same : (linesFrom 0 source).map Line.start = table.starts.map UInt32.toNat :=
    stores.starts.symm
  rw [same, List.pairwise_map] at starts
  exact starts.imp UInt32.lt_iff_toNat_lt.mpr

/-- The last line that starts up to an offset. -/
theorem exists_takeWhile_eq (stores : table.Stores (LineTable.ofText source)) (offset : UInt32) :
    ∃ earlier start, table.starts.takeWhile (· ≤ offset) = earlier ++ [start] ∧
      start.toNat ≤ offset.toNat ∧
      (LineTable.ofText source).position offset.toNat =
        (earlier.length + 1, offset.toNat - start.toNat + 1) := by
  have reached : (LineTable.ofText source).starts.takeWhile (· ≤ offset.toNat) =
      (table.starts.takeWhile (· ≤ offset)).map UInt32.toNat := by
    rw [← stores.starts, List.takeWhile_map]
    simp [Function.comp_def, UInt32.le_iff_toNat_le]
  have filled : table.starts.takeWhile (· ≤ offset) ≠ [] := by
    intro nothing
    obtain ⟨more, starts⟩ := LineTable.exists_starts_eq_cons source
    simp [starts, nothing] at reached
  obtain ⟨earlier, start, parts⟩ := (List.eq_nil_or_concat' _).resolve_left filled
  have below : start ≤ offset := by
    have inside : start ∈ table.starts.takeWhile (· ≤ offset) := by simp [parts]
    simpa using List.mem_takeWhile_imp inside
  refine ⟨earlier, start, parts, UInt32.le_iff_toNat_le.mp below, ?_⟩
  rw [LineTable.position, reached, parts]
  simp

/-- The line and the column of an offset, if both are words. -/
theorem position?_eq (stores : table.Stores (LineTable.ofText source)) (offset : UInt32) :
    table.position? offset =
      if ((LineTable.ofText source).position offset.toNat).1 < UInt32.size ∧
          ((LineTable.ofText source).position offset.toNat).2 < UInt32.size then
        some (UInt32.ofNat ((LineTable.ofText source).position offset.toNat).1,
          UInt32.ofNat ((LineTable.ofText source).position offset.toNat).2)
      else none := by
  obtain ⟨earlier, start, parts, below, position⟩ := stores.exists_takeWhile_eq offset
  obtain ⟨found, searched, index⟩ := Word.exists_search?_eq stores.ascending offset
  have fewer := Word.length_takeWhile_le_succ stores.ascending offset
  rw [parts, List.length_append, List.length_singleton, Nat.add_sub_cancel] at index
  rw [parts, List.length_append, List.length_singleton] at fewer
  have stands : table.starts[earlier.length]? = some start := by
    rw [← List.takeWhile_append_dropWhile (p := (· ≤ offset)) (l := table.starts), parts]
    simp
  have range := offset.toNat_lt_size
  have word : (UInt32.ofNat earlier.length).toNat = earlier.length :=
    UInt32.toNat_ofNat_of_lt' (by omega)
  obtain ⟨distance, difference, distanceEq⟩ := Word.exists_difference?_eq offset start below
  have column := Word.sum?_one distance
  have number := Word.sum?_one (UInt32.ofNat earlier.length)
  rw [distanceEq] at column
  rw [word] at number
  simp only [position?, searched, index, stands, difference, Option.bind_eq_bind,
    Option.bind_some, Option.getD_some, column, number, position]
  by_cases columnFits : offset.toNat - start.toNat + 1 < UInt32.size
  · by_cases numberFits : earlier.length + 1 < UInt32.size
    · simp [columnFits, numberFits]
    · simp [columnFits, numberFits]
  · simp [columnFits]

/-- The line and the column of an offset below the greatest word. -/
theorem exists_position?_eq (stores : table.Stores (LineTable.ofText source)) {offset : UInt32}
    (small : offset.toNat + 1 < UInt32.size) :
    ∃ number column, table.position? offset = some (number, column) ∧
      (LineTable.ofText source).position offset.toNat = (number.toNat, column.toNat) := by
  obtain ⟨earlier, start, parts, -, position⟩ := stores.exists_takeWhile_eq offset
  have fewer := Word.length_takeWhile_le_succ stores.ascending offset
  rw [parts, List.length_append, List.length_singleton] at fewer
  have number : earlier.length + 1 < UInt32.size := by omega
  have column : offset.toNat - start.toNat + 1 < UInt32.size := by omega
  have found := stores.position?_eq offset
  rw [position, if_pos ⟨number, column⟩] at found
  refine ⟨_, _, found, ?_⟩
  rw [position, UInt32.toNat_ofNat_of_lt' number, UInt32.toNat_ofNat_of_lt' column]

section

variable {index : Nat} {line : Line}

theorem getElem?_starts (stores : table.Stores (LineTable.ofText source)) (index : Nat) :
    (table.starts[index]?).map UInt32.toNat = (linesFrom 0 source)[index]?.map Line.start := by
  rw [← List.getElem?_map, stores.starts, LineTable.starts, List.getElem?_map]
  rfl

theorem exists_start (stores : table.Stores (LineTable.ofText source))
    (found : (linesFrom 0 source)[index]? = some line) :
    ∃ start, table.starts[index]? = some start ∧ start.toNat = line.start := by
  have same := stores.getElem?_starts index
  rw [found] at same
  exact Option.map_eq_some_iff.mp same

theorem exists_stop (stores : table.Stores (LineTable.ofText source))
    (found : (linesFrom 0 source)[index]? = some line) :
    ∃ stop, table.stop? index = some stop ∧ stop.toNat = line.start + byteLength line.body := by
  obtain ⟨before, after, text_eq, start_eq, last, ends⟩ := exists_stands found
  have same := stores.getElem?_starts (index + 1)
  unfold stop?
  cases next : (linesFrom 0 source)[index + 1]? with
  | none =>
      rw [next] at same
      rw [Option.map_eq_none_iff.mp same]
      refine ⟨_, rfl, ?_⟩
      rw [stores.length, LineTable.ofText, start_eq, text_eq, last next]
      simp
  | some following =>
      rw [next] at same
      obtain ⟨start, stands, startsAt⟩ := Option.map_eq_some_iff.mp same
      have behind := ends following next
      obtain ⟨stop, difference, stopEq⟩ :=
        Word.exists_difference?_eq start 1 (by rw [UInt32.toNat_one]; omega)
      rw [stands]
      refine ⟨stop, difference, ?_⟩
      rw [stopEq, startsAt, behind, UInt32.toNat_one, Nat.add_sub_cancel]

end

/-- The bounds of a line are those of its text. -/
theorem bounds?_eq (stores : table.Stores (LineTable.ofText source)) {line : Line}
    (positive : 1 ≤ number.toNat)
    (found : (linesFrom 0 source)[number.toNat - 1]? = some line) :
    table.bounds? number (Utf8.encode source) = some (line.start, line.stop) := by
  have maximum : (max number 1).toNat = number.toNat := by
    rw [UInt32.toNat_max, UInt32.toNat_one, Nat.max_eq_left positive]
  obtain ⟨index, difference, indexEq⟩ :=
    Word.exists_difference?_eq (max number 1) 1 (by rwa [maximum])
  rw [maximum, UInt32.toNat_one] at indexEq
  rw [← indexEq] at found
  obtain ⟨start, stands, startsAt⟩ := stores.exists_start found
  obtain ⟨stop, ends, endsAt⟩ := stores.exists_stop found
  obtain ⟨before, after, inSource⟩ := exists_stands found
  simp only [bounds?, difference, stands, ends, Option.bind_eq_bind, Option.bind_some]
  by_cases nothing : line.body = []
  · have shown : line.text = [] := by simp [Line.text, nothing]
    have notBelow : ¬ start < stop := by
      rw [UInt32.lt_iff_toNat_lt, startsAt, endsAt, nothing]
      exact Nat.lt_irrefl _
    rw [if_neg notBelow, startsAt, endsAt, nothing, Line.stop, shown]
  · have positive := byteLength_pos nothing
    have below : start < stop := by
      rw [UInt32.lt_iff_toNat_lt, startsAt, endsAt]
      exact Nat.lt_add_of_pos_right positive
    obtain ⟨last, difference, lastEq⟩ :=
      Word.exists_difference?_eq stop 1 (by rw [UInt32.toNat_one]; omega)
    obtain ⟨byte, read, isReturn⟩ := inSource.exists_byte nothing
    rw [endsAt, UInt32.toNat_one] at lastEq
    rw [← lastEq] at read
    rw [if_pos below, difference, Option.bind_some, read, Option.bind_some, startsAt, Line.stop]
    by_cases carriageReturn : byte = 13
    · have shorter := Line.byteLength_body line.start (isReturn.mp carriageReturn)
      have length : last.toNat = line.start + byteLength line.text := by
        rw [lastEq, shorter]
        rfl
      rw [if_pos carriageReturn, length]
    · have whole : line.text = line.body := if_neg (mt isReturn.mpr carriageReturn)
      rw [if_neg carriageReturn, endsAt, whole]

/-- The text of a line is a slice of the source. -/
theorem text?_eq (stores : table.Stores (LineTable.ofText source)) (positive : 1 ≤ number.toNat)
    (inside : number.toNat ≤ (LineTable.ofText source).count) :
    table.text? number source = some ((LineTable.ofText source).line number.toNat).text := by
  have index : number.toNat - 1 < (linesFrom 0 source).length :=
    Nat.lt_of_lt_of_le (Nat.sub_one_lt_of_lt positive) inside
  have found := List.getElem?_eq_getElem index
  have same : (LineTable.ofText source).line number.toNat =
      (linesFrom 0 source)[number.toNat - 1] := by
    rw [LineTable.line, Nat.max_eq_left positive, LineTable.ofText, found, Option.getD_some]
  rw [same]
  generalize (linesFrom 0 source)[number.toNat - 1] = line at found
  obtain ⟨before, after, text_eq, start_eq, -⟩ := exists_stands found
  obtain ⟨ending, parts⟩ : line.text <+: line.body := by
    unfold Line.text
    split
    · exact List.dropLast_prefix _
    · exact List.prefix_refl _
  rw [text?, stores.bounds?_eq positive found, Option.bind_eq_bind, Option.bind_some]
  refine slice?_eq_some_iff.mpr ⟨before, ending ++ after, ?_, ?_, ?_⟩
  · rw [List.append_assoc, ← List.append_assoc line.text, parts]
    exact text_eq
  · rw [start_eq, Nat.zero_add]
  · rw [Line.stop, start_eq, Nat.zero_add]

end Stores

/-- The text of a line is not longer than the source. -/
theorem byteLength_le_of_text?_eq {table : WordTable} {number : UInt32} {source text : List Char}
    (shown : table.text? number source = some text) : byteLength text ≤ byteLength source := by
  obtain ⟨⟨start, stop⟩, -, cut⟩ := Option.bind_eq_some_iff.mp shown
  obtain ⟨before, after, parts, -⟩ := slice?_eq_some_iff.mp cut
  rw [parts, byteLength_append, byteLength_append]
  omega

end WordTable

/-! ## Blanks in front of a text -/

/-- A text behind blanks. -/
def indented (count : Nat) (text : List Char) : List Char := List.replicate count ' ' ++ text

theorem indented_succ (count : Nat) (text : List Char) :
    indented (count + 1) text = ' ' :: indented count text :=
  rfl

theorem byteLength_indented (count : Nat) (text : List Char) :
    byteLength (indented count text) = count + byteLength text := by
  induction count with
  | zero => exact (Nat.zero_add _).symm
  | succ count inductionHypothesis =>
      have blank : ' '.utf8Size = 1 := rfl
      rw [indented_succ, byteLength_cons, inductionHypothesis, blank]
      omega

/-- The beginning of a text stands behind the blanks. -/
theorem slice?_indented (count : Nat) (first second : List Char) :
    slice? (indented count (first ++ second)) count (count + byteLength first) = some first := by
  refine slice?_eq_some_iff.mpr ⟨indented count [], second, ?_, ?_, ?_⟩
  · rw [indented, indented, List.append_nil, List.append_assoc]
  · exact byteLength_indented count []
  · exact congrArg (· + byteLength first) (byteLength_indented count [])

theorem notMem_indented {text : List Char} (single : '\n' ∉ text) {count : Nat} :
    '\n' ∉ indented count text := by
  rw [indented, List.mem_append, not_or]
  exact ⟨fun blank => absurd (List.eq_of_mem_replicate blank) (by decide), single⟩

end Source

end Sequencer
