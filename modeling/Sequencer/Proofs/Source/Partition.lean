import Sequencer.Proofs.Source.Words

/-!
# Lines make up their source

Between the text of a line and the next line stand a line feed and, in front of it, the carriage
return that the text leaves out; behind the last line nothing but such a carriage return may stand.
Put together in their order, the texts of the lines and what ends them give the source back
(`LineTable.partitions_of_source`). On a source whose length is a word the table in words finds the
same lines, whatever numbers it is asked for (`WordTable.partitions_ofBytes`).
-/

namespace Sequencer

open Sequencer.Source Sequencer.Text

namespace Source

/-! ## Lines and their ends -/

/-- A line is its text and the carriage return that the text leaves out. -/
theorem Line.exists_body_eq (line : Line) :
    ∃ ending, line.body = line.text ++ ending ∧
      (ending = [] ∧ line.text.getLast? ≠ some '\r' ∨ ending = ['\r']) := by
  unfold text
  split
  · rename_i ends
    obtain ⟨shown, parts⟩ := List.getLast?_eq_some_iff.mp ends
    refine ⟨['\r'], ?_, .inr rfl⟩
    rw [parts, List.dropLast_concat]
  · rename_i other
    exact ⟨[], (List.append_nil _).symm, .inl ⟨rfl, other⟩⟩

/-- A line feed stands in front of every line but the first. -/
theorem exists_lineFeed_before {start index : Nat} {text : List Char} {line : Line}
    (found : (linesFrom start text)[index + 1]? = some line) :
    ∃ before after, text = before ++ '\n' :: after ∧
      line.start = start + byteLength before + 1 := by
  induction text generalizing start index with
  | nil => cases found
  | cons c rest inductionHypothesis =>
      by_cases lineFeed : c = '\n'
      · subst lineFeed
        rw [linesFrom_lineFeed, List.getElem?_cons_succ] at found
        cases index with
        | zero =>
            obtain ⟨body, more, lines⟩ := exists_linesFrom_eq_cons (start + 1) rest
            rw [lines] at found
            cases found
            exact ⟨[], rest, rfl, rfl⟩
        | succ index =>
            obtain ⟨before, after, rfl, place⟩ := inductionHypothesis found
            have one : '\n'.utf8Size = 1 := rfl
            refine ⟨'\n' :: before, after, rfl, ?_⟩
            rw [place, byteLength_cons, one]
            omega
      · obtain ⟨body, more, following, lines⟩ := linesFrom_cons lineFeed start rest
        rw [lines, List.getElem?_cons_succ] at found
        have later : (linesFrom (start + c.utf8Size) rest)[index + 1]? = some line := by
          rw [following, List.getElem?_cons_succ, found]
        obtain ⟨before, after, rfl, place⟩ := inductionHypothesis later
        refine ⟨c :: before, after, rfl, ?_⟩
        rw [place, byteLength_cons, Nat.add_assoc start]

/-- A line feed ends every line that has another one behind it. -/
theorem Line.Stands.exists_lineFeed {source : List Char} {index : Nat} {line following : Line}
    {before after : List Char}
    (stands : line.Stands 0 source (linesFrom 0 source)[index + 1]? before after)
    (next : (linesFrom 0 source)[index + 1]? = some following) :
    ∃ rest, after = '\n' :: rest := by
  obtain ⟨before', rest, source_eq, place⟩ := exists_lineFeed_before next
  have parts : (before ++ line.body) ++ after = before' ++ '\n' :: rest := by
    rw [← source_eq, stands.text_eq, List.append_assoc]
  have same : byteLength (before ++ line.body) = byteLength before' := by
    have behind := stands.ends following next
    rw [stands.start_eq] at behind
    rw [byteLength_append]
    omega
  exact ⟨rest, (append_inj_of_byteLength parts same).2⟩

namespace LineTable

variable {source : List Char} {index number : Nat} {line : Line}

/-- The offset at which the line with an index starts, or else the end of the source. -/
def place (source : List Char) (index : Nat) : Nat :=
  ((ofText source).starts[index]?).getD (byteLength source)

/-- What stands behind the text of a line in front of the next line, or else in front of the end of
the source. -/
def terminator? (source : List Char) (number : Nat) : Option (List Char) :=
  slice? source ((ofText source).line number).stop (place source number)

theorem place_eq_start (found : (linesFrom 0 source)[index]? = some line) :
    place source index = line.start := by
  rw [place, starts, ofText, List.getElem?_map, found]
  rfl

theorem place_of_none (none : (linesFrom 0 source)[index]? = none) :
    place source index = byteLength source := by
  rw [place, starts, ofText, List.getElem?_map, none]
  rfl

theorem line_succ_eq (found : (linesFrom 0 source)[index]? = some line) :
    (ofText source).line (index + 1) = line := by
  rw [LineTable.line, Nat.max_eq_left (Nat.le_add_left ..), Nat.add_sub_cancel, ofText, found]
  rfl

/-- A line is cut out of its source: its text, and behind it what ends the line. -/
theorem exists_terminator (found : (linesFrom 0 source)[index]? = some line) :
    slice? source line.start line.stop = some line.text ∧
    ∃ ending, (ending = [] ∧ line.text.getLast? ≠ some '\r' ∨ ending = ['\r']) ∧
      terminator? source (index + 1) =
        some (ending ++ if index + 1 < (ofText source).count then ['\n'] else []) := by
  obtain ⟨before, after, stands⟩ := exists_stands found
  obtain ⟨ending, body, ends⟩ := line.exists_body_eq
  have start : byteLength before = line.start := by
    rw [stands.start_eq, Nat.zero_add]
  have stop : byteLength (before ++ line.text) = line.stop := by
    rw [byteLength_append, start]
    rfl
  have source_eq := stands.text_eq
  rw [body] at source_eq
  refine ⟨slice?_eq_some_iff.mpr ⟨before, ending ++ after, ?_, start, ?_⟩, ending, ends, ?_⟩
  · rw [source_eq]
    simp
  · rw [← byteLength_append, stop]
  rw [terminator?, line_succ_eq found]
  cases next : (linesFrom 0 source)[index + 1]? with
  | none =>
      have last : ¬ index + 1 < (ofText source).count :=
        Nat.not_lt.mpr (List.getElem?_eq_none_iff.mp next)
      rw [place_of_none next, if_neg last]
      refine slice?_eq_some_iff.mpr ⟨before ++ line.text, [], ?_, stop, ?_⟩
      · rw [source_eq, stands.last next]
        simp
      · rw [source_eq, stands.last next]
        simp [Nat.add_assoc]
  | some following =>
      have inside : index + 1 < (ofText source).count :=
        (List.getElem?_eq_some_iff.mp next).1
      obtain ⟨rest, lineFeed⟩ := stands.exists_lineFeed next
      rw [place_eq_start next, if_pos inside]
      refine slice?_eq_some_iff.mpr ⟨before ++ line.text, rest, ?_, stop, ?_⟩
      · rw [source_eq, lineFeed]
        simp
      · rw [stands.ends following next, body, ← start]
        have one : byteLength ['\n'] = 1 := rfl
        rw [byteLength_append, byteLength_append, byteLength_append, one]
        omega

/-- The texts of the first lines and what ends them make up the source as far as they go. -/
theorem slice?_place (inside : number ≤ (ofText source).count) :
    slice? source 0 (place source number) =
      some ((List.range number).flatMap fun index =>
        ((ofText source).line (index + 1)).text ++
          (terminator? source (index + 1)).getD []) := by
  induction number with
  | zero =>
      obtain ⟨more, starts⟩ := exists_starts_eq_cons source
      rw [place, starts]
      exact slice?_eq_some_iff.mpr ⟨[], source, rfl, rfl, rfl⟩
  | succ index inductionHypothesis =>
      have found := List.getElem?_eq_getElem (l := linesFrom 0 source) inside
      generalize (linesFrom 0 source)[index] = line at found
      have earlier := inductionHypothesis (Nat.le_of_succ_le inside)
      obtain ⟨text, ending, -, ends⟩ := exists_terminator found
      rw [place_eq_start found] at earlier
      have behind := ends
      rw [terminator?, line_succ_eq found] at behind
      rw [List.range_succ, List.flatMap_append, List.flatMap_singleton, line_succ_eq found, ends,
        Option.getD_some]
      exact slice?_trans earlier (slice?_trans text behind)

/-- A line that there is, by its index. -/
theorem exists_found (positive : 1 ≤ number) (inside : number ≤ (ofText source).count) :
    ∃ index line, number = index + 1 ∧ (linesFrom 0 source)[index]? = some line := by
  have index : number - 1 < (linesFrom 0 source).length :=
    Nat.lt_of_lt_of_le (Nat.sub_one_lt_of_lt positive) inside
  exact ⟨number - 1, _, (Nat.sub_add_cancel positive).symm, List.getElem?_eq_getElem index⟩

theorem line_of_count_lt (behind : (ofText source).count < number) :
    (ofText source).line number = ⟨byteLength source, []⟩ := by
  have none : (linesFrom 0 source)[max number 1 - 1]? = none := by
    rw [List.getElem?_eq_none_iff]
    have bound : (linesFrom 0 source).length < number := behind
    omega
  rw [LineTable.line, ofText, none]
  rfl

/-- The text of a line is a slice, whatever number is asked for. -/
theorem slice?_line (source : List Char) (number : Nat) :
    slice? source ((ofText source).line number).start ((ofText source).line number).stop =
      some ((ofText source).line number).text := by
  have lines (number : Nat) (positive : 1 ≤ number) :
      slice? source ((ofText source).line number).start ((ofText source).line number).stop =
        some ((ofText source).line number).text := by
    rcases Nat.lt_or_ge (ofText source).count number with past | inside
    · rw [line_of_count_lt past]
      exact slice?_eq_some_iff.mpr ⟨source, [], by simp [Line.text], rfl, rfl⟩
    · obtain ⟨index, line, rfl, found⟩ := exists_found positive inside
      rw [line_succ_eq found]
      exact (exists_terminator found).1
  cases number with
  | zero => exact lines 1 (Nat.le_refl 1)
  | succ index => exact lines (index + 1) (Nat.le_add_left ..)

/-- What holds of a source: the texts of its lines and what ends them make it up. -/
structure Partitions (source : List Char) : Prop where
  /-- A line starts where it is said to start. Its text is a slice of the source, between
  characters, and holds no line feed. -/
  start : ∀ number, 1 ≤ number → number ≤ (ofText source).count →
    (ofText source).starts[number - 1]? = some ((ofText source).line number).start
  text : ∀ number, 1 ≤ number → number ≤ (ofText source).count →
    ((ofText source).line number).start ≤ ((ofText source).line number).stop ∧
      ((ofText source).line number).stop ≤ byteLength source ∧
      slice? source ((ofText source).line number).start ((ofText source).line number).stop =
        some ((ofText source).line number).text ∧
      '\n' ∉ ((ofText source).line number).text
  /-- A line with another one behind it ends in a line feed, or in a carriage return and a line
  feed. The carriage return is left out of the text wherever there is one. -/
  ended : ∀ number, 1 ≤ number → number < (ofText source).count →
    terminator? source number = some ['\n'] ∧
        ((ofText source).line number).text.getLast? ≠ some '\r' ∨
      terminator? source number = some ['\r', '\n']
  /-- The last line ends in nothing, or in a carriage return. -/
  last : terminator? source (ofText source).count = some [] ∧
        ((ofText source).line (ofText source).count).text.getLast? ≠ some '\r' ∨
      terminator? source (ofText source).count = some ['\r']
  rebuilt : ((List.range (ofText source).count).flatMap fun index =>
    ((ofText source).line (index + 1)).text ++ (terminator? source (index + 1)).getD []) = source
  /-- Zero stands for the first line, and a number past the last for no text at the end. -/
  zero : (ofText source).line 0 = (ofText source).line 1
  behind : ∀ number, (ofText source).count < number →
    ((ofText source).line number).start = byteLength source ∧
      ((ofText source).line number).stop = byteLength source ∧
      ((ofText source).line number).text = []

theorem partitions_of_source (source : List Char) : Partitions source where
  start number positive inside := by
    obtain ⟨index, line, rfl, found⟩ := exists_found positive inside
    rw [line_succ_eq found, Nat.add_sub_cancel, starts, ofText, List.getElem?_map, found]
    rfl
  text number _ _ := by
    have text := slice?_line source number
    obtain ⟨before, after, source_eq, -, stop⟩ := slice?_eq_some_iff.mp text
    have inside := congrArg byteLength source_eq
    rw [byteLength_append, byteLength_append, stop] at inside
    exact ⟨Nat.le_add_right .., Nat.le.intro inside.symm, text, notMem_text_line source number⟩
  ended number positive inside := by
    obtain ⟨index, line, rfl, found⟩ := exists_found positive inside.le
    obtain ⟨-, ending, ends, terminator⟩ := exists_terminator found
    rw [if_pos inside] at terminator
    rw [terminator, line_succ_eq found]
    rcases ends with ⟨rfl, other⟩ | rfl
    · exact .inl ⟨rfl, other⟩
    · exact .inr rfl
  last := by
    have positive : 1 ≤ (ofText source).count := by
      rw [count_ofText]
      exact Nat.le_add_left ..
    obtain ⟨index, line, number, found⟩ := exists_found positive (Nat.le_refl _)
    obtain ⟨-, ending, ends, terminator⟩ := exists_terminator found
    rw [← number, if_neg (Nat.lt_irrefl _), List.append_nil] at terminator
    rw [terminator, number, line_succ_eq found]
    rcases ends with ⟨rfl, other⟩ | rfl
    · exact .inl ⟨rfl, other⟩
    · exact .inr rfl
  rebuilt := by
    have whole := slice?_place (Nat.le_refl (ofText source).count)
    have none : (linesFrom 0 source)[(ofText source).count]? = none :=
      List.getElem?_eq_none_iff.mpr (Nat.le_refl _)
    have all : slice? source 0 (byteLength source) = some source :=
      slice?_eq_some_iff.mpr ⟨[], [], by simp, rfl, by simp⟩
    rw [place_of_none none, all, Option.some.injEq] at whole
    exact whole.symm
  zero := rfl
  behind number past := by
    rw [line_of_count_lt past]
    exact ⟨rfl, rfl, rfl⟩

end LineTable

namespace WordTable

/-- What holds of a table in words for a source: its lines make up the source. -/
structure Partitions (table : WordTable) (source : List Char) : Prop
    extends LineTable.Partitions source where
  starts_eq : table.starts.map UInt32.toNat = (LineTable.ofText source).starts
  count_eq : table.starts.length = (LineTable.ofText source).count
  /-- Whatever number it is asked for, the table finds where the line starts and its text ends. -/
  bounds : ∀ number : UInt32, table.bounds? number (Utf8.encode source) =
    some (((LineTable.ofText source).line number.toNat).start,
      ((LineTable.ofText source).line number.toNat).stop)
  shown : ∀ number : UInt32, table.text? number source =
    some ((LineTable.ofText source).line number.toNat).text

variable {table : WordTable} {source : List Char}

/-- Zero stands for one. -/
theorem bounds?_zero (table : WordTable) (bytes : List UInt8) :
    table.bounds? 0 bytes = table.bounds? 1 bytes := by
  have one : max (0 : UInt32) 1 = max 1 1 := by decide
  rw [bounds?, one]
  rfl

/-- A number past the last one stands for the end of the source. -/
theorem Stores.bounds?_of_count_lt (stores : table.Stores (LineTable.ofText source))
    {number : UInt32} (past : (LineTable.ofText source).count < number.toNat) :
    table.bounds? number (Utf8.encode source) = some (byteLength source, byteLength source) := by
  have maximum : (max number 1).toNat = number.toNat := by
    rw [UInt32.toNat_max, UInt32.toNat_one]
    omega
  obtain ⟨index, difference, indexEq⟩ := Word.exists_difference?_eq (max number 1) 1
    (by rw [maximum, UInt32.toNat_one]; omega)
  have none : table.starts[index.toNat]? = none := by
    rw [List.getElem?_eq_none_iff, stores.length_starts, indexEq, maximum, UInt32.toNat_one]
    omega
  simp only [bounds?, difference, none, Option.bind_eq_bind, Option.bind_some, Utf8.length_encode]

theorem Stores.bounds?_line (stores : table.Stores (LineTable.ofText source)) (number : UInt32) :
    table.bounds? number (Utf8.encode source) =
      some (((LineTable.ofText source).line number.toNat).start,
        ((LineTable.ofText source).line number.toNat).stop) := by
  have lines {number : UInt32} (positive : 1 ≤ number.toNat) :
      table.bounds? number (Utf8.encode source) =
        some (((LineTable.ofText source).line number.toNat).start,
          ((LineTable.ofText source).line number.toNat).stop) := by
    rcases Nat.lt_or_ge (LineTable.ofText source).count number.toNat with past | inside
    · rw [stores.bounds?_of_count_lt past, LineTable.line_of_count_lt past]
      rfl
    · obtain ⟨index, line, place, found⟩ := LineTable.exists_found positive inside
      have here : (linesFrom 0 source)[number.toNat - 1]? = some line := by
        rw [place, Nat.add_sub_cancel, found]
      rw [stores.bounds?_eq positive here, place, LineTable.line_succ_eq found]
  rcases Nat.eq_zero_or_pos number.toNat with zero | positive
  · obtain rfl : number = 0 := UInt32.toNat_inj.mp zero
    rw [bounds?_zero]
    exact lines (Nat.le_refl 1)
  · exact lines positive

theorem Stores.partitions (stores : table.Stores (LineTable.ofText source)) :
    table.Partitions source where
  toPartitions := LineTable.partitions_of_source source
  starts_eq := stores.starts
  count_eq := stores.length_starts
  bounds := stores.bounds?_line
  shown number := by
    rw [text?, stores.bounds?_line, Option.bind_eq_bind, Option.bind_some]
    exact LineTable.slice?_line source number.toNat

/-- On a source whose length is a word, lines make up the source, and the table in words finds
them. -/
theorem partitions_ofBytes (short : byteLength source < 2 ^ 32) :
    ∃ table, ofBytes? (Utf8.encode source) = some table ∧ table.Partitions source := by
  obtain ⟨table, scanned, stores⟩ := exists_ofBytes?_eq short
  exact ⟨table, scanned, stores.partitions⟩

/-- A line with two carriage returns, an empty one, and one of a carriage return alone. -/
theorem partitions_ofBytes_returns :
    byteLength "é\r\r\n\n\r".toList < 2 ^ 32 ∧
      ∃ table, ofBytes? (Utf8.encode "é\r\r\n\n\r".toList) = some table ∧
        table.Partitions "é\r\r\n\n\r".toList ∧
        table.text? 1 "é\r\r\n\n\r".toList = some ['é', '\r'] ∧
        table.text? 3 "é\r\r\n\n\r".toList = some [] := by
  have short : byteLength "é\r\r\n\n\r".toList < 2 ^ 32 := by decide
  obtain ⟨table, scanned, lines⟩ := partitions_ofBytes short
  refine ⟨short, table, scanned, lines, ?_, ?_⟩
  · exact (lines.shown 1).trans (by decide)
  · exact (lines.shown 3).trans (by decide)

end WordTable

end Source

end Sequencer
