import Sequencer.Proofs.Source.Words
import Sequencer.Proofs.Token.Recovery

/-!
# Line ends and line starts

A source is cut into lines by its line table and into lexemes by its scan, and neither looks at the
other. They agree: behind every line end that is scanned a line starts, and behind every line feed
of the source, whatever stands in front of it, there is one line end (`Stream.marksLines_look`). So
there is one line more than there are line ends.
-/

namespace Sequencer

open Sequencer.Source Sequencer.Text

/-! ## Line feeds of items -/

namespace Scan

/-- A line feed stands only at the end of a line end. -/
theorem Written.notMem_lineFeed {text : List Char} {content : Except LexicalError Token}
    (written : Written text content) (other : content ≠ .ok .endOfLine) : '\n' ∉ text := by
  have wordPart {c : Char} (goesOn : IsLetter c ∨ IsDigit c) : c ≠ '\n' := by
    rintro rfl
    exact absurd (isWordPart_iff.mpr goesOn) (by decide)
  have run {first : Char} {more : List Char} (begins : IsLetter first ∨ IsDigit first)
      (goesOn : ∀ c ∈ more, IsLetter c ∨ IsDigit c) : '\n' ∉ first :: more := by
    intro inside
    rcases List.mem_cons.mp inside with same | later
    · exact wordPart begins same.symm
    · exact wordPart (goesOn _ later) rfl
  cases written with
  | lineFeed => exact absurd rfl other
  | carriageReturn => exact absurd rfl other
  | leftParen => decide
  | rightParen => decide
  | equals => decide
  | semicolon => decide
  | word begins goesOn => exact run (.inl begins) goesOn
  | number begins goesOn => exact run (.inr begins) goesOn
  | noNumber begins goesOn literal => exact run (.inr begins) goesOn
  | unexpected unlisted noLetter noDigit =>
      intro inside
      apply unlisted
      rw [← List.mem_singleton.mp inside]
      decide

theorem Written.exists_eq_lineFeed {text : List Char}
    (written : Written text (.ok .endOfLine)) :
    ∃ line, text = line ++ ['\n'] ∧ '\n' ∉ line := by
  cases written with
  | lineFeed => exact ⟨[], rfl, List.not_mem_nil⟩
  | carriageReturn => exact ⟨['\r'], rfl, by decide⟩

theorem Written.ne_endOfInput {text : List Char} {content : Except LexicalError Token}
    (written : Written text content) : content ≠ .ok .endOfInput := by
  cases written <;> nofun

/-- No line feed stands in a gap. -/
theorem IsGap.notMem_lineFeed {gap rest : List Char} (isGap : IsGap gap rest) : '\n' ∉ gap := by
  induction isGap with
  | nothing => exact List.not_mem_nil
  | space following inductionHypothesis =>
      exact List.not_mem_cons_of_ne_of_not_mem (by decide) inductionHypothesis
  | tab following inductionHypothesis =>
      exact List.not_mem_cons_of_ne_of_not_mem (by decide) inductionHypothesis
  | carriageReturn alone following inductionHypothesis =>
      exact List.not_mem_cons_of_ne_of_not_mem (by decide) inductionHypothesis
  | comment inLine ends whole => exact List.not_mem_cons_of_ne_of_not_mem (by decide) inLine

end Scan

/-! ## The starts of lines behind the first -/

namespace Source

/-- The offsets at which the lines of a text behind its first line start. -/
def laterStarts (start : Nat) (text : List Char) : List Nat :=
  ((linesFrom start text).map Line.start).tail

theorem map_start_linesFrom (start : Nat) (text : List Char) :
    (linesFrom start text).map Line.start = start :: laterStarts start text := by
  obtain ⟨body, more, lines⟩ := exists_linesFrom_eq_cons start text
  rw [laterStarts, lines]
  rfl

theorem laterStarts_of_notMem {text : List Char} (single : '\n' ∉ text) (start : Nat) :
    laterStarts start text = [] := by
  rw [laterStarts, linesFrom_of_notMem single]
  rfl

/-- Behind the first line feed the next line starts. -/
theorem laterStarts_append_lineFeed {line : List Char} (single : '\n' ∉ line) (start : Nat)
    (rest : List Char) :
    laterStarts start (line ++ '\n' :: rest) =
      (start + byteLength line + 1) :: laterStarts (start + byteLength line + 1) rest := by
  rw [← map_start_linesFrom, laterStarts, linesFrom_append_lineFeed, linesFrom_of_notMem single]
  rfl

/-- Text without a line feed only moves the starts of lines. -/
theorem laterStarts_append {first : List Char} (single : '\n' ∉ first) (start : Nat)
    (second : List Char) :
    laterStarts start (first ++ second) = laterStarts (start + byteLength first) second := by
  induction first generalizing start with
  | nil => rfl
  | cons c rest inductionHypothesis =>
      rw [List.mem_cons, not_or] at single
      obtain ⟨body, more, following, lines⟩ :=
        linesFrom_cons (Ne.symm single.1) start (rest ++ second)
      have moved : laterStarts start (c :: (rest ++ second)) =
          laterStarts (start + c.utf8Size) (rest ++ second) := by
        rw [laterStarts, laterStarts, lines, following]
        rfl
      rw [List.cons_append, moved, inductionHypothesis single.2, byteLength_cons, Nat.add_assoc]

end Source

/-! ## Line ends among lexemes -/

/-- Whether a lexeme is a line end. -/
def Lexeme.isLineEnd (lexeme : Lexeme) : Bool := lexeme.content matches .ok .endOfLine

@[simp]
theorem Lexeme.isLineEnd_iff {lexeme : Lexeme} :
    lexeme.isLineEnd = true ↔ lexeme.content = .ok .endOfLine := by
  unfold isLineEnd
  split
  · rename_i content
    exact iff_of_true rfl content
  · rename_i other
    exact iff_of_false Bool.false_ne_true other

namespace Stream

open Scan

/-- Behind the line ends among items the lines of their text start. -/
theorem map_stop_place (source start : Nat) {items : List Item} {trailing : List Char}
    (gaps : ∀ item ∈ items, '\n' ∉ item.gap)
    (written : ∀ item ∈ items, Written item.text item.content) (ends : '\n' ∉ trailing) :
    ((place source start items).filter Lexeme.isLineEnd).map (·.span.stop) =
      laterStarts start (textOf items ++ trailing) := by
  induction items generalizing start with
  | nil => exact (laterStarts_of_notMem ends start).symm
  | cons item rest inductionHypothesis =>
      rw [List.forall_mem_cons] at gaps written
      have others := inductionHypothesis (start + byteLength item.gap + byteLength item.text)
        gaps.2 written.2
      rw [place, textOf_cons, List.append_assoc]
      by_cases lineEnd : item.content = .ok .endOfLine
      · obtain ⟨line, text, single⟩ := (lineEnd ▸ written.1).exists_eq_lineFeed
        have noLineFeed : '\n' ∉ item.gap ++ line := by
          rw [List.mem_append, not_or]
          exact ⟨gaps.1, single⟩
        have place : start + byteLength (item.gap ++ line) + 1 =
            start + byteLength item.gap + byteLength item.text := by
          rw [text, byteLength_append, byteLength_append, Nat.add_assoc, Nat.add_assoc,
            Nat.add_assoc]
          rfl
        have parts : item.gap ++ item.text ++ (textOf rest ++ trailing) =
            item.gap ++ line ++ '\n' :: (textOf rest ++ trailing) := by
          simp [text]
        rw [List.filter_cons_of_pos (Lexeme.isLineEnd_iff.mpr lineEnd), List.map_cons, others,
          parts, laterStarts_append_lineFeed noLineFeed, place]
      · have noLineFeed : '\n' ∉ item.gap ++ item.text := by
          rw [List.mem_append, not_or]
          exact ⟨gaps.1, written.1.notMem_lineFeed lineEnd⟩
        rw [List.filter_cons_of_neg (mt Lexeme.isLineEnd_iff.mp lineEnd), others,
          laterStarts_append noLineFeed, byteLength_append, Nat.add_assoc]

/-- The line ends among the first `total` lexemes that are seen. -/
def lineEnds (seen : Nat → Lexeme) (total : Nat) : List Lexeme :=
  ((List.range total).map seen).filter Lexeme.isLineEnd

/-- A reader that looks as often as there are lexemes sees all of them. -/
theorem map_look_range (stream : Stream) :
    (List.range stream.lexemes.length).map stream.look = stream.lexemes := by
  apply List.ext_getElem
  · rw [List.length_map, List.length_range]
  · intro index _ inside
    rw [List.getElem_map, List.getElem_range, look_eq, List.getElem?_eq_getElem inside]
    rfl

/-- What a reader of a text sees one after the other marks the lines of the text: `total` lexemes,
then the end of input. -/
structure MarksLines (source : Nat) (text : List Char) (seen : Nat → Lexeme) (total : Nat) :
    Prop where
  ended : ∀ index, total ≤ index →
    seen index = ⟨⟨source, byteLength text, byteLength text⟩, .ok .endOfInput⟩
  goesOn : ∀ index < total, (seen index).content ≠ .ok .endOfInput
  /-- Behind the line ends, in their order, the lines behind the first line start. -/
  starts : (lineEnds seen total).map (·.span.stop) = (LineTable.ofText text).starts.tail
  count : (LineTable.ofText text).count = 1 + (lineEnds seen total).length
  /-- One lexeme covers a line feed. It is a line end, and it ends behind the line feed. -/
  once : ∀ before after, text = before ++ '\n' :: after →
    ∃ index < total, (seen index).isLineEnd = true ∧
      (seen index).span.start ≤ byteLength before ∧
      (seen index).span.stop = byteLength before + 1 ∧
      ∀ other < total, (seen other).span.start ≤ byteLength before →
        byteLength before < (seen other).span.stop → other = index

theorem starts_lineEnds_look (source : Nat) (text : List Char) :
    (lineEnds (ofText source text).look (Scan.ofText text).items.length).map (·.span.stop) =
      (LineTable.ofText text).starts.tail := by
  have lexemes : (List.range (Scan.ofText text).items.length).map (ofText source text).look =
      place source 0 (Scan.ofText text).items := by
    have all := map_look_range (ofText source text)
    rwa [ofText, length_place] at all
  have gaps : ∀ item ∈ (Scan.ofText text).items, '\n' ∉ item.gap := by
    intro item inside
    obtain ⟨passed, later, items⟩ := List.mem_iff_append.mp inside
    exact (isGap_of_items items).notMem_lineFeed
  have marked := map_stop_place source 0 gaps (fun item => written_of_mem)
    (isGap_trailing text).notMem_lineFeed
  have whole : textOf (Scan.ofText text).items ++ (Scan.ofText text).trailing = text :=
    text_ofText text
  rw [lineEnds, lexemes, marked, whole]
  rfl

section

variable {text : List Char} {index other : Nat}

theorem start_lt_stop_look (source : Nat) (inside : index < (Scan.ofText text).items.length) :
    ((ofText source text).look index).span.start < ((ofText source text).look index).span.stop := by
  obtain ⟨own, cut, written⟩ := exists_slice?_look source inside
  obtain ⟨before, after, -, start, stop⟩ := slice?_eq_some_iff.mp cut
  rw [← start, ← stop]
  exact Nat.lt_add_of_pos_right (byteLength_pos written.ne_nil)

theorem stop_look_le_start (source : Nat) (earlier : index < other)
    (inside : other < (Scan.ofText text).items.length) :
    ((ofText source text).look index).span.stop ≤
      ((ofText source text).look other).span.start := by
  obtain ⟨gap, rest, -, start, -⟩ := exists_gap source inside.le
  rw [stop_look source (earlier.trans inside), start, byteLength_append]
  exact (byteLength_textOf_take_le _ earlier).trans (Nat.le_add_right ..)

/-- No two lexemes cover the same byte. -/
theorem eq_of_covers (source : Nat) {place : Nat}
    (inside : index < (Scan.ofText text).items.length)
    (start : ((ofText source text).look index).span.start ≤ place)
    (stop : place < ((ofText source text).look index).span.stop)
    (otherInside : other < (Scan.ofText text).items.length)
    (otherStart : ((ofText source text).look other).span.start ≤ place)
    (otherStop : place < ((ofText source text).look other).span.stop) : other = index := by
  rcases Nat.lt_trichotomy other index with earlier | same | later
  · have ordered := stop_look_le_start source earlier inside
    exact absurd (ordered.trans start) (Nat.not_le_of_lt otherStop)
  · exact same
  · have ordered := stop_look_le_start source later otherInside
    exact absurd (ordered.trans otherStart) (Nat.not_le_of_lt stop)

end

/-- Behind each line feed of a text a line starts. -/
theorem mem_tail_starts (before after : List Char) :
    byteLength before + 1 ∈ (LineTable.ofText (before ++ '\n' :: after)).starts.tail := by
  obtain ⟨more, first⟩ := LineTable.exists_starts_eq_cons before
  obtain ⟨others, second⟩ := LineTable.exists_starts_eq_cons after
  rw [LineTable.starts_append_lineFeed, first, second]
  simp

/-- The line ends that are seen are those at which lines start, and no line feed is left out. -/
theorem marksLines_look (source : Nat) (text : List Char) :
    MarksLines source text (ofText source text).look (Scan.ofText text).items.length := by
  have starts := starts_lineEnds_look source text
  constructor
  · exact fun index => look_of_length_le source
  · intro index inside
    obtain ⟨own, -, written⟩ := exists_slice?_look source inside
    exact written.ne_endOfInput
  · exact starts
  · have length := congrArg List.length starts
    obtain ⟨more, first⟩ := LineTable.exists_starts_eq_cons text
    rw [List.length_map, first] at length
    rw [← LineTable.length_starts, first, length]
    exact Nat.add_comm ..
  · rintro before after rfl
    have inside := mem_tail_starts before after
    rw [← starts] at inside
    obtain ⟨lexeme, lineEnd, stop⟩ := List.mem_map.mp inside
    obtain ⟨among, isLineEnd⟩ := List.mem_filter.mp lineEnd
    obtain ⟨index, within, rfl⟩ := List.mem_map.mp among
    have within := List.mem_range.mp within
    have start : ((ofText source (before ++ '\n' :: after)).look index).span.start ≤
        byteLength before :=
      Nat.le_of_lt_succ ((start_lt_stop_look source within).trans_eq stop)
    have covers : byteLength before <
        ((ofText source (before ++ '\n' :: after)).look index).span.stop :=
      (Nat.lt_succ_self _).trans_eq stop.symm
    exact ⟨index, within, isLineEnd, start, stop,
      fun other => eq_of_covers source within start covers⟩

/-- On a source whose length is a word, the line ends that are seen one after the other end where
the table in words has its lines start. -/
theorem marksLines_ofBytes (source : Nat) {text : List Char} (short : byteLength text < 2 ^ 32) :
    ∃ total table, WordTable.ofBytes? (Utf8.encode text) = some table ∧
      table.starts.map UInt32.toNat =
        0 :: (lineEnds (ofText source text).look total).map (·.span.stop) ∧
      table.starts.length = 1 + (lineEnds (ofText source text).look total).length ∧
      MarksLines source text (ofText source text).look total := by
  have marks := marksLines_look source text
  obtain ⟨table, scanned, stores⟩ := WordTable.exists_ofBytes?_eq short
  obtain ⟨more, first⟩ := LineTable.exists_starts_eq_cons text
  apply Exists.intro (Scan.ofText text).items.length
  apply Exists.intro table
  refine ⟨scanned, ?_, ?_, marks⟩
  · rw [stores.starts, marks.starts, first]
    rfl
  · rw [← marks.count, stores.length_starts]

/-- Line feeds behind a comment, behind a character and a literal that are no tokens, and alone. -/
theorem marksLines_ofBytes_broken_lines :
    byteLength "a #b\r\n\r$\r\n0x\n\n1".toList < 2 ^ 32 ∧
      ∃ total table,
        WordTable.ofBytes? (Utf8.encode "a #b\r\n\r$\r\n0x\n\n1".toList) = some table ∧
        (lineEnds (ofText 0 "a #b\r\n\r$\r\n0x\n\n1".toList).look total).map (·.span.stop) =
          [6, 10, 13, 14] ∧
        MarksLines 0 "a #b\r\n\r$\r\n0x\n\n1".toList
          (ofText 0 "a #b\r\n\r$\r\n0x\n\n1".toList).look total := by
  have short : byteLength "a #b\r\n\r$\r\n0x\n\n1".toList < 2 ^ 32 := by decide
  obtain ⟨total, table, scanned, -, -, marks⟩ := marksLines_ofBytes 0 short
  exact ⟨short, total, table, scanned, marks.starts.trans (by decide), marks⟩

end Stream

end Sequencer
