import Sequencer.Diagnostic
import Mathlib.Data.List.TakeWhile

/-!
# The lines of joined sources

Two texts with a line feed between them have the lines of the first and behind them the lines of the
second (`linesFrom_append_lineFeed`). So a place in the first text stays in its line, and a place in
the second moves down by the lines of the first (`LineTable.position_append_left`,
`LineTable.position_append_right`). Diagnostics of such places show the same lines and columns as
those of the texts alone.
-/

namespace Sequencer

open Sequencer.Source Sequencer.Text

/-! ## Lines -/

namespace Source

/-- The same line further on in a text. -/
def Line.shift (distance : Nat) (line : Line) : Line :=
  { line with start := distance + line.start }

/-- The text of a line leaves out one carriage return at its end. -/
theorem Line.byteLength_body (start : Nat) {body : List Char} (ends : body.getLast? = some '\r') :
    byteLength body = byteLength (Line.text ⟨start, body⟩) + 1 := by
  obtain ⟨shown, parts⟩ := List.getLast?_eq_some_iff.mp ends
  rw [text, if_pos ends, parts, List.dropLast_concat, byteLength_append]
  rfl

theorem Line.byteLength_text_le (start : Nat) (body : List Char) :
    byteLength (Line.text ⟨start, body⟩) ≤ byteLength body := by
  by_cases ends : body.getLast? = some '\r'
  · exact Nat.le.intro (byteLength_body start ends).symm
  · rw [text, if_neg ends]

theorem linesFrom_lineFeed (start : Nat) (rest : List Char) :
    linesFrom start ('\n' :: rest) = ⟨start, []⟩ :: linesFrom (start + 1) rest :=
  rfl

/-- The first line of a text starts where the text does. -/
theorem exists_linesFrom_eq_cons (start : Nat) (text : List Char) :
    ∃ body more, linesFrom start text = ⟨start, body⟩ :: more := by
  cases text with
  | nil => exact ⟨[], [], rfl⟩
  | cons c rest =>
      simp only [linesFrom]
      split
      · exact ⟨[], _, rfl⟩
      · split
        · exact ⟨[c], [], rfl⟩
        · exact ⟨_, _, rfl⟩

/-- Any other character than a line feed goes on with the first line of what follows. -/
theorem linesFrom_cons {c : Char} (inLine : c ≠ '\n') (start : Nat) (rest : List Char) :
    ∃ body more, linesFrom (start + c.utf8Size) rest = ⟨start + c.utf8Size, body⟩ :: more ∧
      linesFrom start (c :: rest) = ⟨start, c :: body⟩ :: more := by
  obtain ⟨body, more, following⟩ := exists_linesFrom_eq_cons (start + c.utf8Size) rest
  exact ⟨body, more, following, by simp [linesFrom, inLine, following]⟩

theorem length_linesFrom (start : Nat) (text : List Char) :
    (linesFrom start text).length = text.count '\n' + 1 := by
  induction text generalizing start with
  | nil => rfl
  | cons c rest inductionHypothesis =>
      by_cases lineFeed : c = '\n'
      · subst lineFeed
        rw [linesFrom_lineFeed, List.length_cons, inductionHypothesis, List.count_cons_self]
      · obtain ⟨body, more, following, lines⟩ := linesFrom_cons lineFeed start rest
        have others := inductionHypothesis (start + c.utf8Size)
        rw [following] at others
        rw [lines, List.count_cons_of_ne lineFeed]
        exact others

/-- Lines start inside of their text. -/
theorem start_mem_linesFrom {start : Nat} {text : List Char} {line : Line}
    (inside : line ∈ linesFrom start text) :
    start ≤ line.start ∧ line.start ≤ start + byteLength text := by
  induction text generalizing start line with
  | nil =>
      obtain rfl := List.mem_singleton.mp inside
      exact ⟨Nat.le_refl start, Nat.le_refl start⟩
  | cons c rest inductionHypothesis =>
      rw [byteLength_cons]
      by_cases lineFeed : c = '\n'
      · subst lineFeed
        rw [linesFrom_lineFeed, List.mem_cons] at inside
        rcases inside with rfl | later
        · exact ⟨Nat.le_refl start, Nat.le_add_right ..⟩
        · have bounds := inductionHypothesis later
          have one : '\n'.utf8Size = 1 := rfl
          omega
      · obtain ⟨body, more, following, lines⟩ := linesFrom_cons lineFeed start rest
        rw [lines, List.mem_cons] at inside
        rcases inside with rfl | later
        · exact ⟨Nat.le_refl start, Nat.le_add_right ..⟩
        · have bounds := inductionHypothesis (following ▸ List.mem_cons_of_mem _ later)
          omega

theorem linesFrom_add (distance start : Nat) (text : List Char) :
    linesFrom (distance + start) text = (linesFrom start text).map (Line.shift distance) := by
  induction text generalizing start with
  | nil => rfl
  | cons c rest inductionHypothesis =>
      simp only [linesFrom, Nat.add_assoc, inductionHypothesis]
      split
      · rfl
      · cases linesFrom (start + c.utf8Size) rest <;> rfl

/-- A line feed between two texts ends the last line of the first. -/
theorem linesFrom_append_lineFeed (start : Nat) (first second : List Char) :
    linesFrom start (first ++ '\n' :: second) =
      linesFrom start first ++ linesFrom (start + byteLength first + 1) second := by
  induction first generalizing start with
  | nil => rfl
  | cons c rest inductionHypothesis =>
      have others := inductionHypothesis (start + c.utf8Size)
      rw [byteLength_cons, ← Nat.add_assoc, List.cons_append]
      by_cases lineFeed : c = '\n'
      · subst lineFeed
        rw [linesFrom_lineFeed, linesFrom_lineFeed, List.cons_append]
        exact congrArg _ others
      · obtain ⟨body, more, following, lines⟩ := linesFrom_cons lineFeed start rest
        obtain ⟨body', more', following', lines'⟩ :=
          linesFrom_cons lineFeed start (rest ++ '\n' :: second)
        rw [following, following', List.cons_append] at others
        cases others
        rw [lines, lines']
        rfl

theorem linesFrom_of_notMem {text : List Char} (single : '\n' ∉ text) (start : Nat) :
    linesFrom start text = [⟨start, text⟩] := by
  induction text generalizing start with
  | nil => rfl
  | cons c rest inductionHypothesis =>
      rw [List.mem_cons, not_or] at single
      obtain ⟨body, more, following, lines⟩ := linesFrom_cons (Ne.symm single.1) start rest
      rw [inductionHypothesis single.2] at following
      cases following
      exact lines

theorem notMem_body_of_mem_linesFrom {start : Nat} {text : List Char} {line : Line}
    (inside : line ∈ linesFrom start text) : '\n' ∉ line.body := by
  induction text generalizing start line with
  | nil =>
      rw [List.mem_singleton.mp inside]
      exact List.not_mem_nil
  | cons c rest inductionHypothesis =>
      by_cases lineFeed : c = '\n'
      · subst lineFeed
        rw [linesFrom_lineFeed, List.mem_cons] at inside
        rcases inside with rfl | later
        · exact List.not_mem_nil
        · exact inductionHypothesis later
      · obtain ⟨body, more, following, lines⟩ := linesFrom_cons lineFeed start rest
        rw [lines, List.mem_cons] at inside
        rcases inside with rfl | later
        · have first : ⟨start + c.utf8Size, body⟩ ∈ linesFrom (start + c.utf8Size) rest := by
            rw [following]
            exact List.mem_cons_self
          rw [List.mem_cons, not_or]
          exact ⟨fun same => lineFeed same.symm, inductionHypothesis first⟩
        · exact inductionHypothesis (following ▸ List.mem_cons_of_mem _ later)

/-- The last line of a text goes up to its end, and the others start in front of it. -/
theorem exists_lastLine (start : Nat) (text : List Char) :
    ∃ lines before body, before ++ body = text ∧
      linesFrom start text = lines ++ [⟨start + byteLength before, body⟩] ∧
      (∀ line ∈ lines, line.start ≤ start + byteLength before) ∧
      (text.getLast? = some '\r' → body.getLast? = some '\r') := by
  by_cases single : '\n' ∈ text
  · obtain ⟨last, earlier, reversed, notIn⟩ :=
      List.eq_append_cons_of_mem (List.mem_reverse.mpr single)
    have parts : text = earlier.reverse ++ '\n' :: last.reverse := by
      rw [← List.reverse_reverse text, reversed]
      simp
    refine ⟨linesFrom start earlier.reverse, earlier.reverse ++ ['\n'], last.reverse,
      ?_, ?_, ?_, ?_⟩
    · rw [parts, List.append_assoc]
      rfl
    · have alone : '\n' ∉ last.reverse := by simpa using notIn
      rw [parts, linesFrom_append_lineFeed, linesFrom_of_notMem alone, byteLength_append,
        Nat.add_assoc]
      rfl
    · intro line inside
      have bound := (start_mem_linesFrom inside).2
      rw [byteLength_append]
      omega
    · intro ends
      rw [parts, List.getLast?_append, List.getLast?_cons] at ends
      cases behind : last.reverse.getLast? <;> simp [behind] at ends
      exact congrArg some ends
  · exact ⟨[], [], text, rfl, linesFrom_of_notMem single start, by simp, id⟩

/-! ## Line tables -/

namespace LineTable

variable {first second : List Char} {offset number : Nat}

theorem ofText_append_lineFeed (first second : List Char) :
    (ofText (first ++ '\n' :: second)).lines = (ofText first).lines ++
      (ofText second).lines.map (Line.shift (byteLength first + 1)) := by
  rw [ofText, ofText, ofText, linesFrom_append_lineFeed, ← linesFrom_add, Nat.zero_add,
    Nat.add_zero]

/-- The text of a line holds no line feed. -/
theorem notMem_text_line (source : List Char) (number : Nat) :
    '\n' ∉ ((ofText source).line number).text := by
  have body : '\n' ∉ ((ofText source).line number).body := by
    rw [line]
    cases found : (ofText source).lines[max number 1 - 1]? with
    | none => exact List.not_mem_nil
    | some line => exact notMem_body_of_mem_linesFrom (List.mem_of_getElem? found)
  rw [Line.text]
  split
  · exact fun inside => body ((List.dropLast_sublist _).subset inside)
  · exact body

theorem count_ofText (text : List Char) : (ofText text).count = text.count '\n' + 1 :=
  length_linesFrom 0 text

theorem length_starts (table : LineTable) : table.starts.length = table.count :=
  List.length_map _

theorem starts_append_lineFeed (first second : List Char) :
    (ofText (first ++ '\n' :: second)).starts = (ofText first).starts ++
      (ofText second).starts.map (byteLength first + 1 + ·) := by
  rw [starts, ofText_append_lineFeed, List.map_append, List.map_map, starts, starts, List.map_map]
  rfl

theorem exists_starts_eq_cons (text : List Char) : ∃ more, (ofText text).starts = 0 :: more := by
  obtain ⟨body, more, lines⟩ := exists_linesFrom_eq_cons 0 text
  exact ⟨more.map Line.start, congrArg (List.map Line.start) lines⟩

theorem le_of_mem_starts {text : List Char} {start : Nat} (inside : start ∈ (ofText text).starts) :
    start ≤ byteLength text := by
  obtain ⟨line, within, rfl⟩ := List.mem_map.mp inside
  exact (start_mem_linesFrom within).2.trans (Nat.zero_add _).le

/-- A place stands in one of the lines. -/
theorem position_fst_mem (text : List Char) (offset : Nat) :
    1 ≤ ((ofText text).position offset).1 ∧
      ((ofText text).position offset).1 ≤ (ofText text).count := by
  constructor
  · obtain ⟨more, starts⟩ := exists_starts_eq_cons text
    simp [position, starts]
  · rw [position, ← length_starts]
    exact (List.takeWhile_sublist _).length_le

/-- A place in the first of two texts has the same line and column in both together. -/
theorem position_append_left (inside : offset ≤ byteLength first) :
    (ofText (first ++ '\n' :: second)).position offset = (ofText first).position offset := by
  have behind : ((ofText second).starts.map (byteLength first + 1 + ·)).takeWhile
      (decide <| · ≤ offset) = [] := by
    obtain ⟨more, starts⟩ := exists_starts_eq_cons second
    simp [starts]
    omega
  have reached : (ofText (first ++ '\n' :: second)).starts.takeWhile (decide <| · ≤ offset) =
      (ofText first).starts.takeWhile (decide <| · ≤ offset) := by
    rw [starts_append_lineFeed, List.takeWhile_append, behind, List.append_nil]
    split
    · rename_i all
      exact ((List.takeWhile_prefix _).eq_of_length all).symm
    · rfl
  rw [position, position, reached]

/-- A place in the second of two texts has the same column in both together, further down. -/
theorem position_append_right :
    (ofText (first ++ '\n' :: second)).position (byteLength first + 1 + offset) =
      ((ofText first).count + ((ofText second).position offset).1,
        ((ofText second).position offset).2) := by
  have passed : ∀ start ∈ (ofText first).starts,
      decide (start ≤ byteLength first + 1 + offset) = true := by
    intro start inside
    have bound := le_of_mem_starts inside
    rw [decide_eq_true_eq]
    omega
  obtain ⟨more, starts⟩ := exists_starts_eq_cons second
  have reached : (ofText (first ++ '\n' :: second)).starts.takeWhile
      (decide <| · ≤ byteLength first + 1 + offset) =
        (ofText first).starts ++
          ((ofText second).starts.takeWhile (decide <| · ≤ offset)).map
            (byteLength first + 1 + ·) := by
    rw [starts_append_lineFeed, List.takeWhile_append_of_pos passed, List.takeWhile_map]
    simp [Function.comp_def]
  obtain ⟨last, lastStart⟩ : ∃ last,
      ((ofText second).starts.takeWhile (decide <| · ≤ offset)).getLast? = some last := by
    rw [starts, List.takeWhile_cons_of_pos (by simp)]
    exact ⟨_, List.getLast?_cons⟩
  rw [position, position, reached]
  simp [lastStart, List.getLast?_append, length_starts, Nat.add_sub_add_left]

theorem line_append_left (inside : number ≤ (ofText first).count) :
    (ofText (first ++ '\n' :: second)).line number = (ofText first).line number := by
  have positive : 1 ≤ (ofText first).count := by
    rw [count_ofText]
    exact Nat.le_add_left ..
  have index : max number 1 - 1 < (ofText first).lines.length := by
    rw [count] at inside positive
    omega
  rw [line, line, ofText_append_lineFeed, List.getElem?_append_left index,
    List.getElem?_eq_getElem index]
  rfl

theorem text_line_append_right (positive : 1 ≤ number) (inside : number ≤ (ofText second).count) :
    ((ofText (first ++ '\n' :: second)).line ((ofText first).count + number)).text =
      ((ofText second).line number).text := by
  have index : max number 1 - 1 < (ofText second).lines.length := by
    rw [count] at inside
    omega
  have place : max ((ofText first).count + number) 1 - 1 =
      (ofText first).lines.length + (max number 1 - 1) := by
    rw [count]
    omega
  rw [line, line, ofText_append_lineFeed, place, List.getElem?_append_right (Nat.le_add_right ..),
    Nat.add_sub_cancel_left, List.getElem?_map, List.getElem?_eq_getElem index]
  rfl

/-- Places from the start of the last line on stand in that line. -/
theorem position_of_lastLine {text body : List Char} {lines : List Line} {start : Nat}
    (last : (ofText text).lines = lines ++ [⟨start, body⟩])
    (earlier : ∀ line ∈ lines, line.start ≤ start) (reached : start ≤ offset) :
    (ofText text).position offset = ((ofText text).count, offset - start + 1) := by
  have all : (ofText text).starts.takeWhile (decide <| · ≤ offset) = (ofText text).starts := by
    rw [List.takeWhile_eq_self_iff, starts, last]
    simp only [List.map_append, List.mem_append, List.mem_map, decide_eq_true_eq]
    rintro _ (⟨line, inside, rfl⟩ | ⟨line, inside, rfl⟩)
    · exact (earlier line inside).trans reached
    · rw [List.mem_singleton.mp inside]
      exact reached
  rw [position, all, length_starts, starts, last]
  simp

theorem line_count_of_lastLine {text : List Char} {lines : List Line} {line : Line}
    (last : (ofText text).lines = lines ++ [line]) :
    (ofText text).line (ofText text).count = line := by
  simp [LineTable.line, count, last]

end LineTable

/-- The same stretch further on in a source. -/
def Span.shift (distance : Nat) (span : Span) : Span :=
  { span with start := distance + span.start, stop := distance + span.stop }

theorem Span.isEmpty_shift (distance : Nat) (span : Span) :
    (span.shift distance).isEmpty = span.isEmpty := by
  simp [shift, isEmpty]

end Source

/-! ## Diagnostics -/

namespace Diagnostic

open LineTable

variable {first second : List Char} {message : String} {span : Span} {highlight : Option Span}

@[simp]
theorem message_locate (source : List Char) (message : String) (span : Span)
    (highlight : Option Span) : (locate source message span highlight).message = message := by
  cases highlight with
  | none => rfl
  | some stretch =>
      simp only [locate]
      split
      · rfl
      · split <;> rfl

/-- An error in the first of two texts is shown as in that text alone. -/
theorem locate_append_left (start : span.start ≤ byteLength first)
    (stop : ∀ stretch, highlight = some stretch → stretch.stop ≤ byteLength first) :
    locate (first ++ '\n' :: second) message span highlight =
      locate first message span highlight := by
  simp only [locate, position_append_left start,
    line_append_left (position_fst_mem first span.start).2]
  cases highlight with
  | none => rfl
  | some stretch =>
      have stopInside := stop stretch rfl
      cases empty : stretch.isEmpty with
      | true => simp [empty]
      | false =>
          have ordered : stretch.start < stretch.stop := by simpa [Span.isEmpty] using empty
          have startInside : stretch.start ≤ byteLength first := by omega
          have lastInside : stretch.stop - 1 ≤ byteLength first := by omega
          simp only [position_append_left startInside, position_append_left lastInside]

/-- An error in the second of two texts is shown as in that text alone, further down. -/
theorem locate_append_right (first second : List Char) (message : String) (span : Span)
    (highlight : Option Span) :
    locate (first ++ '\n' :: second) message (span.shift (byteLength first + 1))
        (highlight.map (Span.shift (byteLength first + 1))) =
      { locate second message span highlight with
        lineNumber :=
          (ofText first).count + (locate second message span highlight).lineNumber } := by
  obtain ⟨positive, inside⟩ := position_fst_mem second span.start
  have start (span : Span) : (span.shift (byteLength first + 1)).start =
      byteLength first + 1 + span.start := rfl
  simp only [locate, start, position_append_right, text_line_append_right positive inside]
  cases highlight with
  | none => rfl
  | some stretch =>
      simp only [Option.map_some, Span.isEmpty_shift]
      cases empty : stretch.isEmpty with
      | true => rfl
      | false =>
          have ordered : stretch.start < stretch.stop := by simpa [Span.isEmpty] using empty
          have last : (stretch.shift (byteLength first + 1)).stop - 1 =
              byteLength first + 1 + (stretch.stop - 1) :=
            Nat.add_sub_assoc (Nat.one_le_of_lt ordered) _
          simp only [Bool.false_eq_true, if_false, start, last, position_append_right,
            Nat.add_right_inj]
          split <;> rfl

/-- An error at the end of a text is shown behind its last line. In front of another text it may
stand one carriage return earlier. -/
theorem locate_append_atEnd {ending : List Char}
    (ends : ending = [] ∨ ending = ['\r'] ∧ first.getLast? = some '\r') {span' : Span}
    (start : span.start + byteLength ending = byteLength first)
    (start' : span'.start = byteLength first) (message' : String) :
    locate (first ++ '\n' :: second) message span none =
      { locate first message' span' none with message := message } := by
  obtain ⟨lines, before, body, parts, lastLine, earlier, endsBody⟩ := exists_lastLine 0 first
  rw [Nat.zero_add] at lastLine earlier
  have length := congrArg byteLength parts
  rw [byteLength_append] at length
  have shown := Line.byteLength_text_le (byteLength before) body
  have column : byteLength before ≤ span.start ∧
      min (span.start - byteLength before + 1)
          (byteLength (Line.text ⟨byteLength before, body⟩) + 1) =
        min (byteLength first - byteLength before + 1)
          (byteLength (Line.text ⟨byteLength before, body⟩) + 1) := by
    rcases ends with rfl | ⟨rfl, carriageReturn⟩
    · rw [byteLength_nil] at start
      omega
    · have longer := Line.byteLength_body (byteLength before) (endsBody carriageReturn)
      have one : byteLength ['\r'] = 1 := rfl
      omega
  have inside : span.start ≤ byteLength first := by omega
  have behind : byteLength before ≤ byteLength first := by omega
  simp only [locate, position_append_left inside, position_of_lastLine lastLine earlier column.1,
    position_of_lastLine lastLine earlier behind, line_append_left (Nat.le_refl _),
    line_count_of_lastLine lastLine, start', column.2]

end Diagnostic

end Sequencer
