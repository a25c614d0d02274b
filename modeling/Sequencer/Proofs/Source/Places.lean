import Sequencer.Proofs.Source.Lines
import Sequencer.Proofs.Text.Slices
import Mathlib.Data.List.DropRight

/-!
# Places in a source

A source that is cut somewhere has a line at the cut: the last line of the text in front of it goes
on with the first line of the text behind it. The number of that line is told by the line feeds in
front of the cut, and columns in it count the bytes from its start (`LineTable.position_append`,
`LineTable.text_line_append`). So the diagnostic of an error at the cut is known
(`Diagnostic.locate_append`, `Diagnostic.locate_append_literal`).
-/

namespace Sequencer

open Sequencer.Source Sequencer.Text

/-! ## First and last lines -/

namespace Source

/-- What a text begins with, up to its first line feed. -/
def firstLine (text : List Char) : List Char := text.takeWhile (· ≠ '\n')

/-- What a text ends with, from its last line feed on. -/
def lastLine (text : List Char) : List Char := text.rtakeWhile (· ≠ '\n')

theorem lastLine_eq (text : List Char) : lastLine text = (firstLine text.reverse).reverse :=
  rfl

@[simp]
theorem firstLine_cons {c : Char} (inLine : c ≠ '\n') (text : List Char) :
    firstLine (c :: text) = c :: firstLine text :=
  List.takeWhile_cons_of_pos (decide_eq_true inLine)

theorem notMem_firstLine (text : List Char) : '\n' ∉ firstLine text := fun inside => by
  simpa using List.mem_takeWhile_imp inside

theorem firstLine_append {first : List Char} (single : '\n' ∉ first) (second : List Char) :
    firstLine (first ++ second) = first ++ firstLine second :=
  List.takeWhile_append_of_pos fun _ inside => decide_eq_true fun same => single (same ▸ inside)

theorem firstLine_of_notMem {text : List Char} (single : '\n' ∉ text) : firstLine text = text := by
  simpa [firstLine] using firstLine_append single []

theorem firstLine_append_lineFeed (first second : List Char) :
    firstLine (first ++ '\n' :: second) = firstLine first := by
  induction first with
  | nil => rfl
  | cons c rest inductionHypothesis =>
      by_cases lineFeed : c = '\n'
      · rw [lineFeed]
        rfl
      · rw [List.cons_append, firstLine_cons lineFeed, firstLine_cons lineFeed,
          inductionHypothesis]

/-- A text is its first line, or more stands behind a line feed. -/
theorem notMem_or_eq_firstLine_append (text : List Char) :
    '\n' ∉ text ∨ ∃ after, text = firstLine text ++ '\n' :: after := by
  induction text with
  | nil => exact .inl List.not_mem_nil
  | cons c rest inductionHypothesis =>
      by_cases lineFeed : c = '\n'
      · exact .inr ⟨rest, by rw [lineFeed]; rfl⟩
      · rw [firstLine_cons lineFeed]
        rcases inductionHypothesis with single | ⟨after, parts⟩
        · exact .inl (List.not_mem_cons_of_ne_of_not_mem (Ne.symm lineFeed) single)
        · exact .inr ⟨after, congrArg (c :: ·) parts⟩

theorem notMem_lastLine (text : List Char) : '\n' ∉ lastLine text := by
  rw [lastLine_eq, List.mem_reverse]
  exact notMem_firstLine _

theorem lastLine_append {second : List Char} (single : '\n' ∉ second) (first : List Char) :
    lastLine (first ++ second) = lastLine first ++ second := by
  rw [lastLine_eq, List.reverse_append,
    firstLine_append fun inside => single (List.mem_reverse.mp inside)]
  simp [lastLine_eq]

theorem lastLine_of_notMem {text : List Char} (single : '\n' ∉ text) : lastLine text = text := by
  simpa [lastLine] using lastLine_append single []

theorem lastLine_append_lineFeed (first second : List Char) :
    lastLine (first ++ '\n' :: second) = lastLine second := by
  have reversed : (first ++ '\n' :: second).reverse = second.reverse ++ '\n' :: first.reverse := by
    simp
  rw [lastLine_eq, reversed, firstLine_append_lineFeed, lastLine_eq]

/-- A text is its last line, or more stands in front of a line feed. -/
theorem notMem_or_eq_append_lastLine (text : List Char) :
    '\n' ∉ text ∨ ∃ earlier, text = earlier ++ '\n' :: lastLine text := by
  rcases notMem_or_eq_firstLine_append text.reverse with single | ⟨after, parts⟩
  · exact .inl fun inside => single (List.mem_reverse.mpr inside)
  · refine .inr ⟨after.reverse, ?_⟩
    have same := congrArg List.reverse parts
    simpa [lastLine_eq] using same

theorem getLast?_of_lastLine {text : List Char} {c : Char}
    (last : (lastLine text).getLast? = some c) : text.getLast? = some c := by
  rcases notMem_or_eq_append_lastLine text with single | ⟨earlier, parts⟩
  · rwa [lastLine_of_notMem single] at last
  · rw [parts, List.getLast?_append, List.getLast?_cons, last]
    rfl

/-- The characters of a line without a carriage return at their end. -/
def trimReturn (body : List Char) : List Char :=
  if body.getLast? = some '\r' then body.dropLast else body

theorem eq_nil_or_eq_of_trimReturn {body : List Char} (nothing : trimReturn body = []) :
    body = [] ∨ body = ['\r'] := by
  unfold trimReturn at nothing
  split at nothing
  · rename_i ends
    obtain ⟨shown, rfl⟩ := List.getLast?_eq_some_iff.mp ends
    rw [List.dropLast_concat] at nothing
    exact .inr (by rw [nothing, List.nil_append])
  · exact .inl nothing

/-- A carriage return is left out at the very end only. -/
theorem trimReturn_append {first second : List Char}
    (whole : second = [] → first.getLast? ≠ some '\r') :
    trimReturn (first ++ second) = first ++ trimReturn second := by
  cases last : second.getLast? with
  | none =>
      obtain rfl := List.getLast?_eq_none_iff.mp last
      simp [trimReturn, whole rfl]
  | some c =>
      obtain ⟨shown, rfl⟩ := List.getLast?_eq_some_iff.mp last
      by_cases ends : c = '\r' <;> simp [trimReturn, ← List.append_assoc, ends]

/-- A literal in a line is shown as a whole. -/
theorem trimReturn_append_literal (left after : List Char) {literal : List Char}
    (filled : literal ≠ []) (single : '\n' ∉ literal) (ends : literal.getLast? ≠ some '\r') :
    trimReturn (left ++ firstLine (literal ++ after)) =
      left ++ literal ++ trimReturn (firstLine after) := by
  rw [firstLine_append single, ← List.append_assoc, trimReturn_append]
  intro _ last
  rw [List.getLast?_append_of_ne_nil _ filled] at last
  exact ends last

/-! ## Lines at a cut -/

namespace LineTable

variable {before rest : List Char} {count : Nat}

theorem position_of_notMem {text : List Char} (single : '\n' ∉ text) (offset : Nat) :
    (ofText text).position offset = (1, offset + 1) := by
  rw [position, starts, ofText, linesFrom_of_notMem single]
  rfl

theorem text_line_of_notMem {text : List Char} (single : '\n' ∉ text) :
    ((ofText text).line 1).text = trimReturn text := by
  rw [line, ofText, linesFrom_of_notMem single]
  rfl

/-- A place in the first line of a text is in its first line too if more stands behind. -/
theorem position_of_le_firstLine {text : List Char} {offset : Nat}
    (inside : offset ≤ byteLength (firstLine text)) :
    (ofText text).position offset = (1, offset + 1) := by
  rcases notMem_or_eq_firstLine_append text with single | ⟨after, parts⟩
  · exact position_of_notMem single offset
  · rw [parts, position_append_left inside, position_of_notMem (notMem_firstLine text)]

theorem text_line_one (text : List Char) :
    ((ofText text).line 1).text = trimReturn (firstLine text) := by
  rcases notMem_or_eq_firstLine_append text with single | ⟨after, parts⟩
  · rw [text_line_of_notMem single, firstLine_of_notMem single]
  · have first : 1 ≤ (ofText (firstLine text)).count := by
      rw [count_ofText]
      exact Nat.le_add_left ..
    conv_lhs => rw [parts]
    rw [line_append_left first, text_line_of_notMem (notMem_firstLine text)]

/-- A cut behind a line feed has the line of the cut in what stands behind that line feed. -/
theorem append_lineFeed_append (earlier left rest : List Char) (count : Nat) :
    (earlier ++ '\n' :: left) ++ rest = earlier ++ '\n' :: (left ++ rest) ∧
      byteLength (earlier ++ '\n' :: left) + count =
        byteLength earlier + 1 + (byteLength left + count) ∧
      (earlier ++ '\n' :: left).count '\n' = (ofText earlier).count + left.count '\n' := by
  have one : '\n'.utf8Size = 1 := rfl
  rw [count_ofText]
  simp only [byteLength_append, byteLength_cons, List.count_append, List.count_cons_self, one,
    List.append_assoc, List.cons_append, true_and]
  omega

/-- A place behind a cut, as far as the line at the cut goes. -/
theorem position_append (before : List Char) (inside : count ≤ byteLength (firstLine rest)) :
    (ofText (before ++ rest)).position (byteLength before + count) =
      (before.count '\n' + 1, byteLength (lastLine before) + count + 1) := by
  have inLine {left : List Char} (single : '\n' ∉ left) :
      (ofText (left ++ rest)).position (byteLength left + count) =
        (1, byteLength left + count + 1) := by
    apply position_of_le_firstLine
    rw [firstLine_append single, byteLength_append]
    exact Nat.add_le_add_left inside _
  rcases notMem_or_eq_append_lastLine before with single | ⟨earlier, parts⟩
  · rw [inLine single, lastLine_of_notMem single, List.count_eq_zero.mpr single]
  · have single := notMem_lastLine before
    obtain ⟨text, offset, lineFeeds⟩ :=
      append_lineFeed_append earlier (lastLine before) rest count
    rw [← parts] at text offset lineFeeds
    rw [text, offset, lineFeeds, position_append_right, inLine single,
      List.count_eq_zero.mpr single]
    rfl

/-- The line at a cut goes from the last line in front of it on to the first line behind it. -/
theorem text_line_append (before rest : List Char) :
    ((ofText (before ++ rest)).line (before.count '\n' + 1)).text =
      trimReturn (lastLine before ++ firstLine rest) := by
  have inLine {left : List Char} (single : '\n' ∉ left) :
      ((ofText (left ++ rest)).line 1).text = trimReturn (left ++ firstLine rest) := by
    rw [text_line_one, firstLine_append single]
  rcases notMem_or_eq_append_lastLine before with single | ⟨earlier, parts⟩
  · rw [List.count_eq_zero.mpr single, inLine single, lastLine_of_notMem single]
  · have single := notMem_lastLine before
    obtain ⟨text, -, lineFeeds⟩ := append_lineFeed_append earlier (lastLine before) rest 0
    have first : 1 ≤ (ofText (lastLine before ++ rest)).count := by
      rw [count_ofText]
      exact Nat.le_add_left ..
    rw [← parts] at text lineFeeds
    rw [text, lineFeeds, List.count_eq_zero.mpr single, Nat.add_zero,
      text_line_append_right (Nat.le_refl 1) first, inLine single]

end LineTable

end Source

/-! ## Diagnostics at a cut -/

namespace Diagnostic

open LineTable

variable {source stop : Nat} {message : String}

/-- An error at a cut is shown in the line of the cut, at most one column behind its text. -/
theorem locate_append (before rest : List Char) :
    locate (before ++ rest) message ⟨source, byteLength before, stop⟩ none =
      { message, line := String.ofList (trimReturn (lastLine before ++ firstLine rest)),
        lineNumber := before.count '\n' + 1,
        column := min (byteLength (lastLine before) + 1)
          (byteLength (trimReturn (lastLine before ++ firstLine rest)) + 1) } := by
  have place := position_append before (Nat.zero_le (byteLength (firstLine rest)))
  rw [Nat.add_zero, Nat.add_zero] at place
  simp only [locate, place, text_line_append]

/-- A literal at a cut is shown from its first to its last byte. -/
theorem locate_append_literal (before after : List Char) {literal : List Char}
    (filled : literal ≠ []) (single : '\n' ∉ literal) (ends : literal.getLast? ≠ some '\r') :
    locate (before ++ (literal ++ after)) message
        ⟨source, byteLength before, byteLength (before ++ literal)⟩
        (some ⟨source, byteLength before, byteLength (before ++ literal)⟩) =
      { message
        line := String.ofList (lastLine before ++ literal ++ trimReturn (firstLine after))
        lineNumber := before.count '\n' + 1
        column := byteLength (lastLine before) + 1
        rangeStart := byteLength (lastLine before) + 1
        rangeStop := byteLength (lastLine before) + byteLength literal } := by
  have positive := byteLength_pos filled
  have shown := trimReturn_append_literal (lastLine before) after filled single ends
  have width : byteLength (lastLine before) + byteLength literal ≤
      byteLength (lastLine before ++ literal ++ trimReturn (firstLine after)) := by
    rw [byteLength_append, byteLength_append]
    exact Nat.le_add_right ..
  have first := position_append before (Nat.zero_le (byteLength (firstLine (literal ++ after))))
  rw [Nat.add_zero, Nat.add_zero] at first
  have last : (ofText (before ++ (literal ++ after))).position
      (byteLength (before ++ literal) - 1) =
        (before.count '\n' + 1, byteLength (lastLine before) + byteLength literal) := by
    have inside : byteLength literal - 1 ≤ byteLength (firstLine (literal ++ after)) := by
      rw [firstLine_append single, byteLength_append]
      omega
    rw [byteLength_append, Nat.add_sub_assoc positive, position_append before inside, Nat.add_assoc,
      Nat.sub_add_cancel positive]
  have notEmpty : Span.isEmpty ⟨source, byteLength before, byteLength (before ++ literal)⟩ =
      false := by
    simp only [Span.isEmpty, byteLength_append, decide_eq_false_iff_not]
    omega
  have column : min (byteLength (lastLine before) + 1)
      (byteLength (lastLine before ++ literal ++ trimReturn (firstLine after)) + 1) =
        byteLength (lastLine before) + 1 := by
    omega
  simp only [locate, first, last, notEmpty, text_line_append, shown, column, min_eq_left width]
  rw [if_neg Bool.false_ne_true, if_pos ⟨trivial, trivial, Nat.add_le_add_left positive _⟩]
  rfl

end Diagnostic

end Sequencer
