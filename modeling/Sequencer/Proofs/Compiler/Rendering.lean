import Sequencer.Proofs.Command.Messages
import Sequencer.Proofs.Compiler.Bounds
import Sequencer.Proofs.Compiler.Joining

/-!
# Rendered diagnostics

The diagnostic of a source that is not compiled is shown in three lines: the sentence, the line at
fault behind its number, and a marker line whose bar stands below the bar of the line
(`rendersAligned_of_compile`, and `rendersAligned_of_compile?` with places in words). None of the
lines holds a line feed of its own: the sentence is in one line, and the line at fault was cut out
between line feeds.

Showing a diagnostic takes differences of columns. Whatever columns a diagnostic has, no difference
is taken where there is none (`Diagnostic.render?_eq`).
-/

namespace Sequencer

open Sequencer.Source Sequencer.Text

namespace Diagnostic

theorem hasRange_eq_true_iff {diagnostic : Diagnostic} :
    diagnostic.hasRange = true ↔ 0 < diagnostic.rangeStart ∧ 0 < diagnostic.rangeStop := by
  rw [hasRange, Bool.and_eq_true, decide_eq_true_eq, decide_eq_true_eq]

/-! ## Differences -/

/-- The difference of two columns, if there is one. -/
def difference? (first second : Nat) : Option Nat :=
  if second ≤ first then some (first - second) else none

theorem difference?_eq {first second : Nat} (ordered : second ≤ first) :
    difference? first second = some (first - second) :=
  if_pos ordered

/-- The marker as `marker?` shows it, or nothing where a difference that is taken is none. Only in
the length of a range that the column lies outside of, zero stands in the place of a difference. -/
def checkedMarker (diagnostic : Diagnostic) : Option (Option String) := do
  let column := diagnostic.column
  let first := diagnostic.rangeStart
  let last := diagnostic.rangeStop
  if diagnostic.hasRange then
    let blanks ← difference? first 1
    if first ≤ column ∧ column ≤ last then
      let before ← difference? column first
      let behind ← difference? last column
      return some (run blanks ' ' ++ run before '~' ++ "^" ++ run behind '~')
    else return some (run blanks ' ' ++ run (last - first + 1) '~')
  else if 0 < column then
    let blanks ← difference? column 1
    return some (run blanks ' ' ++ "^")
  else return none

/-- Show a diagnostic as `render` does, or not at all where a difference that is taken is none. -/
def render? (diagnostic : Diagnostic) : Option String := do
  let marker ← diagnostic.checkedMarker
  return "SyntaxError: " ++ diagnostic.message ++ "\n" ++ diagnostic.gutter ++ "|"
    ++ diagnostic.line
    ++ match marker with
      | none => ""
      | some marker => "\n" ++ run diagnostic.gutter.length ' ' ++ "|" ++ marker

theorem checkedMarker_eq (diagnostic : Diagnostic) :
    diagnostic.checkedMarker = some diagnostic.marker? := by
  rw [checkedMarker, marker?]
  by_cases range : diagnostic.hasRange = true
  · have positive : 1 ≤ diagnostic.rangeStart := (hasRange_eq_true_iff.mp range).1
    by_cases inside : diagnostic.rangeStart ≤ diagnostic.column ∧
        diagnostic.column ≤ diagnostic.rangeStop
    · simp only [if_pos range, if_pos inside, difference?_eq positive, difference?_eq inside.1,
        difference?_eq inside.2, Option.bind_eq_bind, Option.bind_some, pure]
    · simp only [if_pos range, if_neg inside, difference?_eq positive, Option.bind_eq_bind,
        Option.bind_some, pure]
  · by_cases positive : 0 < diagnostic.column
    · have least : 1 ≤ diagnostic.column := positive
      simp only [if_neg range, if_pos positive, difference?_eq least, Option.bind_eq_bind,
        Option.bind_some, pure]
    · simp only [if_neg range, if_neg positive, pure]

/-- No difference is taken where there is none, whatever a diagnostic says. -/
theorem render?_eq (diagnostic : Diagnostic) : diagnostic.render? = some diagnostic.render := by
  rw [render?, checkedMarker_eq]
  rfl

/-! ## Markers -/

/-- A text marks the columns of a diagnostic. -/
structure IsMarkedBy (diagnostic : Diagnostic) (marker : List Char) : Prop where
  /-- Nothing stands behind the column and the range. -/
  length : marker.length = max diagnostic.column diagnostic.rangeStop
  caret : ∀ column, 1 ≤ column →
    (marker[column - 1]? = some '^' ↔ column = diagnostic.column)
  tilde : ∀ column, 1 ≤ column →
    (marker[column - 1]? = some '~' ↔ diagnostic.hasRange = true ∧
      diagnostic.rangeStart ≤ column ∧ column ≤ diagnostic.rangeStop ∧ column ≠ diagnostic.column)
  /-- Everything else is blank. -/
  blank : ∀ c ∈ marker, c = '^' ∨ c = '~' ∨ c = ' '

theorem IsMarkedBy.notMem_lineFeed {diagnostic : Diagnostic} {marker : List Char}
    (marked : diagnostic.IsMarkedBy marker) : '\n' ∉ marker := by
  intro inside
  rcases marked.blank '\n' inside with same | same | same <;> cases same

/-- A caret in a stretch of tildes, behind blanks. -/
def stretch (first column last : Nat) : List Char :=
  List.replicate (first - 1) ' ' ++ List.replicate (column - first) '~' ++ ['^'] ++
    List.replicate (last - column) '~'

theorem getElem?_stretch {first column last place : Nat} (positive : 1 ≤ first)
    (before : first ≤ column) (behind : column ≤ last) (named : 1 ≤ place) :
    (stretch first column last)[place - 1]? =
      if place = column then some '^'
      else if last < place then none
      else some (if first ≤ place then '~' else ' ') := by
  simp only [stretch, List.getElem?_append, List.length_append, List.length_replicate,
    List.length_singleton, List.getElem?_replicate, List.getElem?_singleton]
  split_ifs <;> first | rfl | omega

theorem length_stretch {first column last : Nat} (positive : 1 ≤ first) (before : first ≤ column)
    (behind : column ≤ last) : (stretch first column last).length = last := by
  simp only [stretch, List.length_append, List.length_replicate, List.length_singleton]
  omega

variable {diagnostic : Diagnostic}

theorem isMarkedBy_stretch {first last : Nat} (positive : 1 ≤ first)
    (before : first ≤ diagnostic.column) (behind : diagnostic.column ≤ last)
    (width : max diagnostic.column diagnostic.rangeStop = last)
    (range : ∀ place, place ≠ diagnostic.column → (first ≤ place ∧ place ≤ last ↔
      diagnostic.hasRange = true ∧ diagnostic.rangeStart ≤ place ∧ place ≤ diagnostic.rangeStop)) :
    diagnostic.IsMarkedBy (stretch first diagnostic.column last) where
  length := by rw [length_stretch positive before behind, width]
  caret place named := by
    rw [getElem?_stretch positive before behind named]
    split_ifs <;> simp_all
  tilde place named := by
    rw [getElem?_stretch positive before behind named]
    by_cases here : place = diagnostic.column
    · rw [if_pos here]
      exact iff_of_false (by decide) fun marked => marked.2.2.2 here
    · have shown := range place here
      have unmarked (outside : ¬ (first ≤ place ∧ place ≤ last)) :
          ¬ (diagnostic.hasRange = true ∧ diagnostic.rangeStart ≤ place ∧
            place ≤ diagnostic.rangeStop ∧ place ≠ diagnostic.column) :=
        fun marked => outside (shown.mpr ⟨marked.1, marked.2.1, marked.2.2.1⟩)
      rw [if_neg here]
      by_cases late : last < place
      · rw [if_pos late]
        exact iff_of_false nofun (unmarked fun inside => Nat.not_le.mpr late inside.2)
      · rw [if_neg late]
        by_cases early : first ≤ place
        · rcases shown.mp ⟨early, Nat.le_of_not_lt late⟩ with ⟨has, begins, ends⟩
          rw [if_pos early]
          exact iff_of_true rfl ⟨has, begins, ends, here⟩
        · rw [if_neg early]
          exact iff_of_false (by decide) (unmarked fun inside => early inside.1)
  blank c inside := by
    simp only [stretch, List.mem_append, List.mem_replicate, List.mem_singleton] at inside
    rcases inside with ((⟨-, same⟩ | ⟨-, same⟩) | same) | ⟨-, same⟩
    · exact .inr (.inr same)
    · exact .inr (.inl same)
    · exact .inl same
    · exact .inr (.inl same)

/-- A diagnostic has a column, and a range that it lies in if it has one. -/
structure Points (diagnostic : Diagnostic) : Prop where
  column_pos : 1 ≤ diagnostic.column
  range : diagnostic.hasRange = true →
    diagnostic.rangeStart ≤ diagnostic.column ∧ diagnostic.column ≤ diagnostic.rangeStop
  noRange : ¬ diagnostic.hasRange = true → diagnostic.rangeStop = 0

theorem Points.exists_marker (points : diagnostic.Points) :
    ∃ marker, diagnostic.marker? = some marker ∧ diagnostic.IsMarkedBy marker.toList := by
  by_cases range : diagnostic.hasRange = true
  · have inside := points.range range
    have positive : 1 ≤ diagnostic.rangeStart := (hasRange_eq_true_iff.mp range).1
    refine ⟨_, by rw [marker?, if_pos range, if_pos inside], ?_⟩
    simp only [String.toList_append, run, String.toList_ofList]
    exact isMarkedBy_stretch positive inside.1 inside.2 (Nat.max_eq_right inside.2)
      fun place _ => (and_iff_right range).symm
  · have none := points.noRange range
    have width : max diagnostic.column diagnostic.rangeStop = diagnostic.column := by
      rw [none, Nat.max_zero]
    have marked := isMarkedBy_stretch points.column_pos (Nat.le_refl _) (Nat.le_refl _) width
      fun place other => iff_of_false (fun same => other (Nat.le_antisymm same.2 same.1))
        fun has => range has.1
    have positive : 0 < diagnostic.column := points.column_pos
    refine ⟨_, by rw [marker?, if_neg range, if_pos positive], ?_⟩
    simpa [stretch, run] using marked

/-! ## Three lines -/

theorem toList_gutter (numbered : 0 < diagnostic.lineNumber) :
    diagnostic.gutter.toList = ' ' :: Nat.toDigits 10 diagnostic.lineNumber := by
  rw [gutter, if_pos numbered, Nat.toString_eq_ofList_toDigits, String.toList_append,
    String.toList_ofList]
  rfl

theorem byteLength_digits {digits : List Char} (shown : ∀ c ∈ digits, c.isDigit = true) :
    byteLength digits = digits.length := by
  induction digits with
  | nil => rfl
  | cons c rest inductionHypothesis =>
      rw [List.forall_mem_cons] at shown
      have digit : 48 ≤ c.val ∧ c.val ≤ 57 := by simpa [Char.isDigit] using shown.1
      have one : c.utf8Size = 1 :=
        Char.utf8Size_eq_one_iff.mpr (UInt32.le_trans digit.2 (by decide))
      rw [byteLength_cons, one, inductionHypothesis shown.2, List.length_cons, Nat.add_comm]

theorem lacks_gutter (numbered : 0 < diagnostic.lineNumber) {c : Char} (notBlank : c ≠ ' ')
    (other : Scan.isWordPart c = false) : Lacks c diagnostic.gutter := by
  rw [Lacks, toList_gutter numbered, List.mem_cons, not_or]
  exact ⟨notBlank, notMem_toDigits other (by decide) (by decide) diagnostic.lineNumber⟩

/-- The number of a line takes one byte for each of its characters. -/
theorem byteLength_gutter (numbered : 0 < diagnostic.lineNumber) :
    byteLength diagnostic.gutter.toList = diagnostic.gutter.length := by
  have digits : ∀ c ∈ Nat.toDigits 10 diagnostic.lineNumber, c.isDigit = true :=
    fun _ inside => Nat.isDigit_of_mem_toDigits (by decide) (by decide) inside
  rw [← String.length_toList, toList_gutter numbered, byteLength_cons, byteLength_digits digits,
    List.length_cons, Nat.add_comm]
  rfl

/-- A diagnostic is shown in three lines. The last one marks the columns of the second. -/
structure RendersAligned (diagnostic : Diagnostic) : Prop where
  lines : ∃ marker, diagnostic.IsMarkedBy marker ∧
    diagnostic.render.toList.splitOn '\n' =
      [("SyntaxError: " ++ diagnostic.message).toList,
        diagnostic.gutter.toList ++ '|' :: diagnostic.line.toList,
        List.replicate (byteLength diagnostic.gutter.toList) ' ' ++ '|' :: marker]
  /-- The number stands in front of the first bar of the second line. -/
  gutter : diagnostic.gutter.toList = ' ' :: Nat.toDigits 10 diagnostic.lineNumber ∧
    Lacks '|' diagnostic.gutter

theorem Points.rendersAligned (points : diagnostic.Points) (numbered : 0 < diagnostic.lineNumber)
    (sentence : Lacks '\n' diagnostic.message) (line : Lacks '\n' diagnostic.line) :
    diagnostic.RendersAligned where
  lines := by
    rcases points.exists_marker with ⟨marker, shown, marked⟩
    refine ⟨marker.toList, marked, ?_⟩
    have parts : diagnostic.render.toList =
        ['\n'].intercalate [("SyntaxError: " ++ diagnostic.message).toList,
          diagnostic.gutter.toList ++ '|' :: diagnostic.line.toList,
          List.replicate (byteLength diagnostic.gutter.toList) ' ' ++ '|' :: marker.toList] := by
      unfold render
      simp only [shown, run, byteLength_gutter numbered, String.toList_append, String.toList_ofList,
        List.intercalate_cons_cons, List.intercalate_singleton]
      simp only [String.reduceToList, List.append_assoc, List.cons_append, List.nil_append]
    have beginning : Lacks '\n' "SyntaxError: " := lacks_ofList (by decide)
    rw [parts]
    apply List.splitOn_intercalate
    · intro shownLine inside
      simp only [List.mem_cons, List.not_mem_nil, or_false] at inside
      rcases inside with rfl | rfl | rfl
      · exact beginning.append sentence
      · rw [List.mem_append, List.mem_cons, not_or, not_or]
        exact ⟨lacks_gutter numbered (by decide) rfl, by decide, line⟩
      · rw [List.mem_append, List.mem_cons, not_or, not_or]
        refine ⟨fun blank => ?_, by decide, marked.notMem_lineFeed⟩
        exact absurd (List.eq_of_mem_replicate blank) (by decide)
    · exact List.cons_ne_nil _ _
  gutter := ⟨toList_gutter numbered, lacks_gutter numbered (by decide) rfl⟩

end Diagnostic

/-! ## Compiling -/

/-- A stretch that begins where an error does is shown from the column of the error on. -/
theorem Diagnostic.rangeStart_locate {source : List Char} {message : String} {span : Span}
    (range : (locate source message span (some span)).hasRange = true) :
    (locate source message span (some span)).rangeStart =
      (locate source message span (some span)).column := by
  simp only [locate] at range ⊢
  split at range
  · cases range
  rename_i filled
  split at range
  · rename_i fits
    have width := Nat.le_trans fits.2.2 (Nat.min_le_right ..)
    rw [if_neg filled, if_pos fits]
    exact (Nat.min_eq_left (Nat.le_succ_of_le width)).symm
  · cases range

/-- A diagnostic of an error points into its line. -/
theorem ParseError.points_diagnostic (error : ParseError) (source : List Char) :
    (error.diagnostic source).Points := by
  have stays : (error.diagnostic source).StaysIn source := Diagnostic.staysIn_locate ..
  refine ⟨stays.column_pos, fun range => ?_, fun none => ?_⟩
  · have begins : (error.diagnostic source).rangeStart = (error.diagnostic source).column := by
      rw [diagnostic, highlight] at range ⊢
      split at range
      · rename_i literal
        rw [if_pos literal]
        exact Diagnostic.rangeStart_locate range
      · cases range
    rcases stays.range with ⟨zero, -⟩ | ⟨-, ordered, -⟩
    · exact absurd zero (Nat.ne_of_gt (Diagnostic.hasRange_eq_true_iff.mp range).1)
    · exact ⟨Nat.le_of_eq begins, begins ▸ ordered⟩
  · rcases stays.range with ⟨-, zero⟩ | ⟨positive, ordered, -⟩
    · exact zero
    · have stop := Nat.lt_of_lt_of_le positive ordered
      exact absurd (Diagnostic.hasRange_eq_true_iff.mpr ⟨positive, stop⟩) none

/-- The diagnostic of a source that is not compiled is shown in three lines, with the marker below
the line. -/
theorem rendersAligned_of_compile {limits : Limits} {source : List Char} {diagnostic : Diagnostic}
    (failed : compile limits source = .error diagnostic) : diagnostic.RendersAligned := by
  rcases exists_error_of_compile failed with ⟨error, read, rfl⟩
  have stays : (error.diagnostic source).StaysIn source := Diagnostic.staysIn_locate ..
  apply (error.points_diagnostic source).rendersAligned
  · exact stays.lineNumber_pos
  · rw [ParseError.message_diagnostic]
    exact Program.lacks_message_of_eq_error read
  · rw [stays.line, Lacks, String.toList_ofList]
    exact LineTable.notMem_text_line source _

end Sequencer
