import Sequencer.Proofs.Command.CorrectPrefix
import Sequencer.Proofs.Compiler.Joining
import Sequencer.Proofs.Source.Places
import Sequencer.Proofs.Token.Recovery

/-!
# Diagnostics point at what was found

The diagnostic of a source that is not compiled shows the line that the error stands in and the
column in which it begins (`pointsAt_of_compile`, and `pointsAt_of_compile?` with places in words).
An error about a literal stands where the literal does, and a literal lies inside of one line, in
front of the carriage return that the line may end with. So no part of it is lost, and the columns
of the range are those of the literal.
-/

namespace Sequencer

open Sequencer.Source Sequencer.Text

/-! ## Errors about literals -/

namespace ParseError.Cause

/-- A cause that is about a literal was found where a literal stands. -/
def FindsLiteral (cause : Cause) (found : Except LexicalError Token) : Prop :=
  cause.isLiteral = true → (∃ value, found = .ok (.number value)) ∨
    ∃ error, found = .error error ∧ error.isLiteral = true

theorem findsLiteral_lexical (error : LexicalError) : (lexical error).FindsLiteral (.error error) :=
  fun literal => .inr ⟨error, rfl, literal⟩

end ParseError.Cause

section

variable {limits : Limits} {tokens : List Token} {found : Except LexicalError Token}
  {cause : ParseError.Cause}

theorem Form.findsLiteral_of_judge {form : Form} {token : Token}
    (judged : form.judge limits token = .refuse cause) : cause.FindsLiteral (.ok token) := by
  intro literal
  refine .inl ?_
  cases form with
  | done instruction => cases judged
  | mark mark next =>
      by_cases same : token = mark <;> simp [judge, same] at judged
      subst judged
      cases literal
  | choice mark taken skipped => by_cases same : token = mark <;> simp [judge, same] at judged
  | level next =>
      cases names : token.level? with
      | some on => simp [judge, names] at judged
      | none =>
          cases token with
          | number value => exact ⟨value, rfl⟩
          | _ =>
              simp only [judge, names, Verdict.refuse.injEq] at judged
              subst judged
              cases literal
  | _ =>
      cases token with
      | number value => exact ⟨value, rfl⟩
      | _ =>
          cases judged
          cases literal

theorem Form.Gives.findsLiteral {form : Form} {answer : Except ParseError.Cause Instruction}
    (gives : form.Gives limits tokens found answer) (failed : answer = .error cause) :
    cause.FindsLiteral found := by
  induction gives with
  | done => cases failed
  | broken asks error =>
      cases failed
      exact ParseError.Cause.findsLiteral_lexical error
  | refuse judged =>
      cases failed
      exact findsLiteral_of_judge judged
  | read asks judged following inductionHypothesis => exact inductionHypothesis failed
  | leave asks judged shown following inductionHypothesis => exact inductionHypothesis failed

theorem Statement.Gives.findsLiteral {answer : Except ParseError.Cause Instruction}
    (gives : Statement.Gives limits tokens found answer) (failed : answer = .error cause) :
    cause.FindsLiteral found := by
  cases gives with
  | notCommand | unknown =>
      cases failed
      exact nofun
  | command named behind => exact behind.findsLiteral failed

theorem Program.Gives.findsLiteral {answer : Except ParseError.Cause (List Instruction)}
    (gives : Program.Gives limits tokens found answer) (failed : answer = .error cause) :
    cause.FindsLiteral found := by
  induction gives with
  | done | last => cases failed
  | broken error | brokenBehind =>
      cases failed
      exact ParseError.Cause.findsLiteral_lexical _
  | empty separator following inductionHypothesis => exact inductionHypothesis failed
  | refuse refused =>
      cases failed
      exact refused.findsLiteral rfl
  | notEnded =>
      cases failed
      exact nofun
  | @line tokens others separator found instruction answer statement following
      inductionHypothesis =>
      cases answer with
      | error cause' =>
          cases failed
          exact inductionHypothesis rfl
      | ok instructions => cases failed

end

/-! ## Items in their lines -/

namespace Scan

variable {text : List Char} {content : Except LexicalError Token}

/-- Only line ends are written with the characters that lines end with. -/
theorem Written.eq_endOfLine (written : Written text content)
    (ends : text.head? = some '\n' ∨ text.head? = some '\r') : content = .ok .endOfLine := by
  cases written with
  | lineFeed | carriageReturn => rfl
  | word begins | number begins | noNumber begins =>
      rcases ends with same | same <;> cases same <;> simp [IsLetter, IsDigit] at begins
  | unexpected other => rcases ends with same | same <;> cases same <;> simp at other
  | _ => rcases ends with same | same <;> cases same

theorem Written.getLast?_ne (written : Written text content) : text.getLast? ≠ some '\r' := by
  intro last
  have inside := List.mem_of_getLast? last
  cases written with
  | word begins goesOn =>
      rcases List.mem_cons.mp inside with rfl | later
      · simp [IsLetter] at begins
      · simpa [IsLetter, IsDigit] using goesOn _ later
  | number begins goesOn | noNumber begins goesOn =>
      rcases List.mem_cons.mp inside with rfl | later
      · simp [IsDigit] at begins
      · simpa [IsLetter, IsDigit] using goesOn _ later
  | unexpected other =>
      obtain rfl := List.mem_singleton.mp inside
      simp at other
  | _ => simp at last

/-- A literal is written with letters, digits and underscores. -/
theorem Written.goesOn_of_literal (written : Written text content)
    (literal : (∃ value, content = .ok (.number value)) ∨
      ∃ error, content = .error error ∧ error.isLiteral = true) :
    ∀ c ∈ text, IsLetter c ∨ IsDigit c := by
  cases written with
  | number begins goesOn | noNumber begins goesOn =>
      rw [List.forall_mem_cons]
      exact ⟨.inr begins, goesOn⟩
  | _ => simp [LexicalError.isLiteral] at literal

/-- Letters and digits stand inside of a line, in front of its end. -/
theorem inLine_of_goesOn {literal : List Char} (goesOn : ∀ c ∈ literal, IsLetter c ∨ IsDigit c) :
    '\n' ∉ literal ∧ literal.getLast? ≠ some '\r' := by
  refine ⟨fun inside => ?_, fun last => ?_⟩
  · simpa [IsLetter, IsDigit] using goesOn _ inside
  · simpa [IsLetter, IsDigit] using goesOn _ (List.mem_of_getLast? last)

/-- A carriage return at the end of a gap is not that of a line end. -/
theorem IsGap.head?_ne {gap rest : List Char} (isGap : IsGap gap rest)
    (last : gap.getLast? = some '\r') : rest.head? ≠ some '\n' := by
  induction isGap with
  | nothing => cases last
  | comment inLine ends whole =>
      rename_i body rest
      cases body with
      | nil => cases last
      | cons c more => exact whole last
  | carriageReturn alone following inductionHypothesis =>
      rename_i gap rest
      cases gap with
      | nil => exact alone
      | cons c more => exact inductionHypothesis last
  | space following inductionHypothesis | tab following inductionHypothesis =>
      rename_i gap rest
      cases gap with
      | nil => cases last
      | cons c more => exact inductionHypothesis last

/-- A line feed behind a carriage return belongs to the same item. -/
theorem head?_ne_of_items {source : List Char} {passed later : List Item} {item : Item}
    (items : (ofText source).items = passed ++ item :: later)
    (last : (textOf passed ++ item.gap).getLast? = some '\r') :
    item.text.head? ≠ some '\n' := by
  have written (other : Item) (inside : other ∈ passed ++ item :: later) :
      Written other.text other.content := written_of_mem (items ▸ inside)
  have filled := (written item (List.mem_append_right _ List.mem_cons_self)).ne_nil
  rw [List.getLast?_append] at last
  cases lastOfGap : item.gap.getLast? with
  | some c =>
      obtain rfl : c = '\r' := by simpa [lastOfGap] using last
      have behind := (isGap_of_items items).head?_ne lastOfGap
      rwa [List.append_assoc, List.head?_append_of_ne_nil _ filled] at behind
  | none =>
      rcases List.eq_nil_or_concat passed with rfl | ⟨earlier, previous, rfl⟩
      · simp [lastOfGap] at last
      · have wrote := written previous (by simp)
        rw [lastOfGap, Option.none_or, List.concat_eq_append, textOf_append, textOf_cons,
          textOf_nil, List.append_nil, ← List.append_assoc,
          List.getLast?_append_of_ne_nil _ wrote.ne_nil] at last
        exact absurd last wrote.getLast?_ne

end Scan

/-! ## Places in the text of a line -/

/-- What was found between two parts of a source stands in the text of its line, unless it is an
end. -/
structure Lexeme.InLine (found : Lexeme) (before rest : List Char) : Prop where
  /-- A carriage return at the end of a source is left out of the last line. -/
  leftOut : found.content = .ok .endOfInput → (lastLine before).getLast? = some '\r' →
    byteLength (lastLine before) =
      byteLength (trimReturn (lastLine before ++ firstLine rest)) + 1
  reached : ¬ (found.content = .ok .endOfInput ∧ (lastLine before).getLast? = some '\r') →
    byteLength (lastLine before) ≤ byteLength (trimReturn (lastLine before ++ firstLine rest))
  isEnd : byteLength (trimReturn (lastLine before ++ firstLine rest)) ≤
      byteLength (lastLine before) →
    found.content = .ok .endOfLine ∨ found.content = .ok .endOfInput

namespace Lexeme

theorem inLine_end (source : List Char) (span : Span) :
    InLine ⟨span, .ok .endOfInput⟩ source [] := by
  have whole : lastLine source ++ firstLine [] = lastLine source := List.append_nil _
  refine ⟨fun _ ends => ?_, fun others => ?_, fun _ => .inr rfl⟩
  · rw [whole]
    exact Line.byteLength_body 0 ends
  · have noReturn : (lastLine source).getLast? ≠ some '\r' := fun ends => others ⟨rfl, ends⟩
    rw [whole, trimReturn, if_neg noReturn]

/-- An item stands in its line, and only line ends stand behind the text of their line. -/
theorem inLine_of_items {source : List Char} {passed later : List Item} {item : Item}
    (items : (Scan.ofText source).items = passed ++ item :: later) (span : Span) :
    InLine ⟨span, item.content⟩ (Scan.textOf passed ++ item.gap)
      (item.text ++ (Scan.textOf later ++ (Scan.ofText source).trailing)) := by
  have inside : item ∈ (Scan.ofText source).items :=
    items ▸ List.mem_append_right _ List.mem_cons_self
  have written := Scan.written_of_mem inside
  obtain ⟨c, more, text⟩ := List.exists_cons_of_ne_nil written.ne_nil
  have first : item.text.head? = some c := by
    rw [text]
    rfl
  generalize behind : Scan.textOf later ++ (Scan.ofText source).trailing = after
  have noReturn : firstLine (item.text ++ after) = [] →
      (lastLine (Scan.textOf passed ++ item.gap)).getLast? ≠ some '\r' := by
    intro nothing last
    refine Scan.head?_ne_of_items items (getLast?_of_lastLine last) (first.trans ?_)
    rw [text, List.cons_append] at nothing
    by_contra inLine
    rw [firstLine_cons fun same => inLine (congrArg some same)] at nothing
    cases nothing
  have shown := trimReturn_append noReturn
  have notEnd : item.content ≠ .ok .endOfInput := Scan.content_ne_endOfInput inside
  refine ⟨fun ended => absurd ended notEnd, fun _ => ?_, fun short => .inl ?_⟩
  · rw [shown, byteLength_append]
    exact Nat.le_add_right ..
  · have nothing : trimReturn (firstLine (item.text ++ after)) = [] := by
      by_contra filled
      have positive := byteLength_pos filled
      rw [shown, byteLength_append] at short
      omega
    refine written.eq_endOfLine ?_
    rw [first]
    by_contra other
    rw [not_or] at other
    rw [text, List.cons_append, firstLine_cons fun same => other.1 (congrArg some same)] at nothing
    rcases eq_nil_or_eq_of_trimReturn nothing with same | same
    · cases same
    · exact other.2 (congrArg some (List.cons.inj same).1)

end Lexeme

/-! ## Pointing -/

/-- A diagnostic points at what was found between two parts of a source. -/
structure Diagnostic.PointsAt (source : List Char) (error : ParseError) (found : Lexeme)
    (before rest : List Char) (diagnostic : Diagnostic) : Prop where
  source_eq : source = before ++ rest
  start : error.span.start = byteLength before
  span : found.span = error.span
  message : diagnostic.message = error.message
  /-- The line is the one behind the line feeds that stand before the error. -/
  lineNumber : diagnostic.lineNumber = before.count '\n' + 1
  line : diagnostic.line = String.ofList (trimReturn (lastLine before ++ firstLine rest))
  /-- The column is that of the error, except at an end of input that no longer stands in the line
  because a carriage return in front of it was left out. -/
  column : ¬ (found.content = .ok .endOfInput ∧ (lastLine before).getLast? = some '\r') →
    diagnostic.column = byteLength (lastLine before) + 1
  columnAtEnd : found.content = .ok .endOfInput → (lastLine before).getLast? = some '\r' →
    diagnostic.column = byteLength diagnostic.line.toList + 1
  column_le : diagnostic.column ≤ byteLength diagnostic.line.toList + 1
  /-- Only line ends and the end of input stand behind the text of a line. -/
  isEnd : diagnostic.column = byteLength diagnostic.line.toList + 1 →
    found.content = .ok .endOfLine ∨ found.content = .ok .endOfInput
  hasRange_iff : diagnostic.hasRange = true ↔ ∃ stretch, error.highlight = some stretch
  /-- The range of columns is that of the literal at fault. -/
  range : ∀ stretch, error.highlight = some stretch → diagnostic.rangeStart = diagnostic.column ∧
    ∃ literal, literal ≠ [] ∧ slice? source stretch.start stretch.stop = some literal ∧
      slice? diagnostic.line.toList (diagnostic.rangeStart - 1) diagnostic.rangeStop = some literal
  noRange : error.highlight = none → diagnostic.rangeStart = 0 ∧ diagnostic.rangeStop = 0

namespace ParseError

variable {before rest after literal : List Char} {stop : Nat} {cause : Cause}
  {content : Except LexicalError Token}

theorem highlight_of_isLiteral (isLiteral : cause.isLiteral = true) (span : Span) :
    highlight ⟨span, cause⟩ = some span :=
  if_pos isLiteral

/-- An error that is about no literal is shown in a column of its line. -/
theorem pointsAt_of_not_isLiteral (notLiteral : cause.isLiteral = false)
    (inLine : Lexeme.InLine ⟨⟨0, byteLength before, stop⟩, content⟩ before rest) :
    (diagnostic ⟨⟨0, byteLength before, stop⟩, cause⟩ (before ++ rest)).PointsAt (before ++ rest)
      ⟨⟨0, byteLength before, stop⟩, cause⟩ ⟨⟨0, byteLength before, stop⟩, content⟩ before
      rest := by
  have noHighlight : highlight ⟨⟨0, byteLength before, stop⟩, cause⟩ = none := by
    simp [highlight, notLiteral]
  rw [diagnostic_of_not_isLiteral notLiteral, Diagnostic.locate_append]
  refine ⟨rfl, rfl, rfl, rfl, rfl, rfl, fun others => ?_, fun ended ends => ?_, ?_,
    fun last => ?_, ?_, ?_, fun _ => ⟨rfl, rfl⟩⟩
  · exact min_eq_left (Nat.succ_le_succ (inLine.reached others))
  · have leftOut := inLine.leftOut ended ends
    rw [String.toList_ofList]
    exact min_eq_right (by omega)
  · rw [String.toList_ofList]
    exact min_le_right ..
  · rw [String.toList_ofList] at last
    exact inLine.isEnd (Nat.le_of_succ_le_succ (last.symm.le.trans (Nat.min_le_left ..)))
  · simp [noHighlight, Diagnostic.hasRange]
  · simp [noHighlight]

/-- An error about a literal is shown in the columns of that literal. -/
theorem pointsAt_of_isLiteral (isLiteral : cause.isLiteral = true) (filled : literal ≠ [])
    (goesOn : ∀ c ∈ literal, Scan.IsLetter c ∨ Scan.IsDigit c)
    (inLine : Lexeme.InLine ⟨⟨0, byteLength before, byteLength (before ++ literal)⟩, content⟩ before
      (literal ++ after)) :
    (diagnostic ⟨⟨0, byteLength before, byteLength (before ++ literal)⟩, cause⟩
      (before ++ (literal ++ after))).PointsAt (before ++ (literal ++ after))
      ⟨⟨0, byteLength before, byteLength (before ++ literal)⟩, cause⟩
      ⟨⟨0, byteLength before, byteLength (before ++ literal)⟩, content⟩ before
      (literal ++ after) := by
  obtain ⟨single, ends⟩ := Scan.inLine_of_goesOn goesOn
  have highlighted := highlight_of_isLiteral isLiteral
    ⟨0, byteLength before, byteLength (before ++ literal)⟩
  have positive := byteLength_pos filled
  have shown := trimReturn_append_literal (lastLine before) after filled single ends
  have width : byteLength (trimReturn (lastLine before ++ firstLine (literal ++ after))) =
      byteLength (lastLine before) + byteLength literal +
        byteLength (trimReturn (firstLine after)) := by
    rw [shown, byteLength_append, byteLength_append]
  rw [diagnostic, highlighted, Diagnostic.locate_append_literal before after filled single ends,
    ← shown]
  refine ⟨rfl, rfl, rfl, rfl, rfl, rfl, fun _ => rfl, fun ended ends => ?_, ?_, fun last => ?_, ?_,
    ?_, fun nothing => absurd (highlighted.symm.trans nothing) (Option.some_ne_none _)⟩
  · have leftOut := inLine.leftOut ended ends
    omega
  · rw [String.toList_ofList, width]
    dsimp only
    omega
  · rw [String.toList_ofList, width] at last
    dsimp only at last
    omega
  · rw [highlighted]
    simp [Diagnostic.hasRange, Nat.add_pos_right _ positive]
  · rw [highlighted]
    rintro _ ⟨⟩
    refine ⟨rfl, literal, filled, ?_, ?_⟩
    · rw [← List.append_assoc]
      exact slice?_append before literal after
    · have cut := slice?_append (lastLine before) literal (trimReturn (firstLine after))
      rw [String.toList_ofList, shown, Nat.add_sub_cancel, ← byteLength_append]
      exact cut

end ParseError

namespace Program

variable {limits : Limits} {source : List Char} {passed later : List Item} {item : Item}
  {tokens : List Token} {cause : ParseError.Cause}

/-- An item that stands next stands at the place of its text. -/
theorem front_left_cons (source : List Char) (passed later : List Item) (item : Item) :
    (left source passed (item :: later)).front =
      ⟨⟨0, byteLength (Scan.textOf passed ++ item.gap),
        byteLength (Scan.textOf passed ++ item.gap ++ item.text)⟩, item.content⟩ := by
  rw [byteLength_append _ item.text, byteLength_append]
  rfl

/-- An error in front of an item stands where the text of that item does, and it is about a literal
only if the item is one. -/
theorem Reads.text_of_item
    (reads : Reads limits source passed (item :: later) tokens (.error cause)) :
    source = Scan.textOf passed ++ item.gap ++
        (item.text ++ (Scan.textOf later ++ (Scan.ofText source).trailing)) ∧
      item.text ≠ [] ∧
      (cause.isLiteral = true → ∀ c ∈ item.text, Scan.IsLetter c ∨ Scan.IsDigit c) := by
  have inside : item ∈ (Scan.ofText source).items :=
    reads.items ▸ List.mem_append_right _ List.mem_cons_self
  have written := Scan.written_of_mem inside
  have finds := reads.gives.findsLiteral rfl
  rw [front_left_cons] at finds
  refine ⟨?_, written.ne_nil, fun literal => written.goesOn_of_literal (finds literal)⟩
  rw [← List.append_assoc item.text]
  exact Stream.text_of_items reads.items

/-- An error at the end of input is about no literal. -/
theorem Reads.isLiteral_of_end (reads : Reads limits source passed [] tokens (.error cause)) :
    cause.isLiteral = false := by
  obtain ⟨names, -⟩ := reads.gives.endOfLine rfl rfl
  obtain ⟨-, -, notLiteral, -⟩ := ParseError.Cause.exists_message_eq names
  exact notLiteral

theorem Reads.pointsAt_of_item
    (reads : Reads limits source passed (item :: later) tokens (.error cause)) :
    ∃ before rest, (ParseError.diagnostic
      ⟨(left source passed (item :: later)).front.span, cause⟩ source).PointsAt source
        ⟨(left source passed (item :: later)).front.span, cause⟩
        (left source passed (item :: later)).front before rest := by
  obtain ⟨parts, filled, goesOn⟩ := reads.text_of_item
  have inLine := Lexeme.inLine_of_items reads.items
    ⟨0, byteLength (Scan.textOf passed ++ item.gap),
      byteLength (Scan.textOf passed ++ item.gap ++ item.text)⟩
  rw [front_left_cons]
  generalize Scan.textOf later ++ (Scan.ofText source).trailing = after at inLine parts
  subst parts
  refine ⟨Scan.textOf passed ++ item.gap, item.text ++ after, ?_⟩
  cases literal : cause.isLiteral with
  | false => exact ParseError.pointsAt_of_not_isLiteral literal inLine
  | true => exact ParseError.pointsAt_of_isLiteral literal filled (goesOn literal) inLine

theorem Reads.pointsAt_of_end (reads : Reads limits source passed [] tokens (.error cause)) :
    ∃ before rest, (ParseError.diagnostic
      ⟨(left source passed []).front.span, cause⟩ source).PointsAt source
        ⟨(left source passed []).front.span, cause⟩ (left source passed []).front before rest := by
  have points := ParseError.pointsAt_of_not_isLiteral reads.isLiteral_of_end
    (Lexeme.inLine_end source ⟨0, byteLength source, byteLength source⟩)
  rw [List.append_nil] at points
  exact ⟨source, [], points⟩

end Program

/-- The diagnostic of a source that is not compiled points at what is found at the error, in the
line that the error stands in. -/
theorem pointsAt_of_compile {limits : Limits} {source : List Char} {diagnostic : Diagnostic}
    (failed : compile limits source = .error diagnostic) :
    ∃ error before rest, Program.ofText limits source = .error error ∧
      diagnostic.PointsAt source error
        ((Stream.ofText 0 source).foundAt error.span.start) before rest := by
  obtain ⟨error, read, rfl⟩ := exists_error_of_compile failed
  obtain ⟨passed, later, tokens, cause, reads, rfl⟩ := Program.exists_reads_of_eq_error read
  have found := reads.before_foundAt.2
  cases later with
  | nil =>
      obtain ⟨before, rest, points⟩ := reads.pointsAt_of_end
      exact ⟨_, before, rest, read, found.symm ▸ points⟩
  | cons item later =>
      obtain ⟨before, rest, points⟩ := reads.pointsAt_of_item
      exact ⟨_, before, rest, read, found.symm ▸ points⟩

end Sequencer
