import Sequencer.Proofs.Text.Slices
import Sequencer.Proofs.Token.Scanning
import Mathlib.Data.List.TakeWhile
import Mathlib.Tactic.Tauto

/-!
# Recovering a source from its lexemes

A reader that goes on behind errors is given one lexeme after the other and then the end of input
for ever (`Stream.look`). Every lexeme is written in the way of its kind (`Scan.Written`), and all
that stands between lexemes is blank or a comment (`Scan.IsGap`). So a source can be recovered from
the places of its lexemes (`Stream.recovers_ofText`).
-/

namespace Sequencer

open Sequencer.Source Sequencer.Text

namespace Scan

/-! ## How items are written -/

/-- A letter or an underscore. -/
def IsLetter (c : Char) : Prop := 'a' ≤ c ∧ c ≤ 'z' ∨ 'A' ≤ c ∧ c ≤ 'Z' ∨ c = '_'

/-- A decimal digit. -/
def IsDigit (c : Char) : Prop := '0' ≤ c ∧ c ≤ '9'

theorem isWordStart_iff {c : Char} : isWordStart c = true ↔ IsLetter c := by
  have alpha : c.isAlpha = (c.isUpper || c.isLower) := rfl
  have upper : c.isUpper = decide ('A' ≤ c ∧ c ≤ 'Z') := rfl
  have lower : c.isLower = (decide ('a' ≤ c) && decide (c ≤ 'z')) := rfl
  simp only [isWordStart, alpha, upper, lower, IsLetter, Bool.or_eq_true, Bool.and_eq_true,
    decide_eq_true_eq]
  tauto

theorem isDigit_iff {c : Char} : c.isDigit = true ↔ IsDigit c := by
  simp only [Char.isDigit, IsDigit, Bool.and_eq_true, decide_eq_true_eq, ge_iff_le, Char.le_def]

theorem isWordPart_iff {c : Char} : isWordPart c = true ↔ IsLetter c ∨ IsDigit c := by
  rw [← isWordStart_iff, ← isDigit_iff]
  simp only [isWordPart, isWordStart, Char.isAlphanum, Bool.or_eq_true, or_assoc]

/-- How an item is written. -/
inductive Written : List Char → Except LexicalError Token → Prop
  | lineFeed : Written ['\n'] (.ok .endOfLine)
  | carriageReturn : Written ['\r', '\n'] (.ok .endOfLine)
  | leftParen : Written ['('] (.ok .leftParen)
  | rightParen : Written [')'] (.ok .rightParen)
  | equals : Written ['='] (.ok .equals)
  | semicolon : Written [';'] (.ok .semicolon)
  | word {first : Char} {more : List Char} (begins : IsLetter first)
      (goesOn : ∀ c ∈ more, IsLetter c ∨ IsDigit c) :
      Written (first :: more) (.ok (.word (String.ofList (first :: more))))
  | number {first : Char} {more : List Char} {value : Nat} (begins : IsDigit first)
      (goesOn : ∀ c ∈ more, IsLetter c ∨ IsDigit c) :
      Written (first :: more) (.ok (.number value))
  | noNumber {first : Char} {more : List Char} {error : LexicalError} (begins : IsDigit first)
      (goesOn : ∀ c ∈ more, IsLetter c ∨ IsDigit c) (literal : error.isLiteral = true) :
      Written (first :: more) (.error error)
  | unexpected {c : Char} (other : c ∉ [' ', '\t', '\r', '\n', '#', '(', ')', '=', ';'])
      (noLetter : ¬ IsLetter c) (noDigit : ¬ IsDigit c) :
      Written [c] (.error (.unexpectedCharacter c))

theorem written_ofLiteral {first : Char} {more : List Char} (begins : IsDigit first)
    (goesOn : ∀ c ∈ more, IsLetter c ∨ IsDigit c) :
    Written (first :: more) (ofLiteral (first :: more)) := by
  unfold ofLiteral
  split
  · exact .number begins goesOn
  · exact .noNumber begins goesOn rfl
  · exact .noNumber begins goesOn rfl

/-- A gap is empty, or it passes a character that begins no line end. -/
theorem splitGap_cons_eq {inComment : Bool} {c : Char} {others gap rest : List Char}
    (stops : splitGap inComment (c :: others) = (gap, rest)) :
    gap = [] ∧ rest = c :: others ∧
        (beginsLineEnd (c :: others) = true ∨ (inComment || isBlank c) = false) ∨
      ∃ gap', gap = c :: gap' ∧ splitGap (inComment || c = '#') others = (gap', rest) ∧
        (inComment || isBlank c) = true ∧ c ≠ '\n' ∧
        (c = '\r' → (gap' ++ rest).head? ≠ some '\n') := by
  rw [splitGap_cons] at stops
  split at stops
  · rename_i passed
    cases stops
    have inner := passed.1
    simp only [beginsLineEnd_cons, Bool.or_eq_false_iff, Bool.and_eq_false_imp,
      decide_eq_false_iff_not, decide_eq_true_eq] at inner
    refine .inr ⟨_, rfl, rfl, passed.2, inner.1, fun carriageReturn => ?_⟩
    rw [splitGap_append]
    exact inner.2 carriageReturn
  · rename_i stopped
    cases stops
    rw [not_and_or, Bool.not_eq_false, Bool.not_eq_true] at stopped
    exact .inl ⟨rfl, rfl, stopped⟩

/-- A gap stops at a line end or at a character that is not blank. -/
theorem not_isBlank_of_splitGap {inComment : Bool} {text gap after : List Char} {c : Char}
    (stops : splitGap inComment text = (gap, c :: after)) :
    beginsLineEnd (c :: after) = true ∨ isBlank c = false := by
  induction text generalizing inComment gap with
  | nil => simp [splitGap] at stops
  | cons d others inductionHypothesis =>
      rcases splitGap_cons_eq stops with ⟨-, same, stopped⟩ | ⟨gap, -, behind, -⟩
      · cases same
        exact stopped.imp_right fun inner => (Bool.or_eq_false_iff.mp inner).2
      · exact inductionHypothesis behind

theorem written_readFrom {c : Char} {rest : List Char}
    (stands : beginsLineEnd (c :: rest) = true ∨ isBlank c = false) :
    Written (c :: (readFrom c rest).1) (readFrom c rest).2.1 := by
  have goesOn : ∀ d ∈ rest.takeWhile isWordPart, IsLetter d ∨ IsDigit d := fun d inside =>
    isWordPart_iff.mp (List.mem_takeWhile_imp inside)
  cases mark : isMark c with
  | true =>
      simp only [isMark, Bool.or_eq_true, decide_eq_true_eq] at mark
      rcases mark with (((rfl | rfl) | rfl) | rfl) | rfl
      · exact .lineFeed
      · exact .leftParen
      · exact .rightParen
      · exact .equals
      · exact .semicolon
  | false =>
      rw [readFrom_of_not_isMark mark]
      by_cases lineEnd : c = '\r' ∧ rest.head? = some '\n'
      · rw [if_pos lineEnd, lineEnd.1]
        exact .carriageReturn
      · rw [if_neg lineEnd]
        by_cases letter : isWordStart c = true
        · rw [if_pos letter]
          exact .word (isWordStart_iff.mp letter) goesOn
        · rw [if_neg letter]
          by_cases digit : c.isDigit = true
          · rw [if_pos digit]
            exact written_ofLiteral (isDigit_iff.mp digit) goesOn
          · rw [if_neg digit]
            refine .unexpected ?_ (mt isWordStart_iff.mpr letter) (mt isDigit_iff.mpr digit)
            have noEnd : beginsLineEnd (c :: rest) = false := by
              rw [beginsLineEnd_cons]
              simp [isMark] at mark
              simpa [mark] using lineEnd
            have notBlank := stands.resolve_left (by simp [noEnd])
            simp_all [isMark, isBlank]

theorem written_of_next {source rest : List Char} {item : Item}
    (found : next source = .inr (item, rest)) : Written item.text item.content := by
  obtain ⟨c, after, stops, text, content, -⟩ := next_eq_inr_iff.mp found
  rw [text, content]
  exact written_readFrom (not_isBlank_of_splitGap stops)

/-- Every item of a scan is written in the way of its kind. -/
theorem written_of_mem {source : List Char} {item : Item} (inside : item ∈ (ofText source).items) :
    Written item.text item.content := by
  fun_induction ofText source with
  | case1 => simp at inside
  | case2 source first rest found following inductionHypothesis =>
      rcases List.mem_cons.mp inside with rfl | later
      · exact written_of_next found
      · exact inductionHypothesis later

theorem Written.ne_nil {text : List Char} {content : Except LexicalError Token}
    (written : Written text content) : text ≠ [] := by
  cases written <;> exact List.cons_ne_nil _ _

/-! ## Gaps -/

/-- Blanks, and a comment up to the end of its line, in front of a text. -/
inductive IsGap : List Char → List Char → Prop
  | nothing (rest : List Char) : IsGap [] rest
  | space {gap rest : List Char} (following : IsGap gap rest) : IsGap (' ' :: gap) rest
  | tab {gap rest : List Char} (following : IsGap gap rest) : IsGap ('\t' :: gap) rest
  | carriageReturn {gap rest : List Char} (alone : (gap ++ rest).head? ≠ some '\n')
      (following : IsGap gap rest) : IsGap ('\r' :: gap) rest
  | comment {body rest : List Char} (inLine : '\n' ∉ body)
      (ends : rest = [] ∨ ['\n'] <+: rest ∨ ['\r', '\n'] <+: rest)
      (whole : body.getLast? = some '\r' → rest.head? ≠ some '\n') : IsGap ('#' :: body) rest

theorem prefix_of_beginsLineEnd {text : List Char} (ends : beginsLineEnd text = true) :
    ['\n'] <+: text ∨ ['\r', '\n'] <+: text := by
  unfold beginsLineEnd at ends
  split at ends
  · exact .inl ⟨_, rfl⟩
  · exact .inr ⟨_, rfl⟩
  · cases ends

/-- A comment goes up to the end of its line. -/
theorem comment_splitGap {text body rest : List Char} (stops : splitGap true text = (body, rest)) :
    '\n' ∉ body ∧ (rest = [] ∨ beginsLineEnd rest = true) ∧
      (body.getLast? = some '\r' → rest.head? ≠ some '\n') := by
  induction text generalizing body with
  | nil =>
      cases stops
      exact ⟨List.not_mem_nil, .inl rfl, nofun⟩
  | cons c others inductionHypothesis =>
      rcases splitGap_cons_eq stops with ⟨rfl, rfl, stopped⟩ | ⟨body, rfl, behind, -, inLine, alone⟩
      · exact ⟨List.not_mem_nil, .inr (stopped.resolve_right nofun), nofun⟩
      · obtain ⟨inLine', ends, whole⟩ := inductionHypothesis behind
        refine ⟨List.not_mem_cons_of_ne_of_not_mem (Ne.symm inLine) inLine', ends, fun last => ?_⟩
        cases body with
        | nil => exact alone (Option.some.inj last)
        | cons d more => exact whole last

theorem isGap_splitGap {text gap rest : List Char} (stops : splitGap false text = (gap, rest)) :
    IsGap gap rest := by
  induction text generalizing gap with
  | nil =>
      cases stops
      exact .nothing []
  | cons c others inductionHypothesis =>
      rcases splitGap_cons_eq stops with ⟨rfl, rfl, -⟩ | ⟨gap, rfl, behind, blank, inLine, alone⟩
      · exact .nothing _
      · have blank : ((c = ' ' ∨ c = '\t') ∨ c = '\r') ∨ c = '#' := by simpa [isBlank] using blank
        rcases blank with ((rfl | rfl) | rfl) | rfl
        · exact .space (inductionHypothesis behind)
        · exact .tab (inductionHypothesis behind)
        · exact .carriageReturn (alone rfl) (inductionHypothesis behind)
        · obtain ⟨inBody, ends, whole⟩ := comment_splitGap behind
          exact .comment inBody (ends.imp_right prefix_of_beginsLineEnd) whole

/-- The gap before an item stands in front of that item and all that follows. -/
theorem isGap_of_items {source : List Char} {passed later : List Item} {item : Item}
    (items : (ofText source).items = passed ++ item :: later) :
    IsGap item.gap (item.text ++ textOf later ++ (ofText source).trailing) := by
  induction passed generalizing source with
  | nil =>
      cases found : next source with
      | inl trailing => simp [ofText_of_next_inl found] at items
      | inr first =>
          rcases first with ⟨first, rest⟩
          rw [ofText_of_next_inr found] at items ⊢
          obtain ⟨rfl, rfl⟩ : first = item ∧ (ofText rest).items = later := by simpa using items
          obtain ⟨c, after, stops, text, -, behind⟩ := next_eq_inr_iff.mp found
          have whole : first.text ++ textOf (ofText rest).items ++ (ofText rest).trailing =
              c :: after := by
            rw [List.append_assoc, textOf, ← Scan.text, text_ofText, text, behind,
              List.cons_append, readFrom_append]
          exact whole ▸ isGap_splitGap stops
  | cons first passed inductionHypothesis =>
      cases found : next source with
      | inl trailing => simp [ofText_of_next_inl found] at items
      | inr first' =>
          rcases first' with ⟨first', rest⟩
          rw [ofText_of_next_inr found] at items ⊢
          exact inductionHypothesis (List.cons.inj items).2

theorem isGap_trailing (source : List Char) : IsGap (ofText source).trailing [] := by
  fun_induction ofText source with
  | case1 source trailing nothing => exact isGap_splitGap (next_eq_inl_iff.mp nothing)
  | case2 source item rest found following inductionHypothesis => exact inductionHypothesis

end Scan

/-! ## Looking again and again -/

namespace Stream

open Scan

/-- What is seen, at its place. -/
def View.lexeme : View → Lexeme
  | .token found span _ => ⟨span, .ok found⟩
  | .broken error span _ => ⟨span, .error error⟩

/-- The stream behind what is seen. -/
def View.rest : View → Stream
  | .token _ _ rest => rest
  | .broken _ _ rest => rest

/-- What is seen next by a reader that has looked `count` times and has gone on behind errors. -/
def look (stream : Stream) : Nat → Lexeme
  | 0 => stream.view.lexeme
  | count + 1 => stream.view.rest.look count

/-- The lexemes of a stream are seen in their order, and behind them the end of input. -/
theorem look_eq (stream : Stream) (count : Nat) :
    stream.look count = stream.lexemes[count]?.getD ⟨stream.stop, .ok .endOfInput⟩ := by
  induction count generalizing stream with
  | zero => rcases stream with ⟨_ | ⟨⟨span, _ | token⟩, others⟩, stop⟩ <;> rfl
  | succ count inductionHypothesis =>
      rw [look, inductionHypothesis]
      rcases stream with ⟨_ | ⟨⟨span, _ | token⟩, others⟩, stop⟩ <;> rfl

theorem length_place (source offset : Nat) (items : List Item) :
    (place source offset items).length = items.length := by
  induction items generalizing offset with
  | nil => rfl
  | cons item rest inductionHypothesis =>
      rw [place, List.length_cons, List.length_cons, inductionHypothesis]

/-- What a reader of a text sees one after the other: `total` lexemes and then the end of input. -/
structure Recovers (source : Nat) (text : List Char) (seen : Nat → Lexeme) (total : Nat) :
    Prop where
  total_le : total ≤ byteLength text
  /-- The end of input stands behind the text, for ever. -/
  ended : ∀ index, total ≤ index →
    seen index = ⟨⟨source, byteLength text, byteLength text⟩, .ok .endOfInput⟩
  source_eq : ∀ index, (seen index).span.source = source
  filled : ∀ index < total, (seen index).span.start < (seen index).span.stop
  /-- The text at the place of a lexeme is written in the way of its kind. -/
  written : ∀ index < total, ∃ own,
    slice? text (seen index).span.start (seen index).span.stop = some own ∧
      Written own (seen index).content
  ordered : ∀ index later, index < later → later ≤ total →
    (seen index).span.stop ≤ (seen later).span.start
  /-- What stands between two lexemes, in front of the first and behind the last is a gap. -/
  gaps : ∀ index ≤ total, ∃ gap rest,
    slice? text (if index = 0 then 0 else (seen (index - 1)).span.stop) (seen index).span.start =
        some gap ∧
      slice? text (seen index).span.start (byteLength text) = some rest ∧ IsGap gap rest

/-! ### The places of lexemes -/

theorem length_le_byteLength_textOf {items : List Item} (filled : ∀ item ∈ items, item.text ≠ []) :
    items.length ≤ byteLength (textOf items) := by
  induction items with
  | nil => exact Nat.le_refl 0
  | cons item rest inductionHypothesis =>
      rw [List.forall_mem_cons] at filled
      have own := byteLength_pos filled.1
      have others := inductionHypothesis filled.2
      simp only [textOf_cons, byteLength_append, List.length_cons]
      omega

theorem byteLength_textOf_take_le {count count' : Nat} (items : List Item)
    (fewer : count ≤ count') :
    byteLength (textOf (items.take count)) ≤ byteLength (textOf (items.take count')) := by
  obtain ⟨others, parts⟩ := List.take_prefix_take_left (l := items) fewer
  rw [← parts, textOf_append, byteLength_append]
  exact Nat.le_add_right ..

section

variable {text : List Char} {passed later : List Item} {item : Item}

/-- An item is seen behind the items in front of it, at the place of its text. -/
theorem look_of_items (source : Nat) (items : (Scan.ofText text).items = passed ++ item :: later) :
    (ofText source text).look passed.length =
      ⟨⟨source, byteLength (textOf passed ++ item.gap), byteLength (textOf (passed ++ [item]))⟩,
        item.content⟩ := by
  rw [look_eq, ofText, items, place_append, List.getElem?_append_right (length_place ..).le,
    length_place, Nat.sub_self]
  simp [place, Nat.add_assoc]

theorem look_of_length_le (source : Nat) {index : Nat}
    (behind : (Scan.ofText text).items.length ≤ index) :
    (ofText source text).look index =
      ⟨⟨source, byteLength text, byteLength text⟩, .ok .endOfInput⟩ := by
  rw [look_eq, ofText, List.getElem?_eq_none (by rwa [length_place])]
  rfl

theorem text_of_items (items : (Scan.ofText text).items = passed ++ item :: later) :
    text = textOf passed ++ item.gap ++ (item.text ++ textOf later ++
      (Scan.ofText text).trailing) := by
  have whole := text_ofText text
  rw [Scan.text, ← textOf, items] at whole
  simpa using whole.symm

/-- What is seen at an index in front of the end of input is an item at the place of its text. -/
theorem exists_look_eq (source : Nat) {index : Nat}
    (inside : index < (Scan.ofText text).items.length) :
    ∃ passed item later, (Scan.ofText text).items = passed ++ item :: later ∧
      (Scan.ofText text).items.take index = passed ∧
      (Scan.ofText text).items.take (index + 1) = passed ++ [item] ∧
      (ofText source text).look index =
        ⟨⟨source, byteLength (textOf passed ++ item.gap), byteLength (textOf (passed ++ [item]))⟩,
          item.content⟩ := by
  have items : (Scan.ofText text).items = (Scan.ofText text).items.take index ++
      (Scan.ofText text).items[index] :: (Scan.ofText text).items.drop (index + 1) := by
    rw [List.getElem_cons_drop, List.take_append_drop]
  have seen := look_of_items source items
  rw [List.length_take_of_le inside.le] at seen
  exact ⟨_, _, _, items, rfl, List.take_succ_eq_append_getElem inside, seen⟩

/-- The text at the place of a lexeme is that of an item. -/
theorem exists_slice?_look (source : Nat) {index : Nat}
    (inside : index < (Scan.ofText text).items.length) :
    ∃ own, slice? text ((ofText source text).look index).span.start
        ((ofText source text).look index).span.stop = some own ∧
      Written own ((ofText source text).look index).content := by
  obtain ⟨passed, item, later, items, -, -, seen⟩ := exists_look_eq source inside
  refine ⟨item.text, slice?_eq_some_iff.mpr ⟨textOf passed ++ item.gap,
    textOf later ++ (Scan.ofText text).trailing, ?_, ?_, ?_⟩, ?_⟩
  · rw [List.append_assoc _ item.text, ← List.append_assoc item.text]
    exact text_of_items items
  · rw [seen]
  · rw [seen]
    simp [Nat.add_assoc]
  · rw [seen]
    exact written_of_mem (items ▸ List.mem_append_right _ List.mem_cons_self)

theorem stop_look (source : Nat) {index : Nat}
    (inside : index < (Scan.ofText text).items.length) :
    ((ofText source text).look index).span.stop =
      byteLength (textOf ((Scan.ofText text).items.take (index + 1))) := by
  obtain ⟨passed, item, later, -, -, taken, seen⟩ := exists_look_eq source inside
  rw [seen, taken]

/-- The items in front of an index, and the gap behind them, stand in front of what is seen. -/
theorem exists_gap (source : Nat) {index : Nat}
    (inside : index ≤ (Scan.ofText text).items.length) :
    ∃ gap rest, text = textOf ((Scan.ofText text).items.take index) ++ gap ++ rest ∧
      ((ofText source text).look index).span.start =
        byteLength (textOf ((Scan.ofText text).items.take index) ++ gap) ∧ IsGap gap rest := by
  rcases Nat.lt_or_eq_of_le inside with inside | rfl
  · obtain ⟨passed, item, later, items, taken, -, seen⟩ := exists_look_eq source inside
    rw [taken, seen]
    exact ⟨item.gap, _, text_of_items items, rfl, isGap_of_items items⟩
  · have whole := text_ofText text
    rw [Scan.text, ← textOf] at whole
    refine ⟨(Scan.ofText text).trailing, [], ?_, ?_, isGap_trailing text⟩
    · rw [List.take_length, List.append_nil, whole]
    · rw [look_of_length_le source (Nat.le_refl _), List.take_length, whole]

end

/-- A source is recovered from what a reader of it sees. -/
theorem recovers_ofText (source : Nat) (text : List Char) :
    ∃ total, Recovers source text (ofText source text).look total := by
  have filled : ∀ item ∈ (Scan.ofText text).items, item.text ≠ [] :=
    fun item inside => (written_of_mem inside).ne_nil
  refine ⟨(Scan.ofText text).items.length, ?_, fun index => look_of_length_le source, ?_, ?_,
    fun index => exists_slice?_look source, ?_, ?_⟩
  · have whole := congrArg byteLength (text_ofText text)
    rw [Scan.text, byteLength_append, ← textOf] at whole
    exact (length_le_byteLength_textOf filled).trans (Nat.le.intro whole)
  · intro index
    rcases Nat.lt_or_ge index (Scan.ofText text).items.length with inside | behind
    · obtain ⟨passed, item, later, -, -, -, seen⟩ := exists_look_eq source inside
      rw [seen]
    · rw [look_of_length_le source behind]
  · intro index inside
    obtain ⟨own, cut, written⟩ := exists_slice?_look source inside
    obtain ⟨before, after, -, start, stop⟩ := slice?_eq_some_iff.mp cut
    have positive := byteLength_pos written.ne_nil
    omega
  · intro index later before inside
    obtain ⟨gap, rest, -, start, -⟩ := exists_gap source inside
    rw [stop_look source (before.trans_le inside), start, byteLength_append]
    exact (byteLength_textOf_take_le _ before).trans (Nat.le_add_right ..)
  · intro index inside
    have previous : (if index = 0 then 0 else ((ofText source text).look (index - 1)).span.stop) =
        byteLength (textOf ((Scan.ofText text).items.take index)) := by
      cases index with
      | zero => rfl
      | succ index => exact stop_look source inside
    obtain ⟨gap, rest, parts, start, isGap⟩ := exists_gap source inside
    rw [previous, start]
    refine ⟨gap, rest, ?_, ?_, isGap⟩
    · exact slice?_eq_some_iff.mpr ⟨_, rest, parts, rfl, (byteLength_append ..).symm⟩
    · refine slice?_eq_some_iff.mpr ⟨_, [], by rw [List.append_nil]; exact parts, rfl, ?_⟩
      rw [← byteLength_append, ← parts]

end Stream

end Sequencer
