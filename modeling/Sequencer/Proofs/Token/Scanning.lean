import Sequencer.Token.Scan

/-!
# Scanning parts of a source

What is scanned at the beginning of a source does not depend on what stands far behind it. A scan
of a longer source goes on behind the items of the shorter one as long as the last of these is not
continued (`Scan.next_append_tail`), and a source may be cut in front of any of its items
(`Scan.exists_cut`). A line feed continues nothing, so the scan of two texts with a line feed
between them is put together from the scans of the texts (`Scan.ofText_append_lineFeed`).
-/

namespace Sequencer

open Sequencer.Source Sequencer.Text

namespace Scan

/-! ## Items -/

theorem ofText_of_next_inl {source trailing : List Char} (nothing : next source = .inl trailing) :
    ofText source = ⟨[], trailing⟩ := by
  rw [ofText]
  split <;> simp_all

theorem ofText_of_next_inr {source rest : List Char} {item : Item}
    (found : next source = .inr (item, rest)) :
    ofText source = ⟨item :: (ofText rest).items, (ofText rest).trailing⟩ := by
  rw [ofText]
  split <;> simp_all

theorem next_eq_inl_iff {source trailing : List Char} :
    next source = .inl trailing ↔ splitGap false source = (trailing, []) := by
  unfold next
  split
  · rename_i gap split
    simp [split]
  · rename_i gap c rest split
    simp [split]

theorem next_eq_inr_iff {source rest : List Char} {item : Item} :
    next source = .inr (item, rest) ↔ ∃ c after,
      splitGap false source = (item.gap, c :: after) ∧
      item.text = c :: (readFrom c after).1 ∧ item.content = (readFrom c after).2.1 ∧
      rest = (readFrom c after).2.2 := by
  unfold next
  split
  · rename_i gap split
    simp [split]
  · rename_i gap c after split
    rcases item with ⟨itemGap, text, content⟩
    simp only [Sum.inr.injEq, Prod.mk.injEq, Item.mk.injEq, split]
    constructor
    · rintro ⟨⟨rfl, rfl, rfl⟩, rfl⟩
      exact ⟨c, after, ⟨rfl, rfl⟩, rfl, rfl, rfl⟩
    · rintro ⟨c, after, ⟨rfl, same⟩, rfl, rfl, rfl⟩
      cases same
      exact ⟨⟨rfl, rfl, rfl⟩, rfl⟩

/-- Every item of a scan was read from its first character on. -/
theorem exists_readFrom_of_mem {source : List Char} {item : Item}
    (inside : item ∈ (ofText source).items) :
    ∃ c rest, item.text = c :: (readFrom c rest).1 ∧ item.content = (readFrom c rest).2.1 := by
  fun_induction ofText source with
  | case1 => simp at inside
  | case2 source first rest found following inductionHypothesis =>
      rcases List.mem_cons.mp inside with rfl | later
      · rcases next_eq_inr_iff.mp found with ⟨c, after, -, text, content, -⟩
        exact ⟨c, after, text, content⟩
      · exact inductionHypothesis later

/-! ## Gaps -/

theorem beginsLineEnd_cons (c : Char) (rest : List Char) :
    beginsLineEnd (c :: rest) =
      (decide (c = '\n') || (decide (c = '\r') && decide (rest.head? = some '\n'))) := by
  cases rest with
  | nil => by_cases lineFeed : c = '\n' <;> simp [beginsLineEnd, lineFeed]
  | cons d others =>
      by_cases lineFeed : c = '\n'
      · simp [beginsLineEnd, lineFeed]
      · by_cases carriageReturn : c = '\r' ∧ d = '\n'
        · simp [beginsLineEnd, carriageReturn]
        · simp_all [beginsLineEnd]

/-- A line end is there whatever stands behind it. -/
theorem beginsLineEnd_append {text : List Char} (ends : beginsLineEnd text = true)
    (tail : List Char) : beginsLineEnd (text ++ tail) = true := by
  cases text with
  | nil => simp [beginsLineEnd] at ends
  | cons c rest =>
      rw [beginsLineEnd_cons] at ends
      rw [List.cons_append, beginsLineEnd_cons]
      cases rest <;> simp_all

theorem splitGap_cons (inComment : Bool) (c : Char) (rest : List Char) :
    splitGap inComment (c :: rest) =
      if beginsLineEnd (c :: rest) = false ∧ (inComment || isBlank c) = true then
        (c :: (splitGap (inComment || c = '#') rest).1,
          (splitGap (inComment || c = '#') rest).2)
      else ([], c :: rest) := by
  simp [splitGap]

/-- A gap that stops before the end of a text is the same in a longer text. -/
theorem splitGap_append_tail {inComment : Bool} {text gap after : List Char}
    (stops : splitGap inComment text = (gap, after)) (left : after ≠ []) (tail : List Char) :
    splitGap inComment (text ++ tail) = (gap, after ++ tail) := by
  induction text generalizing inComment gap with
  | nil => simp_all [splitGap]
  | cons c rest inductionHypothesis =>
      have same : beginsLineEnd (c :: (rest ++ tail)) = beginsLineEnd (c :: rest) := by
        cases rest with
        | nil =>
            -- A carriage return at the very end is blank, so the gap would not stop.
            have notReturn : c ≠ '\r' := by
              rintro rfl
              simp [splitGap, beginsLineEnd, isBlank] at stops
              exact left stops.2
            simp [beginsLineEnd_cons, notReturn]
        | cons d others => simp [beginsLineEnd_cons]
      rw [splitGap_cons] at stops
      rw [List.cons_append, splitGap_cons, same]
      split at stops
      · rename_i passed
        rw [if_pos passed]
        cases stops
        rw [inductionHypothesis rfl]
      · rename_i stopped
        rw [if_neg stopped]
        cases stops
        rfl

/-- A text may be cut behind a gap, if no line end is cut apart. -/
theorem splitGap_of_append {inComment : Bool} {gap after tail : List Char}
    (stops : splitGap inComment (gap ++ (after ++ tail)) = (gap, after ++ tail))
    (whole : beginsLineEnd (after ++ tail) = true → after = [] ∨ beginsLineEnd after = true) :
    splitGap inComment (gap ++ after) = (gap, after) := by
  induction gap generalizing inComment with
  | nil =>
      cases after with
      | nil => rfl
      | cons c rest =>
          rw [List.nil_append, List.cons_append, splitGap_cons] at stops
          split at stops
          · cases stops
          · rename_i stopped
            rw [List.nil_append, splitGap_cons, if_neg]
            rintro ⟨inner, blank⟩
            cases ends : beginsLineEnd (c :: (rest ++ tail)) with
            | false => exact stopped ⟨ends, blank⟩
            | true =>
                rcases whole ends with empty | complete
                · cases empty
                · simp [inner] at complete
  | cons c gap inductionHypothesis =>
      rw [List.cons_append, splitGap_cons] at stops
      split at stops
      · rename_i passed
        simp only [Prod.mk.injEq, List.cons.injEq, true_and] at stops
        have shorter : beginsLineEnd (c :: (gap ++ after)) = false := by
          cases ends : beginsLineEnd (c :: (gap ++ after)) with
          | false => rfl
          | true =>
              have longer := beginsLineEnd_append ends tail
              simp [passed.1] at longer
        rw [List.cons_append, splitGap_cons, if_pos ⟨shorter, passed.2⟩,
          inductionHypothesis (Prod.ext stops.1 stops.2)]
      · cases stops

/-! ## Longer texts -/

/-- No word and no literal goes on with a text. -/
def EndsWords (tail : List Char) : Prop := ∀ c, tail.head? = some c → isWordPart c = false

theorem takeWhile_isWordPart_append (text : List Char) {tail : List Char}
    (ends : EndsWords tail) :
    (text ++ tail).takeWhile isWordPart = text.takeWhile isWordPart ∧
      (text ++ tail).dropWhile isWordPart = text.dropWhile isWordPart ++ tail := by
  induction text with
  | nil =>
      cases tail with
      | nil => simp
      | cons c rest => simp [ends c rfl]
  | cons c rest inductionHypothesis =>
      cases part : isWordPart c with
      | false => simp [part]
      | true => simp [part, inductionHypothesis]

/-- A character that is an item by itself. -/
def isMark (c : Char) : Bool := c = '\n' || c = '(' || c = ')' || c = '=' || c = ';'

theorem readFrom_of_isMark {c : Char} (mark : isMark c = true) :
    ∃ token, ∀ rest, readFrom c rest = ([], .ok token, rest) := by
  simp only [isMark, Bool.or_eq_true, decide_eq_true_eq] at mark
  rcases mark with (((rfl | rfl) | rfl) | rfl) | rfl <;> exact ⟨_, fun _ => rfl⟩

theorem readFrom_of_not_isMark {c : Char} (notMark : isMark c = false) (rest : List Char) :
    readFrom c rest =
      if c = '\r' ∧ rest.head? = some '\n' then (['\n'], .ok .endOfLine, rest.tail)
      else if isWordStart c then
        (rest.takeWhile isWordPart, .ok (.word (String.ofList (c :: rest.takeWhile isWordPart))),
          rest.dropWhile isWordPart)
      else if c.isDigit then
        (rest.takeWhile isWordPart, ofLiteral (c :: rest.takeWhile isWordPart),
          rest.dropWhile isWordPart)
      else ([], .error (.unexpectedCharacter c), rest) := by
  unfold readFrom
  split <;> first | rfl | simp [isMark] at notMark

/-- An item is the same in a longer text that does not go on with it. -/
theorem readFrom_append_tail {c : Char} {rest tail : List Char} (ends : EndsWords tail)
    (whole : c = '\r' → rest ≠ []) :
    readFrom c (rest ++ tail) =
      ((readFrom c rest).1, (readFrom c rest).2.1, (readFrom c rest).2.2 ++ tail) := by
  cases mark : isMark c with
  | true =>
      rcases readFrom_of_isMark mark with ⟨token, marks⟩
      simp only [marks]
  | false =>
      obtain ⟨taken, dropped⟩ := takeWhile_isWordPart_append rest ends
      rw [readFrom_of_not_isMark mark, readFrom_of_not_isMark mark, taken, dropped]
      by_cases lineEnd : c = '\r' ∧ rest.head? = some '\n'
      · rcases lineEnd with ⟨rfl, first⟩
        cases rest with
        | nil => simp at first
        | cons d others => simp_all
      · have lineEnd' : ¬ (c = '\r' ∧ (rest ++ tail).head? = some '\n') := by
          rintro ⟨carriageReturn, first⟩
          cases rest with
          | nil => exact whole carriageReturn rfl
          | cons d others => exact lineEnd ⟨carriageReturn, first⟩
        rw [if_neg lineEnd, if_neg lineEnd']
        split
        · rfl
        · split <;> rfl

/-- A gap does not stop at a carriage return with nothing behind it. -/
theorem ne_nil_of_splitGap {inComment : Bool} {text gap rest : List Char}
    (stops : splitGap inComment text = (gap, '\r' :: rest)) : rest ≠ [] := by
  rintro rfl
  induction text generalizing inComment gap with
  | nil => simp [splitGap] at stops
  | cons c others inductionHypothesis =>
      rw [splitGap_cons] at stops
      split at stops
      · simp only [Prod.mk.injEq] at stops
        exact inductionHypothesis (Prod.ext rfl stops.2)
      · rename_i stopped
        cases stops
        simp [beginsLineEnd, isBlank] at stopped

/-- The first item of a text is the first item of a longer text that does not go on with it. -/
theorem next_append_tail {text rest tail : List Char} {item : Item} (ends : EndsWords tail)
    (found : next text = .inr (item, rest)) : next (text ++ tail) = .inr (item, rest ++ tail) := by
  rw [next_eq_inr_iff] at found ⊢
  rcases found with ⟨c, after, stops, ownText, content, rfl⟩
  refine ⟨c, after ++ tail, splitGap_append_tail stops (List.cons_ne_nil _ _) tail, ?_⟩
  have whole : c = '\r' → after ≠ [] := by
    rintro rfl
    exact ne_nil_of_splitGap stops
  rw [readFrom_append_tail ends whole]
  exact ⟨ownText, content, rfl⟩

/-! ## Shorter texts -/

/-- A line end is one item. -/
theorem beginsLineEnd_readFrom {c : Char} {rest : List Char}
    (ends : beginsLineEnd (c :: rest) = true) :
    beginsLineEnd (c :: (readFrom c rest).1) = true := by
  rw [beginsLineEnd_cons] at ends
  by_cases lineFeed : c = '\n'
  · simp [beginsLineEnd_cons, lineFeed]
  · obtain ⟨rfl, first⟩ : c = '\r' ∧ rest.head? = some '\n' := by simpa [lineFeed] using ends
    simp [readFrom, first, beginsLineEnd]

/-- What was taken as long as a property held is taken from a shorter list too. -/
theorem takeWhile_of_append {α : Type} {holds : α → Bool} {taken after tail : List α}
    (whole : (taken ++ (after ++ tail)).takeWhile holds = taken) :
    (taken ++ after).takeWhile holds = taken ∧ (taken ++ after).dropWhile holds = after := by
  induction taken with
  | nil =>
      cases after with
      | nil => simp
      | cons first others =>
          cases holdsFirst : holds first with
          | false => simp [holdsFirst]
          | true => simp [holdsFirst] at whole
  | cons first others inductionHypothesis =>
      cases holdsFirst : holds first with
      | false => simp [holdsFirst] at whole
      | true =>
          have shorter := inductionHypothesis (by simpa [holdsFirst] using whole)
          simp [holdsFirst, shorter]

/-- An item is the same in a shorter text that holds it. -/
theorem readFrom_of_append {c : Char} {more after tail : List Char}
    {content : Except LexicalError Token}
    (read : readFrom c (more ++ (after ++ tail)) = (more, content, after ++ tail)) :
    readFrom c (more ++ after) = (more, content, after) := by
  cases mark : isMark c with
  | true =>
      rcases readFrom_of_isMark mark with ⟨token, marks⟩
      rw [marks, Prod.mk.injEq, Prod.mk.injEq] at read
      rcases read with ⟨rfl, rfl, -⟩
      rw [marks]
      rfl
  | false =>
      rw [readFrom_of_not_isMark mark] at read ⊢
      by_cases lineEnd : c = '\r' ∧ (more ++ (after ++ tail)).head? = some '\n'
      · rw [if_pos lineEnd, Prod.mk.injEq, Prod.mk.injEq] at read
        rcases read with ⟨rfl, rfl, -⟩
        rw [if_pos ⟨lineEnd.1, rfl⟩]
        rfl
      · have lineEnd' : ¬ (c = '\r' ∧ (more ++ after).head? = some '\n') := by
          rintro ⟨carriageReturn, first⟩
          apply lineEnd
          rw [← List.append_assoc, List.head?_append, first]
          exact ⟨carriageReturn, rfl⟩
        rw [if_neg lineEnd] at read
        rw [if_neg lineEnd']
        by_cases begins : isWordStart c = true ∨ c.isDigit = true
        · have taken : (more ++ (after ++ tail)).takeWhile isWordPart = more := by
            split at read
            · exact congrArg Prod.fst read
            · rename_i notWord
              rw [if_pos (begins.resolve_left notWord)] at read
              exact congrArg Prod.fst read
          obtain ⟨taken', dropped'⟩ := takeWhile_of_append taken
          rw [taken] at read
          rw [taken', dropped']
          split at read <;> simp_all
        · rw [not_or] at begins
          rw [if_neg begins.1, if_neg begins.2, Prod.mk.injEq, Prod.mk.injEq] at read
          rcases read with ⟨rfl, rfl, -⟩
          rw [if_neg begins.1, if_neg begins.2]
          rfl

/-- The first item of a text is the first item of a shorter text that holds it. -/
theorem next_of_append {after tail : List Char} {item : Item}
    (found : next (item.gap ++ item.text ++ (after ++ tail)) = .inr (item, after ++ tail)) :
    next (item.gap ++ item.text ++ after) = .inr (item, after) := by
  rw [next_eq_inr_iff] at found ⊢
  rcases found with ⟨c, rest, stops, ownText, content, left⟩
  have restEq : (readFrom c rest).1 ++ (after ++ tail) = rest := by
    rw [left]
    exact readFrom_append c rest
  generalize more_eq : (readFrom c rest).1 = more at ownText restEq
  have read : readFrom c (more ++ (after ++ tail)) = (more, item.content, after ++ tail) := by
    rw [restEq, ← more_eq, content, left]
  have stops : splitGap false (item.gap ++ (c :: (more ++ after) ++ tail)) =
      (item.gap, c :: (more ++ after) ++ tail) := by
    rw [ownText, ← restEq] at stops
    simpa using stops
  refine ⟨c, more ++ after, ?_, ?_⟩
  · rw [ownText, List.append_assoc]
    refine splitGap_of_append stops fun ends => .inr ?_
    have lineEnd : beginsLineEnd (c :: rest) = true := by
      rw [← restEq]
      simpa using ends
    have ownEnd := beginsLineEnd_append (beginsLineEnd_readFrom lineEnd) after
    rwa [more_eq] at ownEnd
  · rw [readFrom_of_append read]
    exact ⟨ownText, rfl, rfl⟩

/-- The characters of items and of the gaps before them. -/
def textOf (items : List Item) : List Char := items.flatMap fun item => item.gap ++ item.text

@[simp]
theorem textOf_nil : textOf [] = [] :=
  rfl

@[simp]
theorem textOf_cons (item : Item) (items : List Item) :
    textOf (item :: items) = item.gap ++ item.text ++ textOf items :=
  rfl

@[simp]
theorem textOf_append (first second : List Item) :
    textOf (first ++ second) = textOf first ++ textOf second :=
  List.flatMap_append

/-- A source may be cut in front of an item. What stands before the cut is scanned as before. -/
theorem exists_cut {source : List Char} {passed later : List Item} {item : Item}
    (whole : (ofText source).items = passed ++ item :: later) :
    ∃ tail, source = textOf passed ++ item.gap ++ tail ∧
      ofText (textOf passed ++ item.gap) = ⟨passed, item.gap⟩ := by
  induction passed generalizing source with
  | nil =>
      cases found : next source with
      | inl trailing => simp [ofText_of_next_inl found] at whole
      | inr first =>
          rcases first with ⟨first, rest⟩
          rw [ofText_of_next_inr found] at whole
          obtain ⟨rfl, -⟩ : first = item ∧ _ := by simpa using whole
          refine ⟨first.text ++ rest, ?_, ofText_of_next_inl (next_eq_inl_iff.mpr ?_)⟩
          · simpa using (next_append found).symm
          · rcases next_eq_inr_iff.mp found with ⟨c, after, stops, -⟩
            have parts := splitGap_append false source
            rw [stops] at parts
            have cut : splitGap false (first.gap ++ ([] ++ (c :: after))) =
                (first.gap, [] ++ (c :: after)) := by
              simpa [parts] using stops
            simpa using splitGap_of_append cut fun _ => .inl rfl
  | cons first passed inductionHypothesis =>
      cases found : next source with
      | inl trailing => simp [ofText_of_next_inl found] at whole
      | inr next =>
          rcases next with ⟨first', rest⟩
          rw [ofText_of_next_inr found] at whole
          obtain ⟨rfl, others⟩ : first' = first ∧
              (ofText rest).items = passed ++ item :: later := by
            simpa using whole
          obtain ⟨tail, rfl, scanned⟩ := inductionHypothesis others
          have parts := next_append found
          refine ⟨tail, ?_, ?_⟩
          · rw [← parts]
            simp
          · have shorter := next_of_append (parts.symm ▸ found)
            have same : textOf (first' :: passed) ++ item.gap =
                first'.gap ++ first'.text ++ (textOf passed ++ item.gap) := by simp
            rw [same, ofText_of_next_inr shorter, scanned]

/-! ## Line feeds -/

/-- A line feed ends a gap. A carriage return before it belongs to the line end. -/
theorem splitGap_append_lineFeed {inComment : Bool} {text : List Char}
    (blank : splitGap inComment text = (text, [])) (tail : List Char) :
    ∃ gap ending, gap ++ ending = text ∧ (ending = [] ∨ ending = ['\r']) ∧
      splitGap inComment (text ++ '\n' :: tail) = (gap, ending ++ '\n' :: tail) := by
  induction text generalizing inComment with
  | nil => exact ⟨[], [], rfl, .inl rfl, by simp [splitGap, beginsLineEnd]⟩
  | cons c rest inductionHypothesis =>
      rw [splitGap_cons] at blank
      split at blank
      · rename_i passed
        simp only [Prod.mk.injEq, List.cons.injEq, true_and] at blank
        by_cases last : c = '\r' ∧ rest = []
        · rcases last with ⟨rfl, rfl⟩
          exact ⟨[], ['\r'], rfl, .inr rfl, by simp [splitGap, beginsLineEnd]⟩
        · obtain ⟨gap, ending, parts, endings, stops⟩ :=
            inductionHypothesis (Prod.ext blank.1 blank.2)
          have inner : beginsLineEnd (c :: (rest ++ '\n' :: tail)) = false := by
            have inner := passed.1
            rw [beginsLineEnd_cons] at inner ⊢
            cases rest with
            | nil => simp_all
            | cons d others => simpa using inner
          refine ⟨c :: gap, ending, by rw [List.cons_append, parts], endings, ?_⟩
          rw [List.cons_append, splitGap_cons, if_pos ⟨inner, passed.2⟩, stops]
      · cases blank

/-- A line feed between two texts is an item between those of the texts. It has the carriage return
before it, which the first text alone passes over. -/
theorem ofText_append_lineFeed (first second : List Char) :
    ∃ gap ending, gap ++ ending = (ofText first).trailing ∧ (ending = [] ∨ ending = ['\r']) ∧
      ofText (first ++ '\n' :: second) =
        ⟨(ofText first).items ++ ⟨gap, ending ++ ['\n'], .ok .endOfLine⟩ :: (ofText second).items,
          (ofText second).trailing⟩ := by
  fun_induction ofText first with
  | case1 first trailing nothing =>
      rw [next_eq_inl_iff] at nothing
      have same := splitGap_append false first
      rw [nothing, List.append_nil] at same
      subst same
      obtain ⟨gap, ending, parts, endings, stops⟩ := splitGap_append_lineFeed nothing second
      refine ⟨gap, ending, parts, endings, ofText_of_next_inr (next_eq_inr_iff.mpr ?_)⟩
      rcases endings with rfl | rfl
      · exact ⟨_, _, stops, rfl, rfl, rfl⟩
      · exact ⟨_, _, stops, rfl, rfl, rfl⟩
  | case2 first item rest found following inductionHypothesis =>
      obtain ⟨gap, ending, parts, endings, scanned⟩ := inductionHypothesis
      have ends : EndsWords ('\n' :: second) := by
        rintro c ⟨⟩
        rfl
      refine ⟨gap, ending, parts, endings, ?_⟩
      rw [ofText_of_next_inr (next_append_tail ends found), scanned]
      rfl

end Scan

/-! ## Places -/

namespace Stream

open Scan

theorem place_append (source offset : Nat) (first second : List Item) :
    place source offset (first ++ second) =
      place source offset first ++ place source (offset + byteLength (textOf first)) second := by
  induction first generalizing offset with
  | nil => rfl
  | cons item rest inductionHypothesis =>
      simp [place, inductionHypothesis, Nat.add_assoc]

end Stream

end Sequencer
