import Sequencer.Proofs.Command.Passing
import Sequencer.Proofs.Command.Words
import Sequencer.Proofs.Text.Slices
import Sequencer.Proofs.Token.Cutting

/-!
# Where statements stand

The statements of a program cut its source into pieces (`Program.LaidOut`): each stands in a piece
of its own, from which alone it can be read again, and the pieces between them hold nothing but line
ends, semicolons, blanks and comments. So the places of the statements are faithful to the source
(`Program.faithful_of_ofText`), with places in words as long as its length is a word
(`Program.faithful_ofText?`).

A statement is read again from its own piece since this is scanned to the same items
(`Scan.exists_cut_behind`), and since what was read in front of a separator is read in front of the
end of input as well (`Statement.Gives.of_outer`).
-/

namespace Sequencer

open Sequencer.Source Sequencer.Text

/-! ## Texts without statements -/

/-- A text of line ends, semicolons, blanks and comments. -/
def Scan.OnlySeparates (text : List Char) : Prop :=
  ∃ tokens, (Scan.ofText text).tokens = .ok tokens ∧ ∀ token ∈ tokens, token.isSeparator

namespace Scan

variable {text rest : List Char} {item : Item}

theorem onlySeparates_of_items_eq_nil (nothing : (ofText text).items = []) :
    OnlySeparates text := by
  refine ⟨[], tokens_eq_ok_iff.mpr ?_, by simp⟩
  rw [nothing]
  rfl

/-- The gap before an item separates. -/
theorem onlySeparates_gap {later : List Item} (items : (ofText text).items = item :: later) :
    OnlySeparates item.gap := by
  have first : (ofText text).items = [] ++ item :: later := items
  obtain ⟨-, -, cut⟩ := exists_cut first
  exact onlySeparates_of_items_eq_nil (congrArg Scan.items cut)

theorem OnlySeparates.cons {separator : Separator} (separates : OnlySeparates rest)
    (found : next text = .inr (item, rest)) (content : item.content = .ok separator.token) :
    OnlySeparates text := by
  obtain ⟨tokens, read, separate⟩ := separates
  refine ⟨separator.token :: tokens, tokens_eq_ok_iff.mpr ?_, ?_⟩
  · rw [ofText_of_next_inr found, List.map_cons, List.map_cons, content, tokens_eq_ok_iff.mp read]
  · rw [List.forall_mem_cons]
    exact ⟨separator.isSeparator_token, separate⟩

end Scan

/-! ## Places of statements -/

/-- A place that goes on to the last of some items goes on to the end of their text. -/
theorem Stream.join_getLastD_place {source offset : Nat} {items : List Item} {first last : Span}
    (own : first.source = source) (ends : last.stop = offset) (covers : first.stop ≤ offset)
    (begins : first.start ≤ last.start) (reaches : first.start ≤ offset) :
    first.join (((place source offset items).map Lexeme.span).getLastD last) =
      ⟨source, first.start, offset + byteLength (Scan.textOf items)⟩ := by
  induction items generalizing offset last with
  | nil => simp [place, Span.join, own, ends, covers, begins]
  | cons item items inductionHypothesis =>
      simp only [place, List.map_cons, List.getLastD_cons, Scan.textOf_cons, byteLength_append,
        ← Nat.add_assoc]
      exact inductionHypothesis rfl (by omega) (by simp only; omega) (by omega)

/-- A statement that was read from items stands where they do, from the text of the first on. -/
theorem Statement.span_of_place {limits : Limits} {offset : Nat} {passed later : List Item}
    {stop : Span} {statement : Statement}
    (done : Statement.parse limits ⟨Stream.place 0 offset (passed ++ later), stop⟩ =
      .success statement ⟨Stream.place 0 (offset + byteLength (Scan.textOf passed)) later, stop⟩) :
    ∃ item others, passed = item :: others ∧
      statement.span = ⟨0, offset + byteLength item.gap,
        offset + byteLength (Scan.textOf passed)⟩ := by
  obtain ⟨first, more, split, span⟩ := Statement.exists_passed done
  replace split := congrArg Stream.lexemes split
  rw [Stream.place_append, Stream.lexemes_prepend] at split
  have lexemes := List.append_cancel_right split
  cases passed with
  | nil => cases lexemes
  | cons item others =>
      cases lexemes
      refine ⟨item, others, rfl, ?_⟩
      rw [span, Stream.join_getLastD_place rfl rfl (Nat.le_refl _) (Nat.le_refl _)
        (Nat.le_add_right ..)]
      simp [Nat.add_assoc]

namespace Program

/-- The statements of a program stand in pieces of its text, which begins at an offset. -/
inductive LaidOut (limits : Limits) : Nat → List Char → List Statement → Prop
  | nothing {offset : Nat} {text : List Char} (separates : Scan.OnlySeparates text) :
      LaidOut limits offset text []
  | statement {offset : Nat} {before own behind : List Char} {statement : Statement}
      {others : List Statement} (separates : Scan.OnlySeparates before) (filled : own ≠ [])
      (place : statement.span = ⟨0, offset + byteLength before,
        offset + byteLength before + byteLength own⟩)
      (alone : ofText limits own = .ok [{ statement with span := ⟨0, 0, byteLength own⟩ }])
      (following : LaidOut limits (offset + byteLength before + byteLength own) behind others) :
      LaidOut limits offset (before ++ (own ++ behind)) (statement :: others)

variable {limits : Limits} {offset : Nat} {text rest : List Char} {statements : List Statement}

/-- A separator may stand in front. -/
theorem LaidOut.separator {item : Item} {separator : Separator}
    (laidOut : LaidOut limits (offset + byteLength (item.gap ++ item.text)) rest statements)
    (found : Scan.next text = .inr (item, rest)) (content : item.content = .ok separator.token) :
    LaidOut limits offset text statements := by
  have parts := Scan.next_append found
  cases laidOut with
  | nothing separates => exact .nothing (separates.cons found content)
  | @statement _ before own behind statement others separates filled place alone following =>
      subst parts
      have shorter := Scan.next_of_append found
      rw [Nat.add_assoc offset, ← byteLength_append] at place following
      rw [← List.append_assoc]
      exact .statement (separates.cons shorter content) filled place alone following

/-- A statement that was read in front of something is read as a program from its own items alone,
without the gap before them. -/
theorem ofText_of_gives {item : Item} {others : List Item} {tokens : List Token}
    {found : Except LexicalError Token} {instruction : Instruction}
    (gives : Statement.Gives limits tokens found (.ok instruction))
    (contents : (item :: others).map Item.content = tokens.map .ok)
    (cut : Scan.ofText (Scan.textOf (item :: others)) = ⟨item :: others, []⟩) :
    ofText limits (item.text ++ Scan.textOf others) =
      .ok [{ instruction with span := ⟨0, 0, byteLength (item.text ++ Scan.textOf others)⟩ }] := by
  generalize whole : item.text ++ Scan.textOf others = own
  have dropped : Scan.ofText own = ⟨{ item with gap := [] } :: others, []⟩ :=
    whole ▸ Scan.ofText_text_append cut
  have alone : Statement.Gives limits tokens (.ok .endOfInput) (.ok instruction) :=
    gives.of_outer fun inner => inner.2 rfl
  have leads : (⟨Stream.place 0 0 ({ item with gap := [] } :: others ++ []),
      ⟨0, byteLength own, byteLength own⟩⟩ : Stream).Leads tokens _ :=
    Stream.leads_place 0 contents
  obtain ⟨name, span, after, statement, view, done, means⟩ := alone.read leads rfl
  obtain ⟨first, more, begins, place⟩ := Statement.span_of_place done
  cases begins
  have read : ofText limits own = .ok [statement] := by
    have ended := parse_of_statement_endOfInput view done rfl
    rw [List.append_nil] at ended
    rw [ofText, Stream.ofText, dropped, ended]
    rfl
  rcases statement with ⟨instruction', span'⟩
  obtain rfl : instruction' = instruction := means
  obtain rfl : span' = _ := place
  rw [read, ← whole]
  simp

/-- A statement that is read from a source is read from its own piece of it. -/
theorem exists_own {stop span : Span} {found : Token} {after middle : Stream}
    {statement : Statement}
    (view : (⟨Stream.place 0 offset (Scan.ofText text).items, stop⟩ : Stream).view =
      .token found span after) (inner : found.IsInner)
    (done : Statement.parse limits ⟨Stream.place 0 offset (Scan.ofText text).items, stop⟩ =
      .success statement middle) :
    ∃ before own behind, text = before ++ (own ++ behind) ∧ Scan.OnlySeparates before ∧
      own ≠ [] ∧
      statement.span = ⟨0, offset + byteLength before,
        offset + byteLength before + byteLength own⟩ ∧
      ofText limits own = .ok [{ statement with span := ⟨0, 0, byteLength own⟩ }] ∧
      middle = ⟨Stream.place 0 (offset + byteLength before + byteLength own)
        (Scan.ofText behind).items, stop⟩ := by
  obtain ⟨tokens, rest, answer, leads, gives, answers⟩ := Statement.exists_gives limits view inner
  cases answer with
  | error cause =>
      have failed : _ = Except.error _ := answers
      rw [done] at failed
      cases failed
  | ok instruction =>
  obtain ⟨statement', done', rfl⟩ := answers
  cases done.symm.trans done'
  obtain ⟨passed, later, items, contents, rfl⟩ :=
    Stream.exists_items_of_leads leads fun token inside => (gives.inner.2 token inside).2
  obtain ⟨behind, whole, cut, scanned⟩ := Scan.exists_cut_behind items
  rw [items] at done
  obtain ⟨item, others, rfl, place⟩ := Statement.span_of_place done
  have filled : item.text ≠ [] :=
    (Scan.written_of_mem (items ▸ List.mem_append_left _ List.mem_cons_self)).ne_nil
  -- The gap before the statement is left out of its piece.
  refine ⟨item.gap, item.text ++ Scan.textOf others, behind, ?_, Scan.onlySeparates_gap items,
    List.append_ne_nil_of_left_ne_nil filled _, ?_, ofText_of_gives gives contents cut, ?_⟩
  · rw [whole, Scan.textOf_cons]
    simp only [List.append_assoc]
  · rw [place]
    simp [Nat.add_assoc]
  · rw [scanned]
    simp [Nat.add_assoc]

/-- Reading a program lays out its statements. -/
theorem laidOut_of_parse {stop : Span} {left : Stream}
    (done : parse limits ⟨Stream.place 0 offset (Scan.ofText text).items, stop⟩ =
      .success statements left) : LaidOut limits offset text statements := by
  induction counted : text.length using Nat.strongRecOn generalizing text offset statements with
  | ind length inductionHypothesis =>
  subst counted
  cases found : Scan.next text with
  | inl trailing =>
      have scanned := Scan.ofText_of_next_inl found
      rw [scanned, parse_of_view_endOfInput rfl] at done
      cases done
      exact .nothing (Scan.onlySeparates_of_items_eq_nil (congrArg Scan.items scanned))
  | inr first =>
      rcases first with ⟨⟨gap, own, content⟩, rest⟩
      have scanned := Scan.ofText_of_next_inr found
      have items : (Scan.ofText text).items = ⟨gap, own, content⟩ :: (Scan.ofText rest).items :=
        congrArg Scan.items scanned
      cases content with
      | error error =>
          rw [items, parse_of_view_broken rfl] at done
          exact absurd done Parsed.failure_ne_success
      | ok token =>
          have notEnd : token ≠ .endOfInput := fun same =>
            Scan.content_ne_endOfInput (items ▸ List.mem_cons_self) (congrArg Except.ok same)
          cases separates : token.isSeparator with
          | true =>
              obtain ⟨separator, rfl⟩ := Token.isSeparator_iff.mp separates
              rw [items, parse_of_view_separator rfl, Nat.add_assoc, ← byteLength_append] at done
              have behind := inductionHypothesis _ (Scan.length_lt_of_next found) done rfl
              exact behind.separator found rfl
          | false =>
              have inner : token.IsInner := ⟨separates, notEnd⟩
              obtain ⟨span, after, view⟩ : ∃ span after,
                  (⟨Stream.place 0 offset (Scan.ofText text).items, stop⟩ : Stream).view =
                    .token token span after := by
                rw [items]
                exact ⟨_, _, rfl⟩
              obtain ⟨statement, others, middle, rfl, first, following⟩ :=
                exists_first_of_parse view inner done
              obtain ⟨before, own, behind, rfl, separates, filled, place, alone, rfl⟩ :=
                exists_own view inner first
              refine .statement separates filled place alone
                (inductionHypothesis _ ?_ following rfl)
              have long := List.length_pos_of_ne_nil filled
              simp only [List.length_append]
              omega

theorem laidOut_of_ofText (read : ofText limits text = .ok statements) :
    LaidOut limits 0 text statements :=
  laidOut_of_parse (Parsed.eq_success_of_answer read)

/-! ## Faithful places -/

/-- The stretches of a text in front of statements, between them and behind them. -/
def stretches (stop : Nat) : Nat → List Statement → List (Nat × Nat)
  | start, [] => [(start, stop)]
  | start, statement :: others =>
      (start, statement.span.start) :: stretches stop statement.span.stop others

/-- The places of statements are faithful to the text that they were read from. -/
structure Faithful (limits : Limits) (text : List Char) (statements : List Statement) : Prop where
  /-- Every statement stands in the text, and it is not empty. -/
  inside : ∀ statement ∈ statements, statement.span.source = 0 ∧
    statement.span.start < statement.span.stop ∧ statement.span.stop ≤ byteLength text
  /-- Every statement stands in front of those behind it. -/
  ascends : statements.Pairwise fun earlier later => earlier.span.stop ≤ later.span.start
  /-- There are only separators in front of the statements, between them and behind them. -/
  separates : ∀ stretch ∈ stretches (byteLength text) 0 statements,
    ∃ part, slice? text stretch.1 stretch.2 = some part ∧ Scan.OnlySeparates part
  /-- Every statement is read again from its own stretch of the text. -/
  alone : ∀ statement ∈ statements,
    ∃ part, slice? text statement.span.start statement.span.stop = some part ∧
      ofText? limits part = some (.ok [{ statement with span := ⟨0, 0, byteLength part⟩ }])

theorem LaidOut.inside (laidOut : LaidOut limits offset text statements) :
    ∀ statement ∈ statements, statement.span.source = 0 ∧ offset ≤ statement.span.start ∧
      statement.span.start < statement.span.stop ∧
      statement.span.stop ≤ offset + byteLength text := by
  induction laidOut with
  | nothing => simp
  | statement separates filled place alone following inductionHypothesis =>
      have long := byteLength_pos filled
      rw [List.forall_mem_cons, place, byteLength_append, byteLength_append]
      dsimp only
      refine ⟨⟨rfl, by omega, by omega, by omega⟩, fun other inside => ?_⟩
      obtain ⟨source, behind, forward, stops⟩ := inductionHypothesis other inside
      exact ⟨source, by omega, forward, by omega⟩

theorem LaidOut.ascends (laidOut : LaidOut limits offset text statements) :
    statements.Pairwise fun earlier later => earlier.span.stop ≤ later.span.start := by
  induction laidOut with
  | nothing => exact .nil
  | statement separates filled place alone following inductionHypothesis =>
      refine .cons (fun other inside => ?_) inductionHypothesis
      rw [place]
      exact (following.inside other inside).2.1

/-- A piece of a text behind a front is a slice of the whole. -/
theorem slice?_of_append {front : List Char} (before own behind : List Char)
    (here : byteLength front = offset) :
    slice? (front ++ (before ++ (own ++ behind))) (offset + byteLength before)
      (offset + byteLength before + byteLength own) = some own := by
  refine slice?_eq_some_iff.mpr ⟨front ++ before, behind, by simp, ?_, ?_⟩ <;>
    rw [byteLength_append, here]

theorem LaidOut.separates (laidOut : LaidOut limits offset text statements) (front : List Char)
    (here : byteLength front = offset) :
    ∀ stretch ∈ stretches (offset + byteLength text) offset statements,
      ∃ part, slice? (front ++ text) stretch.1 stretch.2 = some part ∧
        Scan.OnlySeparates part := by
  induction laidOut generalizing front with
  | @nothing offset text separates =>
      rw [stretches, List.forall_mem_singleton]
      refine ⟨text, ?_, separates⟩
      simpa using slice?_of_append [] text [] here
  | @statement offset before own behind statement others separates filled place alone following
      inductionHypothesis =>
      rw [stretches, List.forall_mem_cons, place]
      constructor
      · refine ⟨before, ?_, separates⟩
        simpa using slice?_of_append [] before (own ++ behind) here
      · have ahead : byteLength (front ++ (before ++ own)) =
            offset + byteLength before + byteLength own := by
          rw [byteLength_append, byteLength_append, here, Nat.add_assoc]
        have others := inductionHypothesis _ ahead
        simpa [Nat.add_assoc] using others

theorem LaidOut.alone (laidOut : LaidOut limits offset text statements) (front : List Char)
    (here : byteLength front = offset) :
    ∀ statement ∈ statements,
      ∃ part, slice? (front ++ text) statement.span.start statement.span.stop = some part ∧
        ofText limits part = .ok [{ statement with span := ⟨0, 0, byteLength part⟩ }] := by
  induction laidOut generalizing front with
  | nothing => simp
  | @statement offset before own behind statement others separates filled place alone following
      inductionHypothesis =>
      rw [List.forall_mem_cons]
      constructor
      · refine ⟨own, ?_, alone⟩
        rw [place]
        exact slice?_of_append before own behind here
      · have ahead : byteLength (front ++ (before ++ own)) =
            offset + byteLength before + byteLength own := by
          rw [byteLength_append, byteLength_append, here, Nat.add_assoc]
        simpa using inductionHypothesis _ ahead

/-- What is read from a source shorter than `2 ^ 32` bytes stands there. -/
theorem faithful_of_ofText (short : byteLength text < 2 ^ 32)
    (read : ofText limits text = .ok statements) : Faithful limits text statements := by
  have laidOut := laidOut_of_ofText read
  refine ⟨fun statement inside => ?_, laidOut.ascends, ?_, fun statement inside => ?_⟩
  · obtain ⟨source, -, forward, stops⟩ := laidOut.inside statement inside
    exact ⟨source, forward, by rwa [Nat.zero_add] at stops⟩
  · have separates := laidOut.separates [] rfl
    rwa [Nat.zero_add] at separates
  · obtain ⟨part, cut, alone⟩ := laidOut.alone [] rfl statement inside
    obtain ⟨before, after, parts, -, -⟩ := slice?_eq_some_iff.mp cut
    have shorter : byteLength part ≤ byteLength text := by
      rw [← List.nil_append text, parts, byteLength_append, byteLength_append]
      omega
    exact ⟨part, cut, (ofText?_eq limits (shorter.trans_lt short)).trans (congrArg some alone)⟩

/-- A source shorter than `2 ^ 32` bytes is read, and what is read of it stands there, or there is
an error in it. -/
theorem faithful_ofText? (limits : Limits) (short : byteLength text < 2 ^ 32) :
    ∃ answer, ofText? limits text = some answer ∧
      ∀ statements, answer = .ok statements → Faithful limits text statements :=
  ⟨_, ofText?_eq limits short, fun _ => faithful_of_ofText short⟩

/-- Two statements with an empty one and a comment between them. -/
theorem faithful_ofText?_two_statements :
    byteLength "wait (5) ;; # two\r\n\tclock(3)t=1".toList < 2 ^ 32 ∧
      ofText? {} "wait (5) ;; # two\r\n\tclock(3)t=1".toList =
        some (.ok [⟨⟨.wait, 5⟩, ⟨0, 0, 8⟩⟩, ⟨⟨.clock 3, 1⟩, ⟨0, 20, 31⟩⟩]) ∧
      Faithful {} "wait (5) ;; # two\r\n\tclock(3)t=1".toList
        [⟨⟨.wait, 5⟩, ⟨0, 0, 8⟩⟩, ⟨⟨.clock 3, 1⟩, ⟨0, 20, 31⟩⟩] := by
  have short : byteLength "wait (5) ;; # two\r\n\tclock(3)t=1".toList < 2 ^ 32 := by
    decide +kernel
  have read : ofText? {} "wait (5) ;; # two\r\n\tclock(3)t=1".toList =
      some (.ok [⟨⟨.wait, 5⟩, ⟨0, 0, 8⟩⟩, ⟨⟨.clock 3, 1⟩, ⟨0, 20, 31⟩⟩]) := by
    decide +kernel
  obtain ⟨answer, answered, faithful⟩ := faithful_ofText? {} short
  exact ⟨short, read, faithful _ (Option.some.inj (answered.symm.trans read))⟩

/-- A statement up to the end of a source of `2 ^ 32` bytes. Its last token ends at zero, and so the
place of the statement ends behind its first token. -/
theorem not_faithful_indented :
    byteLength (indented (2 ^ 32 - 7) "wait(1)".toList) = 2 ^ 32 ∧
      ofText? {} (indented (2 ^ 32 - 7) "wait(1)".toList) =
        some (.ok [⟨⟨.wait, 1⟩, ⟨0, 2 ^ 32 - 7, 2 ^ 32 - 3⟩⟩]) ∧
      ¬ Faithful {} (indented (2 ^ 32 - 7) "wait(1)".toList)
        [⟨⟨.wait, 1⟩, ⟨0, 2 ^ 32 - 7, 2 ^ 32 - 3⟩⟩] := by
  have read : ofText? {} (indented (2 ^ 32 - 7) "wait(1)".toList) =
      some (.ok [⟨⟨.wait, 1⟩, ⟨0, 2 ^ 32 - 7, 2 ^ 32 - 3⟩⟩]) := by
    rw [ofText?_indented {} _ (by decide), Option.some.injEq]
    decide +kernel
  have cut : slice? (indented (2 ^ 32 - 7) "wait(1)".toList) (2 ^ 32 - 7) (2 ^ 32 - 3) =
      some "wait".toList :=
    slice?_indented (2 ^ 32 - 7) "wait".toList "(1)".toList
  have alone : ofText? {} "wait".toList =
      some (.error ⟨⟨0, 4, 4⟩, .expectedMark .leftParen .endOfInput⟩) := by
    decide +kernel
  refine ⟨byteLength_indented .., read, fun faithful => ?_⟩
  obtain ⟨part, cut', alone'⟩ := faithful.alone _ List.mem_cons_self
  cases cut.symm.trans cut'
  cases alone.symm.trans alone'

end Program

end Sequencer
