import Sequencer.Proofs.Command.Reading
import Sequencer.Proofs.Source.Lines

/-!
# Reading joined sources

A line end ends a statement like the end of input does. So reading goes through a text in front of
a line feed as if the text stood alone, and then through what follows (`Program.Gives.append`,
`Program.Reads.append`); the places there are only further on.

What fails in the first text fails in the same way in front of the second. Only at the end of the
first text another token is found than before, and the message names it.
-/

namespace Sequencer

open Sequencer.Source Sequencer.Text

/-! ## Messages that tell of the end of input -/

theorem Text.getLast?_toList_append {first second : String} {c : Char}
    (last : second.toList.getLast? = some c) : (first ++ second).toList.getLast? = some c := by
  rw [String.toList_append, List.getLast?_append, last]
  rfl

/-- The last character of a message that tells of the end of input ends no other name of a
token. -/
theorem Token.getLast?_describe {token : Token} (other : token ≠ .endOfInput) :
    ∃ c, token.describe.toList.getLast? = some c ∧ c ≠ 't' := by
  cases token with
  | endOfInput => exact absurd rfl other
  | endOfLine => exact ⟨'e', by decide, by decide⟩
  | _ => exact ⟨'\x60', getLast?_toList_append rfl, by decide⟩

namespace ParseError.Cause

/-- The same cause with another token found. -/
def finding (token : Token) : Cause → Cause
  | .expectedCommand _ => .expectedCommand token
  | .expectedMark mark _ => .expectedMark mark token
  | .expectedEnd _ => .expectedEnd token
  | .expectedChannel device _ => .expectedChannel device token
  | .expectedQuantity quantity _ => .expectedQuantity quantity token
  | .expectedLevel _ => .expectedLevel token
  | cause => cause

variable {cause : Cause} {token : Token}

/-- A cause that found a token is about no literal, and its message ends with that token. -/
theorem exists_message_eq (found : cause.found? = some token) :
    ∃ beginning, cause.message = beginning ++ token.describe ∧ cause.isLiteral = false ∧
      ∀ other, (cause.finding other).message = beginning ++ other.describe ∧
        (cause.finding other).isLiteral = false := by
  cases cause with
  | expectedCommand =>
      cases found
      exact ⟨"expected a command, found ", rfl, rfl, fun _ => ⟨rfl, rfl⟩⟩
  | expectedMark mark =>
      cases found
      exact ⟨"expected " ++ mark.describe ++ ", found ", rfl, rfl, fun _ => ⟨rfl, rfl⟩⟩
  | expectedEnd =>
      cases found
      exact ⟨"expected end of command, found ", rfl, rfl, fun _ => ⟨rfl, rfl⟩⟩
  | expectedChannel device =>
      cases found
      exact ⟨"expected " ++ device.name ++ " channel number, found ", rfl, rfl,
        fun _ => ⟨rfl, rfl⟩⟩
  | expectedQuantity quantity =>
      cases found
      exact ⟨"expected " ++ quantity.name ++ ", found ", rfl, rfl, fun _ => ⟨rfl, rfl⟩⟩
  | expectedLevel =>
      cases found
      exact ⟨"expected a TTL level (0, 1, on, off), found ", rfl, rfl, fun _ => ⟨rfl, rfl⟩⟩
  | _ => cases found

theorem getLast?_message_of_found?_eq_none (nothing : cause.found? = none) :
    ∃ c, cause.message.toList.getLast? = some c ∧ c ≠ 't' := by
  cases cause with
  | lexical error =>
      cases error with
      | unexpectedCharacter c =>
          refine ⟨apostrophe, getLast?_toList_append ?_, by decide⟩
          rw [quotedChar, String.toList_ofList]
          exact List.getLast?_concat
      | invalidNumber => exact ⟨'l', by decide, by decide⟩
      | numberTooLarge => exact ⟨'4', by decide, by decide⟩
  | unknownCommand =>
      exact ⟨'\x60', getLast?_toList_append (getLast?_toList_append rfl), by decide⟩
  | channelOutOfRange | quantityOutOfRange =>
      exact ⟨')', getLast?_toList_append (getLast?_toList_append rfl), by decide⟩
  | levelOutOfRange value =>
      have digits : (toString value).toList = Nat.toDigits 10 value := by simp [toString, Nat.repr]
      cases last : (Nat.toDigits 10 value).getLast? with
      | none => simp at last
      | some c =>
          refine ⟨c, getLast?_toList_append (digits ▸ last), ?_⟩
          rintro rfl
          cases Nat.isDigit_of_mem_toDigits (by decide) (by decide) (List.mem_of_getLast? last)
  | waitOverflow => exact ⟨'s', by decide, by decide⟩
  | _ => cases nothing

/-- Only a cause that found the end of input has a message that ends so. -/
theorem message_ne_of_found?_ne (other : cause.found? ≠ some .endOfInput) (beginning : String) :
    cause.message ≠ beginning ++ "end of input" := by
  -- No other message ends with the same character.
  obtain ⟨c, last, notT⟩ : ∃ c, cause.message.toList.getLast? = some c ∧ c ≠ 't' := by
    cases found : cause.found? with
    | none => exact getLast?_message_of_found?_eq_none found
    | some token =>
        obtain ⟨start, message, -⟩ := exists_message_eq found
        have notEnd : token ≠ .endOfInput := by
          rintro rfl
          exact other found
        obtain ⟨c, last, notT⟩ := Token.getLast?_describe notEnd
        exact ⟨c, message ▸ getLast?_toList_append last, notT⟩
  intro same
  have ends : (beginning ++ "end of input").toList.getLast? = some 't' :=
    getLast?_toList_append rfl
  rw [← same, last] at ends
  exact notT (Option.some.inj ends)

end ParseError.Cause

/-! ## Joining tokens -/

theorem Token.not_isInner_endOfLine : ¬ Token.endOfLine.IsInner :=
  fun inner => Bool.noConfusion inner.1

section

variable {limits : Limits} {tokens : List Token} {found : Except LexicalError Token}
  {cause : ParseError.Cause}

/-- A form that refuses the end of input refuses the end of a line in the same way. -/
theorem Form.IsInner.judge_endOfLine {form : Form} (inner : form.IsInner)
    (judged : form.judge limits .endOfInput = .refuse cause) :
    cause.found? = some .endOfInput ∧
      form.judge limits .endOfLine = .refuse (cause.finding .endOfLine) := by
  cases form with
  | done instruction => cases judged
  | mark mark next =>
      have different : Token.endOfInput ≠ mark := fun same => inner.1.2 same.symm
      have different' : Token.endOfLine ≠ mark := fun same =>
        Token.not_isInner_endOfLine (same ▸ inner.1)
      rw [judge, if_neg different] at judged
      cases judged
      exact ⟨rfl, if_neg different'⟩
  | choice mark taken skipped =>
      have different : Token.endOfInput ≠ mark := fun same => inner.1.2 same.symm
      rw [judge, if_neg different] at judged
      cases judged
  | _ =>
      cases judged
      exact ⟨rfl, rfl⟩

theorem Form.Gives.endOfLine {form : Form} {answer : Except ParseError.Cause Instruction}
    (gives : form.Gives limits tokens found answer) (inner : form.IsInner)
    (ended : found = .ok .endOfInput) (failed : answer = .error cause) :
    cause.found? = some .endOfInput ∧
      form.Gives limits tokens (.ok .endOfLine) (.error (cause.finding .endOfLine)) := by
  induction gives with
  | done => cases failed
  | broken => cases ended
  | refuse judged =>
      cases ended
      cases failed
      obtain ⟨names, judged'⟩ := inner.judge_endOfLine judged
      exact ⟨names, .refuse judged'⟩
  | read asks judged following inductionHypothesis =>
      obtain ⟨names, behind⟩ :=
        inductionHypothesis (inner.goesOn (goesOn_of_judge asks (.inl judged))) ended failed
      exact ⟨names, .read asks judged behind⟩
  | @leave form next token tokens found answer asks judged shown following inductionHypothesis =>
      obtain ⟨names, behind⟩ :=
        inductionHypothesis (inner.goesOn (goesOn_of_judge asks (.inr judged))) ended failed
      refine ⟨names, ?_⟩
      cases tokens with
      | nil =>
          exact .leave asks (inner.judge_of_leave Token.not_isInner_endOfLine judged) rfl behind
      | cons first others => exact .leave asks judged shown behind

theorem Statement.Gives.endOfLine
    (gives : Statement.Gives limits tokens (.ok .endOfInput) (.error cause)) :
    cause.found? = some .endOfInput ∧
      Statement.Gives limits tokens (.ok .endOfLine) (.error (cause.finding .endOfLine)) := by
  cases gives with
  | notCommand inner => exact absurd rfl inner.2
  | command named behind =>
      obtain ⟨names, behind'⟩ := behind.endOfLine (Form.isInner_of_ofName? named) rfl rfl
      exact ⟨names, .command named behind'⟩

/-- What fails at the end of input fails at the end of a line in the same way. -/
theorem Program.Gives.endOfLine {answer : Except ParseError.Cause (List Instruction)}
    (gives : Program.Gives limits tokens found answer) (ended : found = .ok .endOfInput)
    (failed : answer = .error cause) :
    cause.found? = some .endOfInput ∧
      Program.Gives limits tokens (.ok .endOfLine) (.error (cause.finding .endOfLine)) := by
  induction gives with
  | done | last => cases failed
  | broken | brokenBehind => cases ended
  | empty separator following inductionHypothesis =>
      obtain ⟨names, behind⟩ := inductionHypothesis ended failed
      exact ⟨names, .empty separator behind⟩
  | refuse refused =>
      cases ended
      cases failed
      obtain ⟨names, refused'⟩ := refused.endOfLine
      exact ⟨names, .refuse refused'⟩
  | notEnded inner =>
      cases ended
      exact absurd rfl inner.2
  | @line tokens others separator found instruction answer statement following
      inductionHypothesis =>
      cases answer with
      | error cause' =>
          cases failed
          obtain ⟨names, behind⟩ := inductionHypothesis ended rfl
          exact ⟨names, .line statement behind⟩
      | ok instructions => cases failed

/-- A program that is read up to the end of input is read up to the end of a line, and what follows
is read behind it. -/
theorem Program.Gives.append {others : List Token} {instructions : List Instruction}
    {first second : Except ParseError.Cause (List Instruction)}
    {ended : Except LexicalError Token}
    (gives : Program.Gives limits tokens ended first) (done : first = .ok instructions)
    (following : Program.Gives limits others found second) :
    Program.Gives limits (tokens ++ .endOfLine :: others) found
      (second.map (instructions ++ ·)) := by
  -- The line feed ends the last statement of the first program, if that is not ended yet.
  induction gives generalizing instructions with
  | done =>
      cases done
      have passed := Program.Gives.empty .lineEnd following
      cases second <;> exact passed
  | broken | refuse | brokenBehind | notEnded => cases done
  | empty separator behind inductionHypothesis =>
      exact .empty separator (inductionHypothesis done)
  | last statement =>
      cases done
      have line : Statement.Gives limits _ (.ok Separator.lineEnd.token) _ :=
        statement.of_outer Token.not_isInner_endOfLine
      exact .line line following
  | @line tokens others' separator found' instruction answer statement behind
      inductionHypothesis =>
      cases answer with
      | error cause => cases done
      | ok instructions' =>
          cases done
          have joined := Program.Gives.line statement (inductionHypothesis rfl)
          rw [List.append_assoc]
          cases second <;> exact joined

end

/-! ## Joining sources -/

/-- The same lexeme further on in a source. -/
def Lexeme.shift (distance : Nat) (lexeme : Lexeme) : Lexeme :=
  { lexeme with span := lexeme.span.shift distance }

theorem Stream.place_add (source distance offset : Nat) (items : List Item) :
    place source (distance + offset) items =
      (place source offset items).map (Lexeme.shift distance) := by
  induction items generalizing offset with
  | nil => rfl
  | cons item items inductionHypothesis =>
      simp [place, Nat.add_assoc, inductionHypothesis, Lexeme.shift, Span.shift]

theorem Stream.front_shift (distance : Nat) (lexemes : List Lexeme) (stop : Span) :
    (Stream.mk (lexemes.map (Lexeme.shift distance)) (stop.shift distance)).front =
      (Stream.mk lexemes stop).front.shift distance := by
  cases lexemes <;> rfl

namespace Program

open Scan

variable {limits : Limits} {first second : List Char} {passed passed' later' : List Item}
  {tokens others : List Token}

/-- The items of two texts with a line feed between them. What stands in front of that line feed in
the first text belongs to the gap before it or to the line end. -/
theorem exists_items_append_lineFeed (first second : List Char) :
    ∃ gap ending, textOf (Scan.ofText first).items ++ gap ++ ending = first ∧
      (ending = [] ∨ ending = ['\r']) ∧
      (Scan.ofText (first ++ '\n' :: second)).items = (Scan.ofText first).items ++
        ⟨gap, ending ++ ['\n'], .ok .endOfLine⟩ :: (Scan.ofText second).items := by
  obtain ⟨gap, ending, parts, endings, scanned⟩ := ofText_append_lineFeed first second
  refine ⟨gap, ending, ?_, endings, congrArg Scan.items scanned⟩
  rw [List.append_assoc, parts]
  exact text_ofText first

/-- Behind a program and a line feed the next program is read, further on. -/
theorem Reads.append {instructions : List Instruction}
    {answer : Except ParseError.Cause (List Instruction)}
    (reads : Reads limits first passed [] tokens (.ok instructions))
    (reads' : Reads limits second passed' later' others answer) :
    ∃ joined, Reads limits (first ++ '\n' :: second) joined later'
        (tokens ++ .endOfLine :: others) (answer.map (instructions ++ ·)) ∧
      (left (first ++ '\n' :: second) joined later').front =
        (left second passed' later').front.shift (byteLength first + 1) := by
  obtain ⟨gap, ending, parts, -, scanned⟩ := exists_items_append_lineFeed first second
  have items := reads.items
  rw [List.append_nil] at items
  rw [items] at parts scanned
  have one : '\n'.utf8Size = 1 := rfl
  let joined := passed ++ ⟨gap, ending ++ ['\n'], .ok .endOfLine⟩ :: passed'
  have front : (left (first ++ '\n' :: second) joined later').front =
      (left second passed' later').front.shift (byteLength first + 1) := by
    have place : byteLength (textOf joined) =
        byteLength first + 1 + byteLength (textOf passed') := by
      rw [← parts]
      simp [joined, one, Nat.add_assoc]
    have stop : byteLength (first ++ '\n' :: second) =
        byteLength first + 1 + byteLength second := by
      simp [one, Nat.add_assoc]
    rw [left, place, stop, Stream.place_add]
    exact Stream.front_shift _ _ ⟨0, byteLength second, byteLength second⟩
  refine ⟨joined, ⟨?_, ?_, ?_⟩, front⟩
  · simp [joined, scanned, reads'.items]
  · simp [joined, reads.contents, reads'.contents]
  · rw [front]
    exact reads.gives.append rfl reads'.gives

variable {cause : ParseError.Cause}

/-- What fails in front of a lexeme of its own fails as before in front of more text. -/
theorem Reads.append_of_item {item : Item} {later : List Item}
    (reads : Reads limits first passed (item :: later) tokens (.error cause))
    (second : List Char) :
    ∃ more, Reads limits (first ++ '\n' :: second) passed (item :: more) tokens (.error cause) := by
  obtain ⟨gap, ending, -, -, scanned⟩ := exists_items_append_lineFeed first second
  rw [reads.items, List.append_assoc, List.cons_append] at scanned
  exact ⟨_, scanned, reads.contents, reads.gives⟩

/-- What fails at the end of input fails at the line feed in front of more text, or one carriage
return earlier. -/
theorem Reads.append_of_end (reads : Reads limits first passed [] tokens (.error cause))
    (second : List Char) :
    cause.found? = some .endOfInput ∧
    ∃ ending span, (ending = [] ∨ ending = ['\r'] ∧ first.getLast? = some '\r') ∧
      span.start + byteLength ending = byteLength first ∧
      ofText limits (first ++ '\n' :: second) = .error ⟨span, cause.finding .endOfLine⟩ := by
  obtain ⟨gap, ending, parts, endings, scanned⟩ := exists_items_append_lineFeed first second
  obtain ⟨names, gives⟩ := reads.gives.endOfLine rfl rfl
  have items := reads.items
  rw [List.append_nil] at items
  rw [items] at parts scanned
  have joined : Reads limits (first ++ '\n' :: second) passed
      (⟨gap, ending ++ ['\n'], .ok .endOfLine⟩ :: (Scan.ofText second).items) tokens
      (.error (cause.finding .endOfLine)) :=
    ⟨scanned, reads.contents, gives⟩
  refine ⟨names, ending, _, ?_, ?_, joined.ofText_eq_error⟩
  · rcases endings with rfl | rfl
    · exact .inl rfl
    · refine .inr ⟨rfl, ?_⟩
      rw [← parts, List.getLast?_append]
      rfl
  · have length := congrArg byteLength parts
    rw [byteLength_append, byteLength_append] at length
    exact length

/-- A lexeme that a source is left with lies inside of the source. -/
theorem Reads.front_le {item : Item} {later : List Item}
    {answer : Except ParseError.Cause (List Instruction)}
    (reads : Reads limits first passed (item :: later) tokens answer) :
    (left first passed (item :: later)).front.span.start ≤ byteLength first ∧
      (left first passed (item :: later)).front.span.stop ≤ byteLength first := by
  have length := congrArg byteLength (text_ofText first)
  rw [Scan.text, ← textOf, reads.items] at length
  simp only [textOf_append, textOf_cons, byteLength_append] at length
  simp only [left, Stream.place, Stream.front, List.headD_cons]
  omega

end Program

end Sequencer
