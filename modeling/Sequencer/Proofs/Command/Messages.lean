import Sequencer.Proofs.Command.Reading
import Sequencer.Proofs.Text.Lacking
import Sequencer.Proofs.Token.LineStarts

/-!
# Sentences in one line

The sentence that reports an error holds no line feed (`Program.lacks_message_of_eq_error`). What it
names was written without one: a character is quoted, a literal is reported by its number, words are
made of letters and digits, and a form asks for marks only. So the sentence stays in one line,
whatever the source looks like.
-/

namespace Sequencer

open Sequencer.Text

/-! ## Quoted characters -/

/-- A line feed is written by its letter, and no other character is written with one. -/
theorem Text.notMem_escape (quote c : Char) : '\n' ∉ escape quote c := by
  unfold escape
  split
  · decide
  split
  · decide
  split
  · decide
  split
  · decide
  rename_i other
  split
  · rw [List.mem_cons, List.mem_singleton, not_or]
    exact ⟨by decide, fun same => other same.symm⟩
  split
  · have digits : '\n' ∉ Nat.toDigits 16 c.toNat :=
      notMem_toDigits rfl (by decide) (by decide) c.toNat
    simp [digits]
  · rw [List.mem_singleton]
    exact fun same => other same.symm

theorem Text.lacks_quotedChar (c : Char) : Lacks '\n' (quotedChar c) := by
  apply lacks_ofList
  rw [List.mem_append, List.mem_cons, not_or, not_or]
  exact ⟨⟨by decide, notMem_escape apostrophe c⟩, by decide⟩

theorem LexicalError.lacks_message (error : LexicalError) : Lacks '\n' error.message := by
  cases error with
  | invalidNumber | numberTooLarge => exact lacks_ofList (by decide)
  | unexpectedCharacter c =>
      have beginning : Lacks '\n' "unexpected character: " := lacks_ofList (by decide)
      exact beginning.append (lacks_quotedChar c)

/-! ## Tokens and causes -/

/-- A token is named in one line. -/
def Token.IsLine (token : Token) : Prop :=
  Lacks '\n' token.describe

instance : DecidablePred Token.IsLine :=
  fun token => inferInstanceAs (Decidable (Lacks '\n' token.describe))

theorem lacks_backquoted {text : String} (inLine : Lacks '\n' text) :
    Lacks '\n' (backquoted text) := by
  have quote : Lacks '\n' "\x60" := lacks_ofList (by decide)
  exact (quote.append inLine).append quote

/-- What is written as a token is named in one line. -/
theorem Scan.Written.isLine {text : List Char} {token : Token}
    (written : Written text (.ok token)) : token.IsLine := by
  cases written with
  | word begins goesOn =>
      have inLine := (Written.word begins goesOn).notMem_lineFeed (by simp)
      exact lacks_backquoted (lacks_ofList inLine)
  | number => exact lacks_backquoted (lacks_number rfl _)
  | _ => decide

theorem Device.lacks_name (device : Device) : Lacks '\n' device.name := by
  cases device <;> exact lacks_ofList (by decide)

theorem Quantity.lacks_name (quantity : Quantity) : Lacks '\n' quantity.name := by
  cases quantity <;> exact lacks_ofList (by decide)

namespace ParseError.Cause

/-- A cause names the command or the mark that it is about in one line. -/
def NamesInLine : Cause → Prop
  | .unknownCommand name => (Token.word name).IsLine
  | .expectedMark mark _ => mark.IsLine
  | _ => True

/-- A cause that names what it is about in one line has a sentence in one line. -/
theorem lacks_message {cause : Cause} (named : cause.NamesInLine)
    (found : ∀ token, cause.found? = some token → token.IsLine) : Lacks '\n' cause.message := by
  cases cause with
  | lexical error => exact error.lacks_message
  | expectedCommand token =>
      have beginning : Lacks '\n' "expected a command, found " := lacks_ofList (by decide)
      exact beginning.append (found token rfl)
  | unknownCommand name =>
      have beginning : Lacks '\n' "unknown command " := lacks_ofList (by decide)
      exact beginning.append named
  | expectedMark mark token =>
      have beginning : Lacks '\n' "expected " := lacks_ofList (by decide)
      have comma : Lacks '\n' ", found " := lacks_ofList (by decide)
      exact ((beginning.append named).append comma).append (found token rfl)
  | expectedEnd token =>
      have beginning : Lacks '\n' "expected end of command, found " := lacks_ofList (by decide)
      exact beginning.append (found token rfl)
  | expectedChannel device token =>
      have beginning : Lacks '\n' "expected " := lacks_ofList (by decide)
      have number : Lacks '\n' " channel number, found " := lacks_ofList (by decide)
      exact ((beginning.append device.lacks_name).append number).append (found token rfl)
  | channelOutOfRange device number count =>
      have channel : Lacks '\n' " channel " := lacks_ofList (by decide)
      have range : Lacks '\n' " out of range (0.." := lacks_ofList (by decide)
      have ending : Lacks '\n' ")" := lacks_ofList (by decide)
      have numbered := (channel.append (lacks_number rfl number)).append range
      exact device.lacks_name.append ((numbered.append (lacks_number rfl count)).append ending)
  | expectedQuantity quantity token =>
      have beginning : Lacks '\n' "expected " := lacks_ofList (by decide)
      have comma : Lacks '\n' ", found " := lacks_ofList (by decide)
      exact ((beginning.append quantity.lacks_name).append comma).append (found token rfl)
  | quantityOutOfRange quantity value =>
      have blank : Lacks '\n' " " := lacks_ofList (by decide)
      have range : Lacks '\n' " out of range (0..=" := lacks_ofList (by decide)
      have ending : Lacks '\n' ")" := lacks_ofList (by decide)
      have numbered := (blank.append (lacks_number rfl value)).append range
      exact quantity.lacks_name.append
        ((numbered.append (lacks_number rfl quantity.maximum)).append ending)
  | expectedLevel token =>
      have beginning : Lacks '\n' "expected a TTL level (0, 1, on, off), found " :=
        lacks_ofList (by decide)
      exact beginning.append (found token rfl)
  | levelOutOfRange value =>
      have beginning : Lacks '\n' "TTL level must be 0 or 1, got " := lacks_ofList (by decide)
      exact beginning.append (lacks_number rfl value)
  | waitOverflow => exact lacks_ofList (by decide)

end ParseError.Cause

/-! ## Forms -/

namespace Form

/-- The marks that a form asks for are named in one line. -/
def AsksInLine : Form → Prop
  | .done _ => True
  | .mark token next => token.IsLine ∧ next.AsksInLine
  | .channel _ next => ∀ number, (next number).AsksInLine
  | .amount _ next => ∀ value, (next value).AsksInLine
  | .level next => ∀ on, (next on).AsksInLine
  | .extraWait _ => True
  | .choice _ taken skipped => taken.AsksInLine ∧ skipped.AsksInLine

theorem AsksInLine.goesOn {form next : Form} (asks : form.AsksInLine) (goesOn : form.GoesOn next) :
    next.AsksInLine := by
  cases goesOn with
  | mark => exact asks.2
  | channel => exact asks _
  | amount => exact asks _
  | level => exact asks _
  | extraWait => trivial
  | taken => exact asks.1
  | skipped => exact asks.2

theorem asksInLine_timed (command : Command) (wait : UInt32) : (timed command wait).AsksInLine := by
  have equals : Token.equals.IsLine := by decide
  exact ⟨⟨equals, trivial⟩, trivial⟩

theorem asksInLine_of_ofName? {name : String} {form : Form} (named : ofName? name = some form) :
    form.AsksInLine := by
  have left : Token.leftParen.IsLine := by decide
  have right : Token.rightParen.IsLine := by decide
  have equals : Token.equals.IsLine := by decide
  unfold ofName? at named
  split at named <;> cases named <;>
    simp [setting, target, argument, AsksInLine, left, right, equals, asksInLine_timed]

variable {limits : Limits} {form : Form} {token : Token} {cause : ParseError.Cause}

/-- A form refuses a token with a cause that names no other mark than one it asks for. -/
theorem namesInLine_of_judge (asks : form.AsksInLine)
    (judged : form.judge limits token = .refuse cause) : cause.NamesInLine := by
  cases form with
  | done instruction => cases judged
  | mark mark next =>
      by_cases same : token = mark <;> simp [judge, same] at judged
      rw [← judged]
      exact asks.1
  | choice mark taken skipped => by_cases same : token = mark <;> simp [judge, same] at judged
  | level next =>
      cases names : token.level? with
      | some on => simp [judge, names] at judged
      | none =>
          cases token <;> simp only [judge, names, Verdict.refuse.injEq] at judged <;>
            rw [← judged] <;> trivial
  | channel device next =>
      cases token with
      | number number =>
          by_cases small : number < device.count limits <;> simp [judge, small] at judged
          rw [← judged]
          trivial
      | _ =>
          cases judged
          trivial
  | amount quantity next =>
      cases token with
      | number value =>
          by_cases small : value ≤ quantity.maximum <;> simp [judge, small] at judged
          rw [← judged]
          trivial
      | _ =>
          cases judged
          trivial
  | extraWait instruction =>
      cases token with
      | number value =>
          simp only [judge] at judged
          split at judged
          · cases judged
            trivial
          · split at judged <;> cases judged
            trivial
      | _ =>
          cases judged
          trivial

theorem Gives.namesInLine {tokens : List Token} {found : Except LexicalError Token}
    {answer : Except ParseError.Cause Instruction} (gives : form.Gives limits tokens found answer)
    (asks : form.AsksInLine) (failed : answer = .error cause) : cause.NamesInLine := by
  induction gives with
  | done => cases failed
  | broken =>
      cases failed
      trivial
  | refuse judged =>
      cases failed
      exact namesInLine_of_judge asks judged
  | read opened judged following inductionHypothesis =>
      exact inductionHypothesis (asks.goesOn (goesOn_of_judge opened (.inl judged))) failed
  | leave opened judged shown following inductionHypothesis =>
      exact inductionHypothesis (asks.goesOn (goesOn_of_judge opened (.inr judged))) failed

end Form

/-! ## Programs -/

section

variable {limits : Limits} {tokens : List Token} {found : Except LexicalError Token}
  {cause : ParseError.Cause}

theorem Statement.Gives.namesInLine {answer : Except ParseError.Cause Instruction}
    (gives : Statement.Gives limits tokens found answer) (failed : answer = .error cause)
    (line : ∀ token, found = .ok token → token.IsLine) : cause.NamesInLine := by
  cases gives with
  | notCommand =>
      cases failed
      trivial
  | unknown =>
      cases failed
      exact line _ rfl
  | command named behind =>
      exact behind.namesInLine (Form.asksInLine_of_ofName? named) failed

theorem Program.Gives.namesInLine {answer : Except ParseError.Cause (List Instruction)}
    (gives : Program.Gives limits tokens found answer) (failed : answer = .error cause)
    (line : ∀ token, found = .ok token → token.IsLine) : cause.NamesInLine := by
  induction gives with
  | done | last => cases failed
  | broken | brokenBehind | notEnded =>
      cases failed
      trivial
  | empty separator following inductionHypothesis => exact inductionHypothesis failed line
  | refuse refused =>
      cases failed
      exact refused.namesInLine rfl line
  | @line tokens others separator found instruction answer statement following
      inductionHypothesis =>
      cases answer with
      | error cause' =>
          cases failed
          exact inductionHypothesis rfl line
      | ok instructions => cases failed

end

/-- The token at which reading ends is named in one line. -/
theorem Program.Reads.isLine {limits : Limits} {source : List Char} {passed later : List Item}
    {tokens : List Token} {answer : Except ParseError.Cause (List Instruction)}
    (reads : Reads limits source passed later tokens answer) {token : Token}
    (found : (left source passed later).front.content = .ok token) : token.IsLine := by
  cases later with
  | nil =>
      cases found
      decide
  | cons item later =>
      have inside : item ∈ (Scan.ofText source).items :=
        reads.items ▸ List.mem_append_right _ List.mem_cons_self
      have content : item.content = .ok token := found
      have written := Scan.written_of_mem inside
      rw [content] at written
      exact written.isLine

/-- The sentence that reports an error stays in one line. -/
theorem Program.lacks_message_of_eq_error {limits : Limits} {source : List Char}
    {error : ParseError} (failed : ofText limits source = .error error) :
    Lacks '\n' error.message := by
  rcases exists_reads_of_eq_error failed with ⟨passed, later, tokens, cause, reads, rfl⟩
  apply ParseError.Cause.lacks_message
  · exact reads.gives.namesInLine rfl fun token => reads.isLine
  · intro token named
    exact reads.isLine (ParseError.Cause.Agrees.found_eq (reads.gives.agrees rfl) named)

end Sequencer
