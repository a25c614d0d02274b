import Sequencer.Command.Form
import Sequencer.Token.Scan

/-!
# Reading commands

Commands are read from a stream of lexemes with one token of lookahead. A program
is a sequence of statements, each ended by a line end, a semicolon or the end of
input; empty statements count for nothing.

Every answer comes with the stream that it leaves behind, also when it is an
error: a token that is wrong in itself has been passed, while a token found where
a mark or the end of a command was expected has not. So reading can be resumed
behind an error.
-/

namespace Sequencer

open Sequencer.Source

/-- What is wrong with a command. -/
inductive ParseError.Cause where
  | lexical (error : LexicalError)
  | expectedCommand (found : Token)
  | unknownCommand (name : String)
  | expectedMark (mark found : Token)
  | expectedEnd (found : Token)
  | expectedChannel (device : Device) (found : Token)
  | channelOutOfRange (device : Device) (number count : Nat)
  | expectedQuantity (quantity : Quantity) (found : Token)
  | quantityOutOfRange (quantity : Quantity) (value : Nat)
  | expectedLevel (found : Token)
  | levelOutOfRange (value : Nat)
  | waitOverflow
  deriving DecidableEq, Repr

/-- An error and the place of the token that it is about. -/
structure ParseError where
  span : Span
  cause : ParseError.Cause
  deriving DecidableEq, Repr

namespace ParseError

/-- The sentence that reports a cause. -/
def Cause.message : Cause → String
  | .lexical error => error.message
  | .expectedCommand found => "expected a command, found " ++ found.describe
  | .unknownCommand name => "unknown command " ++ backquoted name
  | .expectedMark mark found => "expected " ++ mark.describe ++ ", found " ++ found.describe
  | .expectedEnd found => "expected end of command, found " ++ found.describe
  | .expectedChannel device found =>
      "expected " ++ device.name ++ " channel number, found " ++ found.describe
  | .channelOutOfRange device number count =>
      device.name ++ s!" channel {number} out of range (0..{count})"
  | .expectedQuantity quantity found =>
      "expected " ++ quantity.name ++ ", found " ++ found.describe
  | .quantityOutOfRange quantity value =>
      quantity.name ++ s!" {value} out of range (0..={quantity.maximum})"
  | .expectedLevel found =>
      "expected a TTL level (0, 1, on, off), found " ++ found.describe
  | .levelOutOfRange value => s!"TTL level must be 0 or 1, got {value}"
  | .waitOverflow => "total wait overflows 32 bits"

/-- Whether the whole literal is at fault, rather than what stands at its start. -/
def Cause.isLiteral : Cause → Bool
  | .lexical error => error.isLiteral
  | .channelOutOfRange .. => true
  | .quantityOutOfRange .. => true
  | .levelOutOfRange _ => true
  | .waitOverflow => true
  | _ => false

/-- The sentence that reports an error. -/
def message (error : ParseError) : String := error.cause.message

/-- The literal at fault, if the error is about one. -/
def highlight (error : ParseError) : Option Span :=
  if error.cause.isLiteral then some error.span else none

/-- The error's sentence and its place in bytes. -/
def text (error : ParseError) : String :=
  error.message ++ s!" @{error.span.start}..{error.span.stop}"

end ParseError

/-- What reading comes to: an answer and the stream behind it. -/
structure Parsed (α : Type) where
  answer : Except ParseError α
  rest : Stream

namespace Parsed

/-- An answer. -/
def success {α : Type} (value : α) (rest : Stream) : Parsed α := ⟨.ok value, rest⟩

/-- An error at a place. -/
def failure {α : Type} (span : Span) (cause : ParseError.Cause) (rest : Stream) : Parsed α :=
  ⟨.error ⟨span, cause⟩, rest⟩

/-- Change the answer. -/
def map {α β : Type} (change : α → β) (parsed : Parsed α) : Parsed β :=
  ⟨parsed.answer.map change, parsed.rest⟩

end Parsed

/-- Read what a form asks for. The answer holds the place of the last token read,
which is `last` when the form asks for nothing. -/
def Form.parse (limits : Limits) : Form → Span → Stream → Parsed (Instruction × Span)
  | .done instruction, last, stream => .success (instruction, last) stream
  | .mark token next, _, stream =>
      match stream.view with
      | .broken error span rest => .failure span (.lexical error) rest
      | .token found span rest =>
          if found = token then next.parse limits span rest
          else .failure span (.expectedMark token found) stream
  | .channel device next, _, stream =>
      match stream.view with
      | .broken error span rest => .failure span (.lexical error) rest
      | .token (.number number) span rest =>
          if number < device.count limits then
            (next (UInt8.ofNat number)).parse limits span rest
          else .failure span (.channelOutOfRange device number (device.count limits)) rest
      | .token found span rest => .failure span (.expectedChannel device found) rest
  | .amount quantity next, _, stream =>
      match stream.view with
      | .broken error span rest => .failure span (.lexical error) rest
      | .token (.number value) span rest =>
          if value ≤ quantity.maximum then (next value).parse limits span rest
          else .failure span (.quantityOutOfRange quantity value) rest
      | .token found span rest => .failure span (.expectedQuantity quantity found) rest
  | .level next, _, stream =>
      match stream.view with
      | .broken error span rest => .failure span (.lexical error) rest
      | .token found span rest =>
          match found.level?, found with
          | some on, _ => (next on).parse limits span rest
          | none, .number value => .failure span (.levelOutOfRange value) rest
          | none, found => .failure span (.expectedLevel found) rest
  | .extraWait instruction, _, stream =>
      match stream.view with
      | .broken error span rest => .failure span (.lexical error) rest
      | .token (.number value) span rest =>
          if Quantity.waitTime.maximum < value then
            .failure span (.quantityOutOfRange .waitTime value) rest
          else if instruction.wait.toNat + value < UInt32.size then
            .success ({ instruction with wait := instruction.wait + UInt32.ofNat value }, span) rest
          else .failure span .waitOverflow rest
      | .token found span rest => .failure span (.expectedQuantity .waitTime found) rest
  | .choice token taken skipped, last, stream =>
      match stream.view with
      | .broken error span rest => .failure span (.lexical error) rest
      | .token found span rest =>
          if found = token then taken.parse limits span rest
          else skipped.parse limits last stream

/-- Read one statement. -/
def Statement.parse (limits : Limits) (stream : Stream) : Parsed Statement :=
  match stream.view with
  | .broken error span rest => .failure span (.lexical error) rest
  | .token (.word name) span rest =>
      match Form.ofName? name with
      | none => .failure span (.unknownCommand name) rest
      | some form =>
          (form.parse limits span rest).map fun (instruction, last) =>
            { instruction with span := span.join last }
  | .token found span rest => .failure span (.expectedCommand found) rest

namespace Stream

/-- The number of lexemes that are left. -/
def size (stream : Stream) : Nat := stream.lexemes.length

/-- Looking at a stream leaves no more lexemes behind the view than there were. -/
theorem size_rest_le_of_view_token {stream rest : Stream} {found : Token} {span : Span}
    (seen : stream.view = .token found span rest) : rest.size ≤ stream.size := by
  unfold view at seen
  split at seen <;> simp_all [size]
  · obtain ⟨-, -, rfl⟩ := seen
    simp

/-- A token other than the end of input is passed over. -/
theorem size_rest_lt_of_view_token {stream rest : Stream} {found : Token} {span : Span}
    (seen : stream.view = .token found span rest) (real : found ≠ .endOfInput) :
    rest.size < stream.size := by
  unfold view at seen
  split at seen <;> simp_all [size]
  · obtain ⟨-, -, rfl⟩ := seen
    simp

/-- An error is passed over. -/
theorem size_rest_lt_of_view_broken {stream rest : Stream} {error : LexicalError} {span : Span}
    (seen : stream.view = .broken error span rest) : rest.size < stream.size := by
  unfold view at seen
  split at seen <;> simp_all [size]
  · obtain ⟨-, -, rfl⟩ := seen
    simp

end Stream

/-- Reading a form leaves no more lexemes than there were. -/
theorem Form.size_parse_le (limits : Limits) (form : Form) (last : Span) (stream : Stream) :
    (form.parse limits last stream).rest.size ≤ stream.size := by
  induction form generalizing last stream with
  | done instruction => simp [parse, Parsed.success]
  | mark token next inductionHypothesis =>
      simp only [parse]
      split
      · exact Nat.le_of_lt (Stream.size_rest_lt_of_view_broken ‹_›)
      · split
        · exact Nat.le_trans (inductionHypothesis _ _)
            (Stream.size_rest_le_of_view_token ‹_›)
        · exact Nat.le_refl _
  | channel device next inductionHypothesis =>
      simp only [parse]
      split
      · exact Nat.le_of_lt (Stream.size_rest_lt_of_view_broken ‹_›)
      · split
        · exact Nat.le_trans (inductionHypothesis _ _ _)
            (Stream.size_rest_le_of_view_token ‹_›)
        · exact Stream.size_rest_le_of_view_token ‹_›
      · exact Stream.size_rest_le_of_view_token ‹_›
  | amount quantity next inductionHypothesis =>
      simp only [parse]
      split
      · exact Nat.le_of_lt (Stream.size_rest_lt_of_view_broken ‹_›)
      · split
        · exact Nat.le_trans (inductionHypothesis _ _ _)
            (Stream.size_rest_le_of_view_token ‹_›)
        · exact Stream.size_rest_le_of_view_token ‹_›
      · exact Stream.size_rest_le_of_view_token ‹_›
  | level next inductionHypothesis =>
      simp only [parse]
      split
      · exact Nat.le_of_lt (Stream.size_rest_lt_of_view_broken ‹_›)
      · split
        · exact Nat.le_trans (inductionHypothesis _ _ _)
            (Stream.size_rest_le_of_view_token ‹_›)
        · exact Stream.size_rest_le_of_view_token ‹_›
        · exact Stream.size_rest_le_of_view_token ‹_›
  | extraWait instruction =>
      simp only [parse]
      split
      · exact Nat.le_of_lt (Stream.size_rest_lt_of_view_broken ‹_›)
      · split
        · exact Stream.size_rest_le_of_view_token ‹_›
        · split <;> exact Stream.size_rest_le_of_view_token ‹_›
      · exact Stream.size_rest_le_of_view_token ‹_›
  | choice token taken skipped inductionHypothesis inductionHypothesis' =>
      simp only [parse]
      split
      · exact Nat.le_of_lt (Stream.size_rest_lt_of_view_broken ‹_›)
      · split
        · exact Nat.le_trans (inductionHypothesis _ _)
            (Stream.size_rest_le_of_view_token ‹_›)
        · exact inductionHypothesis' _ _

/-- Reading a statement where a token stands passes at least that token. -/
theorem Statement.size_parse_lt (limits : Limits) {stream rest : Stream} {found : Token}
    {span : Span} (seen : stream.view = .token found span rest)
    (real : found ≠ .endOfInput) :
    (Statement.parse limits stream).rest.size < stream.size := by
  have shorter := Stream.size_rest_lt_of_view_token seen real
  unfold Statement.parse
  rw [seen]
  split
  · rename_i impossible
    simp at impossible
  · rename_i same
    simp only [Stream.View.token.injEq] at same
    obtain ⟨-, -, rfl⟩ := same
    split
    · exact shorter
    · exact Nat.lt_of_le_of_lt (Form.size_parse_le _ _ _ _) shorter
  · rename_i same
    simp only [Stream.View.token.injEq] at same
    obtain ⟨-, -, rfl⟩ := same
    exact shorter

namespace Program

/-- Read statements up to the end of input or the first error. -/
def parse (limits : Limits) (stream : Stream) : Parsed (List Statement) :=
  match _seen : stream.view with
  | .broken error span rest => .failure span (.lexical error) rest
  | .token found _ rest =>
      if _atEnd : found = .endOfInput then .success [] stream
      else if found.isSeparator then parse limits rest
      else
        let parsed := Statement.parse limits stream
        match parsed.answer with
        | .error error => ⟨.error error, parsed.rest⟩
        | .ok statement =>
            match _seenBehind : parsed.rest.view with
            | .broken error span rest => .failure span (.lexical error) rest
            | .token found span rest =>
                if found = .endOfInput then .success [statement] parsed.rest
                else if _separated : found.isSeparator then
                  (parse limits rest).map (statement :: ·)
                else .failure span (.expectedEnd found) parsed.rest
termination_by stream.size
decreasing_by
  · exact Stream.size_rest_lt_of_view_token _seen _atEnd
  · exact Nat.lt_trans
      (Stream.size_rest_lt_of_view_token _seenBehind (Token.ne_endOfInput_of_isSeparator _separated))
      (Statement.size_parse_lt limits _seen _atEnd)

/-- Read a whole source. All places are exact, so sources of `2 ^ 32` bytes and more, whose places
are no words, are outside of what this models; `ofText?` says how they are read. -/
def ofText (limits : Limits) (source : List Char) : Except ParseError (List Statement) :=
  (parse limits (Stream.ofText 0 source)).answer

/-- Read a whole source with places in words. -/
def ofText? (limits : Limits) (source : List Char) :
    Option (Except ParseError (List Statement)) :=
  (Stream.ofText? 0 source).map fun stream => (parse limits stream).answer

end Program

end Sequencer
