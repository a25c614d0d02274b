import Sequencer.Source.Span
import Sequencer.Source.WordTable
import Sequencer.Text.Measure
import Sequencer.Text.Quoted
import Sequencer.Token
import Sequencer.Token.Literal

/-!
# Scanning a source

A scan cuts a source into items. Each item keeps the text passed over before it
(blanks and comments), its own text, and the token or the error that it is; what
is passed over behind the last item is the scan's `trailing` text. So all texts
of a scan, put together, are the source (`Scan.text_ofText`). The scan goes on
behind an error with the next character.

Blanks are spaces, tabs, and carriage returns that no line feed follows. A comment
runs from `#` up to the end of its line. A carriage return before a line feed
belongs to the line end.
-/

namespace Sequencer

open Sequencer.Source Sequencer.Text

/-- Why a stretch of text is no token. -/
inductive LexicalError where
  | unexpectedCharacter (c : Char)
  | invalidNumber
  | numberTooLarge
  deriving DecidableEq, Repr

/-- The sentence that reports a lexical error. -/
def LexicalError.message : LexicalError → String
  | .unexpectedCharacter c => "unexpected character: " ++ quotedChar c
  | .invalidNumber => "invalid number literal"
  | .numberTooLarge => "integer literal overflows u64"

/-- Whether a lexical error is about a whole literal. -/
def LexicalError.isLiteral : LexicalError → Bool
  | .unexpectedCharacter _ => false
  | .invalidNumber => true
  | .numberTooLarge => true

namespace Scan

/-- Whether a word can begin with a character. -/
def isWordStart (c : Char) : Bool := c = '_' || c.isAlpha

/-- Whether a word can go on with a character. -/
def isWordPart (c : Char) : Bool := c = '_' || c.isAlphanum

/-- Whether a line ends here. -/
def beginsLineEnd : List Char → Bool
  | '\n' :: _ => true
  | '\r' :: '\n' :: _ => true
  | _ => false

/-- Whether a character that no line end begins with is a blank or begins a comment. -/
def isBlank (c : Char) : Bool := c = ' ' || c = '\t' || c = '\r' || c = '#'

/-- Split off blanks and comments. Inside a comment everything up to the line end
belongs to it. -/
def splitGap (inComment : Bool) : List Char → List Char × List Char
  | [] => ([], [])
  | c :: rest =>
      if !beginsLineEnd (c :: rest) && (inComment || isBlank c) then
        let split := splitGap (inComment || c = '#') rest
        (c :: split.1, split.2)
      else ([], c :: rest)

theorem splitGap_append (inComment : Bool) (text : List Char) :
    (splitGap inComment text).1 ++ (splitGap inComment text).2 = text := by
  induction text generalizing inComment with
  | nil => rfl
  | cons c rest inductionHypothesis =>
      simp only [splitGap]
      split
      · simp [inductionHypothesis]
      · rfl

/-- The token or the error that a literal is. -/
def ofLiteral (literal : List Char) : Except LexicalError Token :=
  match Token.Literal.read literal with
  | .ok value => .ok (.number value)
  | .error .invalid => .error .invalidNumber
  | .error .tooLarge => .error .numberTooLarge

/-- What is scanned from a character on: the text used up behind that character,
what it is together with the character, and the rest. -/
def readFrom (c : Char) (rest : List Char) :
    List Char × Except LexicalError Token × List Char :=
  match c with
  | '\n' => ([], .ok .endOfLine, rest)
  | '(' => ([], .ok .leftParen, rest)
  | ')' => ([], .ok .rightParen, rest)
  | '=' => ([], .ok .equals, rest)
  | ';' => ([], .ok .semicolon, rest)
  | c =>
      if c = '\r' ∧ rest.head? = some '\n' then (['\n'], .ok .endOfLine, rest.tail)
      else if isWordStart c then
        let more := rest.takeWhile isWordPart
        (more, .ok (.word (String.ofList (c :: more))), rest.dropWhile isWordPart)
      else if c.isDigit then
        let more := rest.takeWhile isWordPart
        (more, ofLiteral (c :: more), rest.dropWhile isWordPart)
      else ([], .error (.unexpectedCharacter c), rest)

theorem readFrom_append (c : Char) (rest : List Char) :
    (readFrom c rest).1 ++ (readFrom c rest).2.2 = rest := by
  unfold readFrom
  split <;> try rfl
  split
  · rename_i carriageReturn
    cases rest with
    | nil => simp at carriageReturn
    | cons d rest =>
        simp only [List.head?_cons, Option.some.injEq] at carriageReturn
        simp [carriageReturn.2]
  · split
    · exact List.takeWhile_append_dropWhile
    · split
      · exact List.takeWhile_append_dropWhile
      · rfl

end Scan

/-- One item of a scan. -/
structure Item where
  /-- The blanks and comments passed over before the item. -/
  gap : List Char
  /-- The item's own text. -/
  text : List Char
  /-- What the text is. -/
  content : Except LexicalError Token
  deriving Repr

/-- The items of a source, and what is passed over behind the last of them. -/
structure Scan where
  items : List Item
  trailing : List Char
  deriving Repr

namespace Scan

/-- The first item of a source and the text behind it, or the whole source as
passed over when it holds no item. -/
def next (source : List Char) : List Char ⊕ (Item × List Char) :=
  match splitGap false source with
  | (gap, []) => .inl gap
  | (gap, c :: rest) =>
      let read := readFrom c rest
      .inr (⟨gap, c :: read.1, read.2.1⟩, read.2.2)

theorem next_append {source : List Char} {item : Item} {rest : List Char}
    (found : next source = .inr (item, rest)) :
    item.gap ++ item.text ++ rest = source := by
  have parts := splitGap_append false source
  unfold next at found
  split at found
  · simp at found
  · rename_i gap c after split
    simp only [split] at parts
    simp only [Sum.inr.injEq, Prod.mk.injEq] at found
    obtain ⟨rfl, rfl⟩ := found
    simp [← parts, readFrom_append]

theorem length_lt_of_next {source : List Char} {item : Item} {rest : List Char}
    (found : next source = .inr (item, rest)) : rest.length < source.length := by
  have parts := splitGap_append false source
  unfold next at found
  split at found
  · simp at found
  · rename_i gap c after split
    simp only [split] at parts
    simp only [Sum.inr.injEq, Prod.mk.injEq] at found
    obtain ⟨-, rfl⟩ := found
    have used := congrArg List.length (readFrom_append c after)
    have whole := congrArg List.length parts
    simp only [List.length_append, List.length_cons] at used whole
    omega

/-- Scan a source. -/
def ofText (source : List Char) : Scan :=
  match _found : next source with
  | .inl trailing => ⟨[], trailing⟩
  | .inr (item, rest) =>
      let following := ofText rest
      ⟨item :: following.items, following.trailing⟩
termination_by source.length
decreasing_by exact length_lt_of_next _found

/-- The text that was scanned. -/
def text (scan : Scan) : List Char :=
  scan.items.flatMap (fun item => item.gap ++ item.text) ++ scan.trailing

/-- Scanning loses nothing. -/
theorem text_ofText (source : List Char) : (ofText source).text = source := by
  fun_induction ofText source with
  | case1 source trailing found =>
      have parts := splitGap_append false source
      unfold next at found
      split at found
      · rename_i gap split
        simp only [Sum.inl.injEq] at found
        simpa [text, split, found] using parts
      · simp at found
  | case2 source item rest found following inductionHypothesis =>
      simp only [text, List.flatMap_cons] at inductionHypothesis ⊢
      rw [← next_append found, ← inductionHypothesis]
      simp [following]

end Scan

/-- An item at its place in a source. -/
structure Lexeme where
  span : Span
  content : Except LexicalError Token
  deriving Repr

/-- The lexemes that are left to a reader, and the place behind them all. -/
structure Stream where
  lexemes : List Lexeme
  stop : Span
  deriving Repr

namespace Stream

/-- Give items their places, the first of them being passed over to from `offset`. -/
def place (source offset : Nat) : List Item → List Lexeme
  | [] => []
  | item :: rest =>
      let start := offset + byteLength item.gap
      let stop := start + byteLength item.text
      ⟨⟨source, start, stop⟩, item.content⟩ :: place source stop rest

/-- All lexemes of a source. Their places are exact, which models a machine with words of 32 bits
only for sources shorter than `2 ^ 32` bytes. Longer ones are outside of what this models; `ofText?`
says what is made of them. -/
def ofText (source : Nat) (text : List Char) : Stream where
  lexemes := place source 0 (Scan.ofText text).items
  stop := ⟨source, byteLength text, byteLength text⟩

/-- The stream with places that are kept in words. -/
def inWords (stream : Stream) : Stream where
  lexemes := stream.lexemes.map fun lexeme => { lexeme with span := lexeme.span.inWords }
  stop := stream.stop.inWords

/-- All lexemes of a source, with places in words. The table of its lines is made first, and there
are no lexemes where that overflows, as it does behind a line feed at `2 ^ 32 - 1`. -/
def ofText? (source : Nat) (text : List Char) : Option Stream :=
  (WordTable.ofBytes? (Utf8.encode text)).map fun _ => (ofText source text).inWords

/-- What stands next in a stream. -/
inductive View where
  /-- A token, its place, and the stream behind it. -/
  | token (found : Token) (span : Span) (rest : Stream)
  /-- An error, its place, and the stream behind it. -/
  | broken (error : LexicalError) (span : Span) (rest : Stream)

/-- Look at what stands next. The end of input stays where it is. -/
def view (stream : Stream) : View :=
  match stream.lexemes with
  | [] => .token .endOfInput stream.stop stream
  | ⟨span, .ok found⟩ :: rest => .token found span ⟨rest, stream.stop⟩
  | ⟨span, .error error⟩ :: rest => .broken error span ⟨rest, stream.stop⟩

end Stream

end Sequencer
