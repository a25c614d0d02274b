import Sequencer.Source.Line

/-!
# Reading JSON text

A text is read from left to right straight into the record that is wanted, so what
does not fit the record is reported where it stands, before anything behind it is
looked at. The first flaw ends the reading. Its place is a number of bytes: either
what has been read so far, or one byte more if the next character is at fault.

A value that does not fit is noticed by the record, which knows no places. Such a
flaw is placed by whatever read the value, when it is done with it.
-/

namespace Sequencer.Json

open Sequencer.Source Sequencer.Text

/-- What is wrong with a JSON text. -/
inductive Flaw where
  | unclosedList
  | unclosedObject
  | unclosedString
  | missingValue
  | expectedColon
  | expectedListComma
  | expectedObjectComma
  | expectedWord
  | expectedValue
  | expectedKey
  | invalidEscape
  | invalidNumber
  | numberOutOfRange
  | controlCharacter
  | loneSurrogate
  | brokenSurrogate
  | trailingComma
  | trailingCharacters
  /-- The text is well formed, but a value is not what is wanted. -/
  | misfit (text : String)
  deriving DecidableEq, Repr

/-- The kinds of flaws. -/
inductive Flaw.Kind where
  /-- The text ends too early. -/
  | truncated
  /-- The text is not JSON. -/
  | malformed
  /-- The text does not say what is wanted. -/
  | unfit
  deriving DecidableEq, Repr

namespace Flaw

/-- The kind of a flaw. -/
def kind : Flaw → Kind
  | .unclosedList | .unclosedObject | .unclosedString | .missingValue => .truncated
  | .misfit _ => .unfit
  | _ => .malformed

/-- The sentence that reports a flaw. -/
def message : Flaw → String
  | .unclosedList => "EOF while parsing a list"
  | .unclosedObject => "EOF while parsing an object"
  | .unclosedString => "EOF while parsing a string"
  | .missingValue => "EOF while parsing a value"
  | .expectedColon => "expected `:`"
  | .expectedListComma => "expected `,` or `]`"
  | .expectedObjectComma => "expected `,` or `\x7d`"
  | .expectedWord => "expected ident"
  | .expectedValue => "expected value"
  | .expectedKey => "key must be a string"
  | .invalidEscape => "invalid escape"
  | .invalidNumber => "invalid number"
  | .numberOutOfRange => "number out of range"
  | .controlCharacter => "control character (\\u0000-\\u001F) found while parsing a string"
  | .loneSurrogate => "lone leading surrogate in hex escape"
  | .brokenSurrogate => "unexpected end of hex escape"
  | .trailingComma => "trailing comma"
  | .trailingCharacters => "trailing characters"
  | .misfit text => text

end Flaw

/-- A flaw and its place in bytes. A misfit has no place until its value is read. -/
structure Failure where
  flaw : Flaw
  place : Option Nat
  deriving DecidableEq, Repr

/-- How far a text has been read: the number of bytes, and the characters left. -/
structure Cursor where
  offset : Nat
  rest : List Char
  deriving DecidableEq, Repr

/-- A step of reading, which leaves the cursor where it has come to, also if it fails. -/
abbrev Reading := ExceptT Failure (StateM Cursor)

namespace Reading

variable {α : Type}

/-- Fail with the place where the cursor stands. -/
def failBehind (flaw : Flaw) : Reading α := do
  throw ⟨flaw, some (← get).offset⟩

/-- Fail with the place of the next character. -/
def failAhead (flaw : Flaw) : Reading α := do
  let cursor ← get
  throw ⟨flaw, some (cursor.offset + if cursor.rest.isEmpty then 0 else 1)⟩

/-- Fail because a value is not what is wanted. -/
def failUnfit (text : String) : Reading α := throw ⟨.misfit text, none⟩

/-- Read a value, and place a misfit behind it. -/
def placed (read : Reading α) : Reading α :=
  tryCatch read fun failure => do
    throw { failure with place := some (failure.place.getD (← get).offset) }

/-- The next character. -/
def peek : Reading (Option Char) := do
  return (← get).rest.head?

/-- Pass the next character. -/
def advance : Reading Unit :=
  modify fun cursor =>
    match cursor.rest with
    | [] => cursor
    | c :: rest => ⟨cursor.offset + c.utf8Size, rest⟩

/-- Pass the characters of a class. -/
def passWhile (member : Char → Bool) : Reading (List Char) := do
  let cursor ← get
  let passed := cursor.rest.takeWhile member
  set (⟨cursor.offset + byteLength passed, cursor.rest.dropWhile member⟩ : Cursor)
  return passed

/-- Pass one character of a class and say which it was. Two flaws say what is wrong if
the text ends here or the character is another one. -/
def passOne (member : Char → Bool) (atEnd otherwise : Flaw) : Reading Char := do
  match ← peek with
  | none => failBehind atEnd
  | some c =>
      if member c then do
        advance
        return c
      else failAhead otherwise

/-- Whether a character is a blank between tokens. -/
def isBlank (c : Char) : Bool := c = ' ' || c = '\n' || c = '\t' || c = '\r'

/-- Pass blanks and look at the next character. -/
def peekToken : Reading (Option Char) := do
  let _ ← passWhile isBlank
  peek

/-- Pass the rest of a word. -/
def word : List Char → Reading Unit
  | [] => pure ()
  | expected :: rest => do
      let _ ← passOne (· = expected) .missingValue .expectedWord
      word rest

/-- Read what stands between brackets, and then the closing bracket, in any case. What
is wrong between the brackets counts more. -/
def enclosed (body : Reading α) (close : Reading Unit) : Reading α := fun cursor =>
  let (answer, cursor) := body cursor
  let (closed, cursor) := close cursor
  match answer, closed with
  | .error failure, _ => (.error failure, cursor)
  | .ok _, .error failure => (.error failure, cursor)
  | .ok value, .ok () => (.ok value, cursor)

end Reading

/-- A flaw and its place in a text. -/
structure ReadError where
  flaw : Flaw
  line : Nat
  column : Nat
  deriving DecidableEq, Repr

namespace ReadError

/-- A flaw at a place in bytes. The column counts the bytes before it in its line. -/
def locate (text : List Char) (flaw : Flaw) (place : Nat) : ReadError :=
  let (line, column) := (LineTable.ofText text).position place
  ⟨flaw, line, column - 1⟩

/-- The sentence and the place. -/
def message (error : ReadError) : String :=
  error.flaw.message ++ s!" at line {error.line} column {error.column}"

end ReadError

/-- Read a whole text. -/
def readText {α : Type} (read : Reading α) (text : List Char) : Except ReadError α :=
  let whole : Reading α := do
    let value ← read
    match ← Reading.peekToken with
    | some _ => Reading.failAhead .trailingCharacters
    | none => return value
  match whole ⟨0, text⟩ with
  | (.ok value, _) => .ok value
  | (.error failure, cursor) =>
      .error (.locate text failure.flaw (failure.place.getD cursor.offset))

end Sequencer.Json
