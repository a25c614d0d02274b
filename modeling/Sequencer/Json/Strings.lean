import Sequencer.Json.Reading

/-!
# Strings in JSON text

A string is read up to its closing quote. Characters outside the first plane may be
escaped as two surrogates; one surrogate alone is refused. Strings that nobody asks
for are passed, and then surrogates are not looked at.
-/

namespace Sequencer.Json.Reading

open Sequencer.Text

/-- The value of a hexadecimal digit. -/
def hexValue? (c : Char) : Option Nat :=
  if '0' ≤ c ∧ c ≤ '9' then some (c.toNat - '0'.toNat)
  else if 'a' ≤ c ∧ c ≤ 'f' then some (c.toNat - 'a'.toNat + 10)
  else if 'A' ≤ c ∧ c ≤ 'F' then some (c.toNat - 'A'.toNat + 10)
  else none

/-- The number that four hexadecimal digits at the start of a text give. -/
def fourDigits? (text : List Char) : Option Nat :=
  match (text.take 4).mapM hexValue? with
  | some [a, b, c, d] => some (((a * 16 + b) * 16 + c) * 16 + d)
  | _ => none

/-- Read the four digits of an escape. They are taken as four bytes, whatever they are. -/
def escapeUnit : Reading Nat := do
  let cursor ← get
  match fourDigits? cursor.rest with
  | some unit =>
      set (⟨cursor.offset + 4, cursor.rest.drop 4⟩ : Cursor)
      return unit
  | none =>
      let left := byteLength cursor.rest
      if left < 4 then throw ⟨.unclosedString, some (cursor.offset + left)⟩
      else throw ⟨.invalidEscape, some (cursor.offset + 4)⟩

/-- Whether a unit is the first of two surrogates. -/
def isHighSurrogate (unit : Nat) : Bool := 0xD800 ≤ unit && unit ≤ 0xDBFF

/-- Whether a unit is the second of two surrogates. -/
def isLowSurrogate (unit : Nat) : Bool := 0xDC00 ≤ unit && unit ≤ 0xDFFF

/-- Pass a character that has to stand between two surrogates. -/
def betweenSurrogates (expected : Char) : Reading Unit := do
  let _ ← passOne (· = expected) .unclosedString .brokenSurrogate

/-- Read the character that an escape of digits stands for. -/
def escapedUnits : Reading Char := do
  let unit ← escapeUnit
  if isLowSurrogate unit then failBehind .loneSurrogate
  else if isHighSurrogate unit then
    betweenSurrogates '\\'
    betweenSurrogates 'u'
    let second ← escapeUnit
    if isLowSurrogate second then
      return Char.ofNat ((unit - 0xD800) * 0x400 + (second - 0xDC00) + 0x10000)
    else failBehind .loneSurrogate
  else return Char.ofNat unit

/-- The character that a letter behind a backslash stands for. -/
def escapeLetter? (c : Char) : Option Char :=
  match c with
  | '\x22' => some '\x22'
  | '\\' => some '\\'
  | '/' => some '/'
  | 'b' => some '\x08'
  | 'f' => some '\x0c'
  | 'n' => some '\n'
  | 'r' => some '\r'
  | 't' => some '\t'
  | _ => none

/-- Read what stands behind a backslash, where digits are read in a given way. -/
def escape {α : Type} (letter : Char → α) (digits : Reading α) : Reading α := do
  let c ← passOne (fun c => c = 'u' || (escapeLetter? c).isSome) .unclosedString .invalidEscape
  if c = 'u' then digits else return letter ((escapeLetter? c).getD c)

/-- Whether a character stands for itself in a string. -/
def isPlain (c : Char) : Bool := c ≠ '\x22' && c ≠ '\\' && 0x20 ≤ c.toNat

/-- Read a string behind its opening quote. The number bounds the escapes in it. -/
def stringWithin : Nat → Reading (List Char)
  | 0 => failBehind .unclosedString
  | escapes + 1 => do
      let plain ← passWhile isPlain
      let c ← passOne (fun c => c = '\x22' || c = '\\') .unclosedString .controlCharacter
      if c = '\x22' then return plain
      else
        let escaped ← escape id escapedUnits
        return plain ++ escaped :: (← stringWithin escapes)

/-- Read a string behind its opening quote. -/
def string : Reading String := do
  return String.ofList (← stringWithin ((← get).rest.length + 1))

/-- Pass a string behind its opening quote. The number bounds the escapes in it. -/
def passStringWithin : Nat → Reading Unit
  | 0 => failBehind .unclosedString
  | escapes + 1 => do
      let _ ← passWhile isPlain
      match ← peek with
      | none => failBehind .unclosedString
      | some '\x22' => advance
      | some '\\' =>
          advance
          escape (fun _ => ()) do
            let _ ← escapeUnit
          passStringWithin escapes
      | some _ => failBehind .controlCharacter

/-- Pass a string behind its opening quote. -/
def passString : Reading Unit := do
  passStringWithin ((← get).rest.length + 1)

end Sequencer.Json.Reading
