import Sequencer.Text.Unprintable

/-!
# Quoted characters and texts

A quoted character stands between apostrophes, a quoted text between double
quotes. Inside, the closing quote and the backslash follow a backslash, four
controls have a letter of their own, and every other character that is not shown
as itself is written as `\u`, an opening brace, its number in lower-case
hexadecimal, and a closing brace. No line feed is left inside the quotes.
-/

namespace Sequencer.Text

/-- The apostrophe, which encloses a character. -/
def apostrophe : Char := '\x27'

/-- The double quote, which encloses a text. -/
def doubleQuote : Char := '\x22'

/-- How a character is written inside the given quotes. -/
def escape (quote c : Char) : List Char :=
  if c = '\x00' then ['\\', '0']
  else if c = '\t' then ['\\', 't']
  else if c = '\r' then ['\\', 'r']
  else if c = '\n' then ['\\', 'n']
  else if c = quote ∨ c = '\\' then ['\\', c]
  else if isUnprintable c then
    ['\\', 'u', '\x7b'] ++ Nat.toDigits 16 c.toNat ++ ['\x7d']
  else [c]

/-- A character between apostrophes. -/
def quotedChar (c : Char) : String :=
  String.ofList (apostrophe :: escape apostrophe c ++ [apostrophe])

/-- A text between double quotes. -/
def quoted (text : String) : String :=
  String.ofList (doubleQuote :: text.toList.flatMap (escape doubleQuote) ++ [doubleQuote])

end Sequencer.Text
