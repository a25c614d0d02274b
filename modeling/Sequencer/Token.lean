/-!
# Tokens of a command list

A command list is written with words, unsigned integers, four marks and line
ends. A reader that has used up the source sees the end of input, as often as it
asks.
-/

namespace Sequencer

/-- What a lexeme of a command list is. -/
inductive Token where
  | endOfInput
  | endOfLine
  | word (name : String)
  | number (value : Nat)
  | leftParen
  | rightParen
  | equals
  | semicolon
  deriving DecidableEq, Repr, Inhabited

/-- A text between backquotes. -/
def backquoted (text : String) : String := "`" ++ text ++ "`"

/-- How a message names a token. -/
def Token.describe : Token → String
  | .endOfInput => "end of input"
  | .endOfLine => "end of line"
  | .word name => backquoted name
  | .number value => backquoted (toString value)
  | .leftParen => backquoted "("
  | .rightParen => backquoted ")"
  | .equals => backquoted "="
  | .semicolon => backquoted ";"

/-- Whether a token ends a statement and is passed over between statements. -/
def Token.isSeparator : Token → Bool
  | .endOfLine => true
  | .semicolon => true
  | _ => false

theorem Token.ne_endOfInput_of_isSeparator {token : Token} (separator : token.isSeparator) :
    token ≠ .endOfInput := by
  rintro rfl
  simp [isSeparator] at separator

end Sequencer
