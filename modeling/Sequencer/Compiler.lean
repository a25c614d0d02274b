import Sequencer.Command.Parser
import Sequencer.Diagnostic
import Sequencer.Instruction.Encoding

/-!
# Compiling command lists

A command list is compiled to its code and to the mask of the TTL lines that it
drives. A list that cannot be read is reported by a diagnostic of its first error.
Other compilers may fail without a place to show; they have a sentence at best.
-/

namespace Sequencer

/-- What a compiler makes of a command list. -/
structure Compiled where
  code : List UInt8
  ttlMask : UInt32
  deriving DecidableEq, Repr, Inhabited

/-- Why a command list cannot be compiled. -/
inductive CompileFailure where
  /-- An error with a place in the source. -/
  | located (diagnostic : Diagnostic)
  /-- An error that a sentence describes. -/
  | message (text : String)
  /-- An error of which nothing is known. -/
  | unknown
  deriving DecidableEq, Repr

namespace CompileFailure

/-- The sentence for an error of which nothing is known. -/
def unknownText : String := "Unknown parser error"

/-- An error that a sentence describes, if the sentence holds anything. -/
def ofText (text : String) : CompileFailure :=
  if text.isEmpty then .unknown else .message text

/-- The sentence that reports a failure. -/
def text : CompileFailure → String
  | .located diagnostic => "syntax error: " ++ diagnostic.text
  | .message text => text
  | .unknown => unknownText

end CompileFailure

/-- The diagnostic of a parse error in a source. -/
def ParseError.diagnostic (error : ParseError) (source : List Char) : Diagnostic :=
  Diagnostic.locate source error.message error.span error.highlight

/-- The diagnostic of a parse error, found in words. -/
def ParseError.diagnostic? (error : ParseError) (source : List Char) : Option Diagnostic :=
  Diagnostic.locate? source error.message error.span error.highlight

/-- Compile instructions. -/
def Program.compile (instructions : List Instruction) : Compiled :=
  ⟨Program.encode instructions, Program.ttlMask instructions⟩

/-- Compile a command list. All places are exact; `compile?` keeps them in words, which makes no
difference for a source shorter than `2 ^ 32 - 1` bytes. Longer ones are outside of what this
models. -/
def compile (limits : Limits) (source : List Char) : Except Diagnostic Compiled :=
  match Program.ofText limits source with
  | .error error => .error (error.diagnostic source)
  | .ok statements => .ok (Program.compile (statements.map Statement.toInstruction))

/-- Compile a command list with places in words. It comes to nothing where a place is no word. -/
def compile? (limits : Limits) (source : List Char) : Option (Except Diagnostic Compiled) := do
  match ← Program.ofText? limits source with
  | .error error => (error.diagnostic? source).map .error
  | .ok statements => some (.ok (Program.compile (statements.map Statement.toInstruction)))

end Sequencer
