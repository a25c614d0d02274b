import Sequencer.Job.Outcome

/-!
# Delivering outcomes

The outcome of a job is handed to its handler once. An error is made by a factory
that the submitter chooses: it is given the six fields of a diagnostic, or a
sentence alone. Factories and handlers may act, so all this takes place in a monad.
-/

namespace Sequencer

/-- How the errors that a handler is given are made. -/
structure ErrorFactory (m : Type → Type) (ε : Type) where
  /-- An error from the sentence, the line, the number of the line, the column, and
  the ends of the range of columns of a diagnostic. -/
  located : String → String → Nat → Nat → Nat → Nat → m ε
  /-- An error from a sentence alone. -/
  generic : String → m ε

namespace Outcome

variable {m : Type → Type} {ε : Type} [Monad m]

/-- What a handler is given for an outcome. -/
def deliver (factory : ErrorFactory m ε) : Outcome → m (Except ε Frame)
  | .success frame => pure (.ok frame)
  | .rejected diagnostic =>
      .error <$> factory.located diagnostic.message diagnostic.line diagnostic.lineNumber
        diagnostic.column diagnostic.rangeStart diagnostic.rangeStop
  | .failed text => .error <$> factory.generic text

/-- Hand an outcome to a handler. -/
def dispatch (factory : ErrorFactory m ε) (handler : Except ε Frame → m Unit)
    (outcome : Outcome) : m Unit :=
  outcome.deliver factory >>= handler

end Outcome

/-- The errors that are made when the submitter chooses no factory. -/
inductive DeliveredError where
  | located (diagnostic : Diagnostic)
  | generic (text : String)
  deriving DecidableEq, Repr

namespace DeliveredError

/-- The sentence of an error. -/
def text : DeliveredError → String
  | .located diagnostic => diagnostic.message
  | .generic text => text

/-- The factory that puts the fields of a diagnostic together again. -/
def factory : ErrorFactory Id DeliveredError where
  located message line lineNumber column rangeStart rangeStop :=
    .located
      ({ message, line, lineNumber, column : Diagnostic }.withRange rangeStart rangeStop)
  generic text := .generic text

end DeliveredError

/-- What a handler is given when the submitter chooses no factory. -/
def Outcome.delivered (outcome : Outcome) : Except DeliveredError Frame :=
  (outcome.deliver DeliveredError.factory).run

end Sequencer
