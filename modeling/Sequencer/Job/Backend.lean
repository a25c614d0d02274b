import Sequencer.Compiler
import Sequencer.Instruction.Decoding
import Sequencer.Job.Outcome

/-!
# Executing jobs

A backend compiles command lists and counts the clock steps of compiled code. Both
may crash. A crash of the compiler is an outcome like any other failure; code that
the compiler has made and whose steps cannot be counted breaks the contract of a
backend, so then the job crashes and has no outcome.
-/

namespace Sequencer

/-- An abrupt end, with a sentence if there is one. -/
structure Crash where
  text : Option String
  deriving DecidableEq, Repr, Inhabited

namespace Crash

/-- The crash over a sum that is no word. -/
def overflow : Crash := ⟨some "attempt to add with overflow"⟩

/-- The sentence of a crash, or nothing. -/
def message (crash : Crash) : String := crash.text.getD ""

/-- The crash over code whose steps cannot be counted. -/
def brokenContract (fault : Fault) : Crash :=
  ⟨some ("contract violation: duration estimator rejected compiler output: " ++ fault.message)⟩

end Crash

/-- A compiler and the estimator of the duration of its code. -/
structure Backend where
  compile : List Char → Except Crash (Except CompileFailure Compiled)
  totalSteps : List UInt8 → Except Crash (Except Fault UInt64)

/-- The backend with the compiler of this library. The compiler crashes where it comes to nothing in
words, which does not happen with a source shorter than `2 ^ 32 - 1` bytes
(`Backend.compile_ofLimits`). -/
def Backend.ofLimits (limits : Limits) : Backend where
  compile source :=
    match compile? limits source with
    | none => .error .overflow
    | some compiled => .ok (compiled.mapError .located)
  totalSteps code := .ok (Sequencer.totalSteps code)

namespace Outcome

/-- The failure that a sentence describes. A sentence that holds nothing is replaced. -/
def ofText (text : String) : Outcome :=
  .failed (if text.isEmpty then CompileFailure.unknownText else text)

/-- The outcome of a job whose command list cannot be compiled. -/
def ofFailure : CompileFailure → Outcome
  | .located diagnostic => .rejected diagnostic
  | .message text => .ofText text
  | .unknown => .ofText ""

end Outcome

/-- Compile a command list, count its steps, and frame its code. -/
def execute (backend : Backend) (source : List Char) : Except Crash Outcome :=
  match backend.compile source with
  | .error crash => .ok (.ofText crash.message)
  | .ok (.error failure) => .ok (.ofFailure failure)
  | .ok (.ok compiled) =>
      match backend.totalSteps compiled.code with
      | .error crash => .error crash
      | .ok (.error fault) => .error (.brokenContract fault)
      | .ok (.ok steps) => .ok (.success ⟨.ofSteps steps compiled.ttlMask, compiled.code⟩)

end Sequencer
