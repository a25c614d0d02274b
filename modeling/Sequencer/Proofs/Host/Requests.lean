import Sequencer.Host.Embedding
import Sequencer.Proofs.Job.Execution

/-!
# Requests of a host

The native that compiles command lists is given a source, a function that makes errors, and a
function that is told of the outcome. A call fails when it has fewer arguments, when one of the
functions is none, or when the queue of the pool is full, and then it leaves everything as it is
(`Embedding.call_eq_error_iff`). Every other call makes a job and is answered with null.

A host that notes the calls of its functions shows what it is told of a job
(`Callback.tells_of_complete`).
-/

namespace Sequencer

variable {σ : Type}

/-! ## Arguments -/

namespace Native

/-- Arguments that ask for a source to be compiled. Further arguments count for nothing. -/
inductive Asks : List Value → List Char → Callback → Prop where
  | intro (source : Value) (errorClass handler : FunctionId) (further : List Value) :
      Asks (source :: .function errorClass :: .function handler :: further) source.text.toList
        ⟨errorClass, handler⟩

/-- Arguments that ask for nothing, and what is wrong with them. -/
inductive Misuses : List Value → CallError → Prop where
  | few {arguments : List Value} (few : arguments.length < 3) :
      Misuses arguments (.tooFewArguments 3 arguments.length)
  | errorClass (source : Value) {errorClass : Value} (handler : Value) (further : List Value)
      (other : errorClass.function? = none) :
      Misuses (source :: errorClass :: handler :: further)
        (.wrongType ("argument 2 (ParseError) must be a function, got " ++ errorClass.typeName))
  | handler (source : Value) (errorClass : FunctionId) {handler : Value} (further : List Value)
      (other : handler.function? = none) :
      Misuses (source :: .function errorClass :: handler :: further)
        (.wrongType ("argument 3 (callback) must be a function, got " ++ handler.typeName))

/-- Why a call with some arguments fails. -/
inductive Fails (pool : Pool Callback) (arguments : List Value) : CallError → Prop where
  | misuse {error : CallError} (misuses : Misuses arguments error) : Fails pool arguments error
  | full {source : List Char} {callback : Callback} (asks : Asks arguments source callback)
      (full : pool.isFull = true) :
      Fails pool arguments (.refused (.queueFull (pool.bound.getD 0)))

/-- Arguments ask for something, or something is wrong with them. -/
theorem asks_or_misuses (arguments : List Value) :
    (∃ source callback, Asks arguments source callback) ∨ ∃ error, Misuses arguments error := by
  rcases arguments with _ | ⟨source, _ | ⟨errorClass, _ | ⟨handler, further⟩⟩⟩
  · exact .inr ⟨_, .few (by simp)⟩
  · exact .inr ⟨_, .few (by simp)⟩
  · exact .inr ⟨_, .few (by simp)⟩
  · cases errorClass with
    | function errorClass =>
        cases handler with
        | function handler => exact .inl ⟨_, _, .intro source errorClass handler further⟩
        | _ => exact .inr ⟨_, .handler source errorClass further rfl⟩
    | _ => exact .inr ⟨_, .errorClass source handler further rfl⟩

theorem functionArgument_of_none {value : Value} (other : value.function? = none) (position : Nat)
    (role : String) :
    functionArgument value position role = .error (.wrongType
      (s!"argument {position} ({role}) must be a function, got " ++ value.typeName)) := by
  rw [functionArgument, other]

end Native

/-! ## Calls -/

namespace Embedding

open Native

variable (host : Host σ) (limits : Limits) {arguments : List Value} (context : Context σ)

/-- A call with too few arguments fails, and any other one reaches the native. -/
theorem call_parseCommandList :
    (ofHost host limits).call "labctrl.parse_cmdlist" arguments context =
      if arguments.length < 3 then (.error (.tooFewArguments 3 arguments.length), context)
      else parseCommandList host arguments context :=
  rfl

/-- A call with wrong arguments says what is wrong and leaves everything as it is. -/
theorem call_of_misuses {error : CallError} (misuses : Misuses arguments error) :
    (ofHost host limits).call "labctrl.parse_cmdlist" arguments context =
      (.error error, context) := by
  rw [call_parseCommandList]
  cases misuses with
  | few few => rw [if_pos few]
  | errorClass source handler further other =>
      rw [if_neg (by simp), parseCommandList, functionArgument_of_none other]
      rfl
  | handler source errorClass further other =>
      rw [if_neg (by simp), parseCommandList, functionArgument_of_none other]
      rfl

/-- A call that asks for something fails when the queue is full, and then leaves everything as it
is. Otherwise it makes a job and is answered with null. -/
theorem call_of_asks {source : List Char} {callback : Callback}
    (asks : Asks arguments source callback) :
    (ofHost host limits).call "labctrl.parse_cmdlist" arguments context =
      match context.pool.submit source callback with
      | .error refusal => (.error (.refused refusal), context)
      | .ok (_, pool) => (.ok .null, { context with pool }) := by
  rw [call_parseCommandList]
  cases asks with
  | intro source errorClass handler further =>
      rw [if_neg (by simp)]
      rfl

/-- A call that does not fail asks for something, and there is room for its job. -/
theorem exists_asks_of_not_fails {pool : Pool Callback}
    (passes : ∀ error, ¬ Fails pool arguments error) :
    ∃ source callback, Asks arguments source callback ∧ pool.isFull = false := by
  rcases asks_or_misuses arguments with ⟨source, callback, asks⟩ | ⟨error, misuses⟩
  · have room : pool.isFull = false := Bool.eq_false_iff.mpr fun full => passes _ (.full asks full)
    exact ⟨source, callback, asks, room⟩
  · exact absurd (.misuse misuses) (passes error)

theorem call_of_fails {error : CallError} (fails : Fails context.pool arguments error) :
    (ofHost host limits).call "labctrl.parse_cmdlist" arguments context =
      (.error error, context) := by
  cases fails with
  | misuse misuses => exact call_of_misuses host limits context misuses
  | full asks full => rw [call_of_asks host limits context asks, Pool.submit, if_pos full]

/-- A call fails for these reasons and no others, and then it leaves everything as it is. -/
theorem call_eq_error_iff {error : CallError} {next : Context σ} :
    (ofHost host limits).call "labctrl.parse_cmdlist" arguments context = (.error error, next) ↔
      next = context ∧ Fails context.pool arguments error := by
  constructor
  · intro failed
    by_cases fails : ∃ other, Fails context.pool arguments other
    · obtain ⟨other, fails⟩ := fails
      rw [call_of_fails host limits context fails] at failed
      cases failed
      exact ⟨rfl, fails⟩
    · obtain ⟨source, callback, asks, room⟩ := exists_asks_of_not_fails (not_exists.mp fails)
      rw [call_of_asks host limits context asks, Pool.submit, room] at failed
      cases failed
  · rintro ⟨rfl, fails⟩
    exact call_of_fails host limits next fails

end Embedding

/-! ## What a host is told -/

/-- A call of a function of a host. -/
structure HostCall where
  function : FunctionId
  arguments : List Value
  answer : Except CallError Value

/-- A host that notes the calls of its functions. -/
def Host.noting (host : Host σ) : Host (σ × List HostCall) where
  call function arguments := fun (state, calls) =>
    let (answer, after) := host.call function arguments state
    (answer, after, calls ++ [⟨function, arguments, answer⟩])

/-- The arguments from which the class of errors makes an error. -/
def Diagnostic.arguments (diagnostic : Diagnostic) : List Value :=
  [.string diagnostic.message, .string diagnostic.line,
    .integer (.ofNat diagnostic.lineNumber), .integer (.ofNat diagnostic.column),
    .integer (.ofNat diagnostic.rangeStart), .integer (.ofNat diagnostic.rangeStop)]

namespace Callback

/-- What the handler is given when the class of errors has answered. -/
def made : Except CallError Value → Value
  | .ok value => value
  | .error error => .genericError error.message

/-- The calls by which a host is told of a source. There is one call of the handler, whatever it
answers, and one call of the class of errors before it if the source does not compile. The compiler
may crash with a source of `2 ^ 32 - 1` bytes and more, but with no shorter one. -/
inductive Tells (callback : Callback) (limits : Limits) (source : List Char) :
    List HostCall → Prop where
  | frame {compiled : Compiled} {steps : UInt64} {answer : Except CallError Value}
      (compiles : compile? limits source = some (.ok compiled))
      (counted : totalSteps compiled.code = .ok steps) :
      Tells callback limits source
        [⟨callback.handler,
          [.null, .bytes (Frame.encode ⟨.ofSteps steps compiled.ttlMask, compiled.code⟩)],
          answer⟩]
  | error {diagnostic : Diagnostic} {answered answer : Except CallError Value}
      (rejected : compile? limits source = some (.error diagnostic)) :
      Tells callback limits source
        [⟨callback.errorClass, diagnostic.arguments, answered⟩,
          ⟨callback.handler, [made answered], answer⟩]
  | crash {answer : Except CallError Value} (long : 2 ^ 32 - 1 ≤ Text.byteLength source)
      (crashes : compile? limits source = none) :
      Tells callback limits source
        [⟨callback.handler, [.genericError Crash.overflow.message], answer⟩]

/-- For a source that does not compile, the class of errors is called and then the handler. -/
theorem complete_rejected (callback : Callback) (host : Host σ) (diagnostic : Diagnostic)
    (state : σ) :
    callback.complete host (.rejected diagnostic) state =
      let (answered, between) := host.call callback.errorClass diagnostic.arguments state
      ((), (host.call callback.handler [made answered] between).2) := by
  rcases called : host.call callback.errorClass diagnostic.arguments state with
    ⟨answered, between⟩
  unfold Diagnostic.arguments at called
  cases answered with
  | ok value =>
      simp only [complete, Outcome.dispatch, Outcome.deliver, factory, bind, StateT.bind,
        Functor.map, StateT.map, called]
      rfl
  | error error =>
      simp only [complete, Outcome.dispatch, Outcome.deliver, factory, bind, StateT.bind,
        Functor.map, StateT.map, called]
      rfl

/-- Noting its calls changes nothing for a host. -/
theorem exists_complete_noting (callback : Callback) (host : Host σ) (outcome : Outcome)
    (state : σ) :
    ∃ calls, callback.complete host.noting outcome (state, []) =
      ((), (callback.complete host outcome state).2, calls) := by
  cases outcome with
  | success frame => exact ⟨_, rfl⟩
  | rejected diagnostic =>
      rw [complete_rejected, complete_rejected]
      exact ⟨_, rfl⟩
  | failed text => exact ⟨_, rfl⟩

/-- A host is told of what its own source comes to. -/
theorem tells_of_complete {callback : Callback} {host : Host σ} {limits : Limits}
    {source : List Char} {outcome : Outcome} {state after : σ} {calls : List HostCall}
    (executed : execute (.ofLimits limits) source = .ok outcome)
    (completed : callback.complete host.noting outcome (state, []) = ((), after, calls)) :
    callback.Tells limits source calls := by
  rw [execute_ofLimits_eq] at executed
  rcases compiles : compile? limits source with _ | diagnostic | compiled
  · rw [compiles] at executed
    cases executed
    cases completed
    refine .crash ?_ compiles
    by_contra short
    rw [compile?_eq limits (Nat.lt_of_not_le short)] at compiles
    cases compiles
  · rw [compiles] at executed
    cases executed
    rw [complete_rejected] at completed
    cases completed
    exact .error compiles
  · rw [compiles] at executed
    cases counted : totalSteps compiled.code with
    | error fault => simp [counted] at executed
    | ok steps =>
        simp only [counted, Except.ok.injEq] at executed
        subst executed
        cases completed
        exact .frame compiles counted

end Callback

end Sequencer
