import Sequencer.Host.Native

/-!
# The library inside a host

A host holds the library as an embedding: natives under their names, the host that
calls them, and the backend of their jobs. Handlers are called when the host polls or
runs the embedding, in the order in which the outcomes are taken from the pool.
-/

namespace Sequencer

/-- A native and the number of arguments that it needs, if that is checked. -/
structure NativeEntry (σ : Type) where
  arity : Option Nat
  native : Native σ

/-- The natives of a library, the host that calls them, and the backend of its jobs. -/
structure Embedding (σ : Type) where
  host : Host σ
  backend : Backend
  entries : List (String × NativeEntry σ) := []

namespace Embedding

variable {σ : Type}

/-- Put a native under a name in a module. It takes the place of another native there. -/
def register (embedding : Embedding σ) (module name : String) (arity : Option Nat)
    (native : Native σ) : Embedding σ :=
  { embedding with entries := (module ++ "." ++ name, ⟨arity, native⟩) :: embedding.entries }

/-- An embedding with the natives of this library. -/
def ofHost (host : Host σ) (limits : Limits) : Embedding σ :=
  ({ host, backend := .ofLimits limits : Embedding σ }).register "labctrl" "parse_cmdlist" (some 3)
    Native.parseCommandList

/-- The native with a name. -/
def entry? (embedding : Embedding σ) (name : String) : Option (NativeEntry σ) :=
  embedding.entries.lookup name

/-- Whether there is a native with a name. -/
def has (embedding : Embedding σ) (name : String) : Bool := (embedding.entry? name).isSome

/-- Call the native with a name. -/
def call (embedding : Embedding σ) (name : String) (arguments : List Value) :
    StateM (Context σ) (Except CallError Value) := fun context =>
  match embedding.entry? name with
  | none => (.error (.unknownNative name), context)
  | some entry =>
      match entry.arity with
      | none => entry.native embedding.host arguments context
      | some arity =>
          if arguments.length < arity then
            (.error (.tooFewArguments arity arguments.length), context)
          else entry.native embedding.host arguments context

/-- Give outcomes to their handlers, one after the other. -/
def complete (embedding : Embedding σ) (delivered : List (Callback × Outcome)) : StateM σ Unit :=
  delivered.forM fun (callback, outcome) => callback.complete embedding.host outcome

/-- Take completions from the pool and call handlers. The answer is the number of jobs,
or the crash that ended it. -/
def takeWith (embedding : Embedding σ) (take : Pool Callback → Drained Callback) :
    StateM (Context σ) (Except Crash Nat) := fun context =>
  let drained := take context.pool
  let ((), state) := embedding.complete drained.delivered context.state
  let answer := match drained.crash with
    | some crash => .error crash
    | none => .ok drained.count
  (answer, { pool := drained.pool, state })

/-- Call the handlers of the jobs that are completed. -/
def poll (embedding : Embedding σ) : StateM (Context σ) (Except Crash Nat) :=
  embedding.takeWith Pool.drain

/-- Call the handlers of all jobs. -/
def runUntilIdle (embedding : Embedding σ) : StateM (Context σ) (Except Crash Nat) :=
  embedding.takeWith (Pool.runUntilIdle embedding.backend)

/-- Call the handlers of all jobs for the last time. -/
def shutDown (embedding : Embedding σ) : StateM (Context σ) (Except Crash Nat) :=
  embedding.takeWith (Pool.shutDown embedding.backend)

end Embedding

end Sequencer
