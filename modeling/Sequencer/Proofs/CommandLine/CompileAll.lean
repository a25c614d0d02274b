import Mathlib.Control.Basic
import Sequencer.CommandLine.Tasks
import Sequencer.Proofs.Pool.BatchResult

/-!
# Compiling inputs

Inputs that are compiled together are compiled as if each were alone. There is a report for each, in
the order of the inputs, and it says what its own source comes to (`Setting.compilesInOrder`).
-/

namespace Sequencer

/-! ## Sources -/

/-- No source crashes with the compiler of this library. -/
theorem map_execute_ofLimits (limits : Limits) (sources : List (List Char)) :
    sources.map (execute (.ofLimits limits)) = (sources.map (Outcome.ofSource limits)).map .ok := by
  rw [List.map_map]
  apply List.map_congr_left
  intro source _
  exact execute_ofLimits_eq_ok limits source

/-! ## Reports -/

/-- Going through values and combining each with what came of it is one pass. -/
theorem mapM_bind_zipWith {m : Type → Type} [Monad m] [LawfulMonad m] {α β γ : Type}
    (act : α → m β) (combine : α → β → γ) (values : List α) :
    (do
      let results ← values.mapM act
      return values.zipWith combine results) =
    values.mapM fun value => do
      let result ← act value
      return combine value result := by
  induction values with
  | nil => simp
  | cons value values inductionHypothesis =>
      simp only [List.mapM_cons, bind_assoc, pure_bind, List.zipWith_cons_cons]
      apply bind_congr
      intro result
      rw [← inductionHypothesis]
      simp

/-- The report of an input with a source. -/
def Report.ofSource (limits : Limits) (input : Input) (source : List Char) : Report :=
  ⟨input, (Outcome.ofSource limits source).delivered⟩

namespace Setting

variable {m : Type → Type} [Monad m]

/-- Compile an input alone. -/
def compileOne (setting : Setting m) (input : Input) : Act m Report := do
  let source ← setting.readSource input
  return .ofSource setting.settings.compiler input source

/-- The batch adds no errors to those of reading the inputs, and keeps their reports in order. -/
theorem compileAll_eq_mapM [LawfulMonad m] (setting : Setting m) (inputs : List Input) :
    setting.compileAll inputs = inputs.mapM setting.compileOne := by
  have compiled (sources : List (List Char)) (workers : Nat) (bound : Option Nat) :=
    Batch.compile_eq_ok (map_execute_ofLimits setting.settings.compiler sources) workers bound
  unfold compileAll
  simp only [compiled, List.zipWith_map_right]
  exact mapM_bind_zipWith setting.readSource (Report.ofSource setting.settings.compiler) inputs

/-- What holds of inputs that are compiled together. -/
structure CompilesInOrder (setting : Setting m) (inputs : List Input) : Prop where
  /-- There is a report for each input, in their order, and it is the one that the input would get
  if it were compiled alone. The batch adds no errors to those of reading the inputs. -/
  reports : setting.compileAll inputs = inputs.mapM setting.compileOne
  /-- Any number of workers, any bound of the queue and any order in which the owner and the workers
  act end with the outcomes of the sources, in their order. -/
  schedules : ∀ (workers : Nat) (bound : Option Nat) (sources : List (List Char)),
    HappensWithin (Batch.Step (.ofLimits setting.settings.compiler) sources)
      (fun _ later => later.plan = .collect ∧
        Batch.outcomes later.delivered sources.length =
          .ok (sources.map (Outcome.ofSource setting.settings.compiler)))
      (22 * sources.length + max workers 1 + 5) (.start workers bound)

/-- Inputs that are compiled together are compiled as if each were alone. -/
theorem compilesInOrder [LawfulMonad m] (setting : Setting m) (inputs : List Input) :
    CompilesInOrder setting inputs where
  reports := setting.compileAll_eq_mapM inputs
  schedules workers bound sources :=
    Batch.happensWithin (map_execute_ofLimits setting.settings.compiler sources) workers bound

/-- Two inputs share a worker and a queue with room for one. The second one does not compile. -/
theorem compilesInOrder_world :
    CompilesInOrder ⟨World.workspace, { pool := { workers := some 1, queueBound := some 0 } }, false⟩
      [.file (.ofText "b"), .file (.ofText "a")] ∧
    ((compileAll ⟨World.workspace, { pool := { workers := some 1, queueBound := some 0 } }, false⟩
        [.file (.ofText "b"), .file (.ofText "a")]
        { tree := ⟨[(["a"], .file [120]), (["b"], .file [119, 97, 105, 116, 40, 49, 41])]⟩ }).1.map
      (List.map Report.isSuccess)) = .ok [true, false] := by
  have inOrder := compilesInOrder
    ⟨World.workspace, { pool := { workers := some 1, queueBound := some 0 } }, false⟩
    [.file (.ofText "b"), .file (.ofText "a")]
  refine ⟨inOrder, ?_⟩
  rw [inOrder.reports]
  decide +kernel

end Setting

end Sequencer
