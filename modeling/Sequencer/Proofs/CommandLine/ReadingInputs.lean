import Sequencer.Proofs.CommandLine.CompileAll
import Sequencer.Proofs.CommandLine.FramePlaces

/-!
# Reading inputs

In a world, tasks are functions that can be evaluated step by step. Those that read inputs change no
file, and they come to reports only where every input can be read.
-/

namespace Sequencer

namespace Setting

/-- Tasks are carried out in a world. -/
def inWorld (settings : Settings) (colored : Bool) : Setting (StateM World) :=
  ⟨World.workspace, settings, colored⟩

@[simp]
theorem workspace_inWorld (settings : Settings) (colored : Bool) :
    (inWorld settings colored).workspace = World.workspace :=
  rfl

/-! ## Acts -/

section

variable {α β : Type}

theorem bind_apply (act : Act (StateM World) α) (next : α → Act (StateM World) β) (world : World) :
    (act >>= next) world =
      match act world with
      | (.ok value, later) => next value later
      | (.error error, later) => (.error error, later) := by
  change ExceptT.bindCont next (act world).1 (act world).2 = _
  rcases act world with ⟨error | value, later⟩
  · rfl
  · rfl

theorem orFail_apply {φ : Type} (failure : φ → TaskError) (answer : StateM World (Except φ α))
    (world : World) :
    orFail failure answer world = ((answer world).1.mapError failure, (answer world).2) :=
  rfl

end

variable {settings : Settings} {colored : Bool}

theorem isPresent_apply (path : Path) (world : World) :
    (liftM ((inWorld settings colored).workspace.isPresent path) : Act (StateM World) Bool) world =
      (.ok (world.tree.isPresent path), world) :=
  rfl

theorem clock_apply (world : World) :
    (liftM (inWorld settings colored).workspace.clock : Act (StateM World) Nat) world =
      (.ok world.time, world) :=
  rfl

variable {input : Input} {inputs : List Input} {world later : World}

/-! ## Reading -/

theorem textOf_keeps {failure : IOFault → TaskError} {bytes : List UInt8}
    {result : Except TaskError (List Char)}
    (read : (textOf failure bytes : Act (StateM World) (List Char)) world = (result, later)) :
    later = world := by
  unfold textOf at read
  cases decoded : Text.Utf8.decode? bytes with
  | none =>
      rw [decoded] at read
      cases read
      rfl
  | some text =>
      rw [decoded] at read
      cases read
      rfl

/-- Reading a source changes no file, and succeeds only where there is something to read. -/
theorem readSource_keeps {result : Except TaskError (List Char)}
    (read : (inWorld settings colored).readSource input world = (result, later)) :
    later.tree = world.tree ∧ ∀ source, result = .ok source → world.tree.Holds input := by
  cases input with
  | standardInput =>
      have rest : (textOf .readingInput world.input : Act (StateM World) (List Char))
          { world with input := [] } = (result, later) := read
      rw [textOf_keeps rest]
      exact ⟨rfl, fun _ _ => trivial⟩
  | file path =>
      unfold readSource at read
      simp only [bind_apply, orFail_apply, workspace_inWorld, World.workspace, World.look] at read
      cases found : World.readFile path world.tree with
      | error fault =>
          rw [found] at read
          cases read
          exact ⟨rfl, by simp⟩
      | ok bytes =>
          rw [found] at read
          have same : later = world := textOf_keeps read
          obtain ⟨place, filed⟩ := FileTree.readFile_eq_ok_iff.mp found
          rw [same]
          exact ⟨rfl, fun _ _ => ⟨place, bytes, filed⟩⟩

theorem compileOne_keeps {result : Except TaskError Report}
    (read : (inWorld settings colored).compileOne input world = (result, later)) :
    later.tree = world.tree ∧ ∀ report, result = .ok report →
      report.input = input ∧ world.tree.Holds report.input := by
  unfold compileOne at read
  rw [bind_apply] at read
  rcases first : (inWorld settings colored).readSource input world with ⟨error | source, next⟩
  · rw [first] at read
    cases read
    exact ⟨(readSource_keeps first).1, by simp⟩
  · rw [first] at read
    cases read
    obtain ⟨same, holds⟩ := readSource_keeps first
    refine ⟨same, ?_⟩
    rintro report reported
    cases reported
    exact ⟨rfl, holds source rfl⟩

/-- Reading inputs changes no file, and there are reports only if all can be read. -/
theorem mapM_compileOne_keeps {result : Except TaskError (List Report)}
    (read : (inputs.mapM (inWorld settings colored).compileOne) world = (result, later)) :
    later.tree = world.tree ∧ ∀ reports, result = .ok reports →
      reports.map Report.input = inputs ∧ ∀ report ∈ reports, world.tree.Holds report.input := by
  induction inputs generalizing world later result with
  | nil =>
      cases read
      refine ⟨rfl, ?_⟩
      rintro reports same
      cases same
      simp
  | cons input inputs inductionHypothesis =>
      rw [List.mapM_cons, bind_apply] at read
      rcases first : (inWorld settings colored).compileOne input world with ⟨error | report, next⟩
      · rw [first] at read
        cases read
        exact ⟨(compileOne_keeps first).1, by simp⟩
      · obtain ⟨same, one⟩ := compileOne_keeps first
        obtain ⟨named, held⟩ := one report rfl
        rw [first] at read
        simp only [bind_apply] at read
        rcases others : (inputs.mapM (inWorld settings colored).compileOne) next with
          ⟨error | reports, last⟩
        · rw [others] at read
          cases read
          exact ⟨(inductionHypothesis others).1.trans same, by simp⟩
        · obtain ⟨kept, all⟩ := inductionHypothesis others
          obtain ⟨names, hold⟩ := all reports rfl
          rw [others] at read
          cases read
          refine ⟨kept.trans same, ?_⟩
          rintro every reported
          cases reported
          rw [same] at hold
          exact ⟨by rw [List.map_cons, named, names], List.forall_mem_cons.mpr ⟨held, hold⟩⟩

end Setting

end Sequencer
