import Sequencer.Proofs.CommandLine.ReadingInputs

/-!
# Compiling beside sources

Nothing is written unless every place for a frame is free, so no file that was there is lost. But
that is asked only once, in the beginning: a frame replaces one that was written to the same place
just before (`Setting.compilesBeside`).
-/

namespace Sequencer

namespace Setting

variable {settings : Settings} {colored : Bool} {inputs : List Input} {world : World}

/-! ## Guarding -/

theorem guardTarget_apply (path : Path) (world : World) :
    (inWorld settings colored).guardTarget false (some path) world =
      (if world.tree.isPresent path then .error (.targetPresent path) else .ok (), world) := by
  simp only [guardTarget, bind_apply, isPresent_apply]
  cases world.tree.isPresent path <;> rfl

/-- The first target that is taken ends the task. -/
theorem forM_guardTarget (inputs : List Input) (world : World) :
    ((inputs.map Output.besideSource.target?).forM ((inWorld settings colored).guardTarget false))
        world =
      match inputs.find? fun input => world.tree.isPresent input.framePath with
      | some input => (.error (.targetPresent input.framePath), world)
      | none => (.ok (), world) := by
  induction inputs with
  | nil => rfl
  | cons input inputs inductionHypothesis =>
      rw [List.map_cons, List.forM, bind_apply, Output.target?_besideSource, guardTarget_apply,
        List.find?_cons]
      cases world.tree.isPresent input.framePath with
      | true => rfl
      | false => exact inductionHypothesis

/-! ## Writing -/

variable (settings colored) (task : CompileTask) {report : Report} {reports : List Report}

theorem exists_writeFrame_eq {path : Path} {place : List String} (makeDirectories : Bool)
    (input : Input) (frame : Frame) (takes : world.tree.Takes path place) :
    ∃ later, (inWorld settings colored).writeFrame makeDirectories input frame (some path) world =
        (.ok (), later) ∧ world.tree.GainsFile place frame.encode later.tree := by
  obtain ⟨tree, replaced, gains⟩ := World.exists_replace_eq takes frame.encode
  refine ⟨((inWorld settings colored).tell .compiled
    s!"{input.text} -> {path.text} ({frame.header.duration} ns)" { world with tree }).2, ?_, gains⟩
  unfold writeFrame
  cases makeDirectories with
  | false =>
      simp only [Bool.false_eq_true, if_false, bind_apply, orFail_apply, workspace_inWorld,
        replaced]
      rfl
  | true =>
      obtain ⟨around, parent⟩ := takes.exists_parent?
      cases given : around.isEmpty with
      | true =>
          simp only [if_true, parent, given, Bool.not_true, Bool.false_eq_true, if_false,
            bind_apply, orFail_apply, workspace_inWorld, replaced]
          rfl
      | false =>
          have made := World.createAll_eq takes parent given
          simp only [if_true, parent, given, Bool.not_false, bind_apply, orFail_apply,
            workspace_inWorld, made, Except.mapError, replaced]
          rfl

theorem exists_settleReport_eq
    (takes : report.isSuccess → ∃ place, world.tree.Takes report.input.framePath place) :
    ∃ later,
      (inWorld settings colored).settleReport task report (some report.input.framePath) world =
        (.ok (), later) ∧ world.tree.GainsFrames [report] later.tree := by
  unfold settleReport
  cases result : report.result with
  | error error => exact ⟨_, rfl, .of_error result world.tree⟩
  | ok frame =>
      obtain ⟨place, taken⟩ := takes (Report.isSuccess_iff.mpr ⟨frame, result⟩)
      obtain ⟨later, wrote, gains⟩ :=
        exists_writeFrame_eq settings colored task.makeDirectories report.input frame taken
      exact ⟨later, wrote, .of_ok result taken gains⟩

/-- The frames are written one after the other. -/
theorem exists_forM_settleReport_eq
    (takes : ∀ report ∈ reports, report.isSuccess →
      ∃ place, world.tree.Takes report.input.framePath place) :
    ∃ later,
      ((reports.zip (reports.map fun report : Report => some report.input.framePath)).forM
          (fun (report, target) => (inWorld settings colored).settleReport task report target) :
          Act (StateM World) Unit) world = (.ok (), later) ∧
      world.tree.GainsFrames reports later.tree := by
  induction reports generalizing world with
  | nil => exact ⟨world, rfl, .nil world.tree⟩
  | cons report reports inductionHypothesis =>
      obtain ⟨next, settled, first⟩ :=
        exists_settleReport_eq settings colored task (takes report List.mem_cons_self)
      have left : ∀ report ∈ reports, report.isSuccess →
          ∃ place, world.tree.Takes report.input.framePath place :=
        fun report listed => takes report (List.mem_cons_of_mem _ listed)
      obtain ⟨later, wrote, rest⟩ := inductionHypothesis fun report listed success => by
        obtain ⟨place, taken⟩ := left report listed success
        exact ⟨place, first.paths _ _ taken⟩
      refine ⟨later, ?_, first.cons left rest⟩
      simp only [List.map_cons, List.zip_cons_cons, List.forM, bind_apply]
      rw [settled]
      exact wrote

/-! ## Compiling -/

/-- What becomes of the frames of some reports, and of all else that lies in a tree. -/
structure FramesBeside (before : FileTree) (reports : List Report) (after : FileTree) : Prop where
  /-- What lay in the tree still lies there. -/
  kept : ∀ place, before.get? place ≠ none → after.get? place = before.get? place
  /-- All that is new is the frame of an input, and lies where that belongs. -/
  made : ∀ place, before.get? place = none → after.get? place ≠ none →
    ∃ report ∈ reports, ∃ frame, report.result = .ok frame ∧
      before.resolve report.input.framePath = .ok (.missing place) ∧
      after.get? place = some (.file frame.encode)
  /-- Nothing lies where no frame of an input that compiles belongs. -/
  spared : ∀ report ∈ reports,
    (∀ other ∈ reports, other.isSuccess →
      before.resolve other.input.framePath ≠ before.resolve report.input.framePath) →
    after.isPresent report.input.framePath = false
  /-- Every input that compiles finds its own frame beside it, exactly if none with the same target
  has another frame. -/
  own : (∀ report ∈ reports, ∀ frame, report.result = .ok frame →
      World.readFile report.input.framePath after = .ok frame.encode) ↔
    before.FramesAgree reports

/-- What a task does that writes frames beside their sources and may not replace files. -/
structure CompilesBeside (settings : Settings) (colored : Bool) (task : CompileTask)
    (world : World) : Prop where
  /-- If something lies where a frame belongs, the task ends there and changes nothing. -/
  refused : ∀ input,
    ((inputsOr task.inputs).find? fun input => world.tree.isPresent input.framePath) = some input →
    (inWorld settings colored).compile task world = (.error (.targetPresent input.framePath), world)
  /-- If an input cannot be read, the task ends there and no file changes. -/
  unread : ∀ error later,
    (∀ input ∈ inputsOr task.inputs, world.tree.isPresent input.framePath = false) →
    ((inputsOr task.inputs).mapM (inWorld settings colored).compileOne) world =
      (.error error, later) →
    (inWorld settings colored).compile task world = (.error error, later) ∧ later.tree = world.tree
  /-- Else it tells whether all inputs compile, and their frames are written. -/
  written : ∀ reports next,
    (∀ input ∈ inputsOr task.inputs, world.tree.isPresent input.framePath = false) →
    ((inputsOr task.inputs).mapM (inWorld settings colored).compileOne) world =
      (.ok reports, next) →
    ∃ code later, (inWorld settings colored).compile task world = (.ok code, later) ∧
      (code = 0 ↔ ∀ report ∈ reports, report.isSuccess) ∧ code ≤ 1 ∧
      FramesBeside world.tree reports later.tree

theorem find?_isPresent_eq_none
    (absent : ∀ input ∈ inputs, world.tree.isPresent input.framePath = false) :
    (inputs.find? fun input => world.tree.isPresent input.framePath) = none := by
  simpa using absent

/-- The time is told after all else. -/
theorem exists_tell_time_eq (timed : Bool) (text : String) (code : Nat) (world : World) :
    ∃ later, (if timed = true then do
        (inWorld settings colored).tell .timed text
        pure code
      else pure code : Act (StateM World) Nat) world = (.ok code, later) ∧
        later.tree = world.tree := by
  cases timed with
  | false => exact ⟨world, rfl, rfl⟩
  | true => exact ⟨_, rfl, rfl⟩

/-- Inputs that can be read have places for their frames, which are written if these are free. -/
theorem exists_compile_eq {task : CompileTask} {next : World}
    (beside : task.output = .besideSource) (careful : task.overwrite = false)
    (absent : ∀ input ∈ inputsOr task.inputs, world.tree.isPresent input.framePath = false)
    (read : ((inputsOr task.inputs).mapM (inWorld settings colored).compileOne) world =
      (.ok reports, next)) :
    ∃ later, (inWorld settings colored).compile task world =
        (.ok (Report.exitCode reports), later) ∧
      world.tree.GainsFrames reports later.tree ∧
      ∀ report ∈ reports, ∃ place,
        world.tree.Takes report.input.framePath place ∧ world.tree.get? place = none := by
  obtain ⟨unchanged, all⟩ := mapM_compileOne_keeps read
  obtain ⟨named, held⟩ := all reports rfl
  have places (report : Report) (listed : report ∈ reports) : ∃ place,
      world.tree.Takes report.input.framePath place ∧ world.tree.get? place = none := by
    apply (held report listed).exists_takes
    apply absent
    rw [← named]
    exact List.mem_map_of_mem listed
  have takes (report : Report) (listed : report ∈ reports) (_ : report.isSuccess) :
      ∃ place, next.tree.Takes report.input.framePath place := by
    obtain ⟨place, takes, -⟩ := places report listed
    exact ⟨place, unchanged ▸ takes⟩
  obtain ⟨last, wrote, gains⟩ := exists_forM_settleReport_eq settings colored task takes
  -- The reports are in the order of the inputs, so each meets the target of its own input.
  have targets : (inputsOr task.inputs).map Output.besideSource.target? =
      reports.map fun report => some report.input.framePath := by
    rw [← named, List.map_map]
    apply List.map_congr_left
    intro report _
    exact Output.target?_besideSource report.input
  obtain ⟨later, told, same⟩ := exists_tell_time_eq settings colored task.time
    s!"compile: {next.time - world.time} ms for {(inputsOr task.inputs).length} input(s)"
    (Report.exitCode reports) last
  rw [unchanged, ← same] at gains
  refine ⟨later, ?_, gains, places⟩
  unfold compile
  rw [beside, careful]
  simp only [ne_eq, not_true, and_false, if_false, bind_apply, forM_guardTarget,
    find?_isPresent_eq_none absent, clock_apply, compileAll_eq_mapM, read]
  simp only [targets, wrote]
  exact told

/-- Compiling beside sources loses no file that was there, and no frame but those that others with
the same target replace. -/
theorem compilesBeside (settings : Settings) (colored : Bool) {task : CompileTask} (world : World)
    (beside : task.output = .besideSource) (careful : task.overwrite = false) :
    CompilesBeside settings colored task world where
  refused input found := by
    unfold compile
    rw [beside, careful]
    simp only [ne_eq, not_true, and_false, if_false, bind_apply, forM_guardTarget, found]
  unread error later absent read := by
    have free := find?_isPresent_eq_none absent
    refine ⟨?_, (mapM_compileOne_keeps read).1⟩
    unfold compile
    rw [beside, careful]
    simp only [ne_eq, not_true, and_false, if_false, bind_apply, forM_guardTarget, free,
      clock_apply, compileAll_eq_mapM, read]
  written reports next absent read := by
    obtain ⟨later, compiled, gains, places⟩ :=
      exists_compile_eq settings colored beside careful absent read
    refine ⟨_, later, compiled, Report.exitCode_eq_zero_iff reports,
      Report.exitCode_le_one reports, ?_⟩
    exact ⟨fun _ => gains.kept places, fun _ => gains.made places, fun _ => gains.spared places,
      gains.own_iff places⟩

/-- A world with sources under their names. -/
def worldOf (sources : List (String × String)) : World where
  tree := ⟨sources.map fun (name, text) => ([name], .file (Text.Utf8.encode text.toList))⟩

/-- Compile files and write their frames beside them. -/
def besideTask (names : List String) : CompileTask where
  inputs := names.map fun name => .file (.ofText name)
  output := .besideSource

/-- The first source compiles, the second one does not. -/
theorem compilesBeside_two_sources :
    CompilesBeside {} false (besideTask ["a.cmd", "b.cmd"])
        (worldOf [("a.cmd", "wait(1)"), ("b.cmd", "wait(")]) ∧
      (∀ input ∈ inputsOr (besideTask ["a.cmd", "b.cmd"]).inputs,
        (worldOf [("a.cmd", "wait(1)"), ("b.cmd", "wait(")]).tree.isPresent input.framePath =
          false) ∧
      (((inputsOr (besideTask ["a.cmd", "b.cmd"]).inputs).mapM (inWorld {} false).compileOne)
        (worldOf [("a.cmd", "wait(1)"), ("b.cmd", "wait(")])).1.map
          (List.map Report.isSuccess) = .ok [true, false] :=
  ⟨compilesBeside {} false _ rfl rfl, by decide +kernel, by decide +kernel⟩

/-- Two sources have their target in common, where nothing lies. Both compile and the task succeeds,
but the frame of the first one is not there in the end. -/
theorem compile_common_target :
    (besideTask ["a.cmd", "a.txt"]).inputs.Nodup ∧
      (worldOf [("a.cmd", "wait(1)"), ("a.txt", "wait(2)")]).tree.isPresent (.ofText "a.bin") =
        false ∧
      ((inWorld {} false).compileOne (.file (.ofText "a.cmd"))
        (worldOf [("a.cmd", "wait(1)"), ("a.txt", "wait(2)")])).1.map Report.result =
          .ok (.ok ⟨⟨10, 0⟩, [2, 1, 0, 0, 0]⟩) ∧
      ((inWorld {} false).compile (besideTask ["a.cmd", "a.txt"])
        (worldOf [("a.cmd", "wait(1)"), ("a.txt", "wait(2)")])).1 = .ok 0 ∧
      World.readFile (Input.file (.ofText "a.cmd")).framePath
        ((inWorld {} false).compile (besideTask ["a.cmd", "a.txt"])
          (worldOf [("a.cmd", "wait(1)"), ("a.txt", "wait(2)")])).2.tree ≠
        .ok (Frame.encode ⟨⟨10, 0⟩, [2, 1, 0, 0, 0]⟩) :=
  ⟨by decide, by decide +kernel, by decide +kernel, by decide +kernel, by decide +kernel⟩

end Setting

end Sequencer
