import Sequencer.CommandLine.Tasks
import Sequencer.Proofs.Files.Replacing

/-!
# Frames beside their sources

Every frame has its place beside its source, but sources whose names differ in nothing but their
extension share one. Where the frames of some reports are written one after the other, the last of
those for a place is the one that lies there (`FileTree.GainsFrames`).
-/

namespace Sequencer

/-- Where the frame of an input is written beside it. -/
def Input.framePath : Input → Path
  | .file path => path.withExtension frameExtension
  | .standardInput => .ofText ("out." ++ frameExtension)

theorem Output.target?_besideSource (input : Input) :
    Output.besideSource.target? input = some input.framePath := by
  cases input <;> rfl

/-! ## Reports -/

namespace Report

theorem toOption_eq_some_iff {report : Report} {frame : Frame} :
    report.result.toOption = some frame ↔ report.result = .ok frame := by
  cases report.result <;> simp [Except.toOption]

theorem isSuccess_iff {report : Report} :
    report.isSuccess ↔ ∃ frame, report.result = .ok frame := by
  simp [isSuccess, Option.isSome_iff_exists, toOption_eq_some_iff]

theorem exitCode_eq_zero_iff (reports : List Report) :
    exitCode reports = 0 ↔ ∀ report ∈ reports, report.isSuccess := by
  simp [exitCode]

theorem exitCode_le_one (reports : List Report) : exitCode reports ≤ 1 := by
  unfold exitCode
  split <;> decide

end Report

namespace FileTree

/-- An input that can be read is the standard input or a file that is there. -/
def Holds (tree : FileTree) : Input → Prop
  | .file path => ∃ place bytes, tree.file path = .ok (place, bytes)
  | .standardInput => True

/-- The frame of an input that can be read has a place, unless something lies there. -/
theorem Holds.exists_takes {tree : FileTree} {input : Input} (holds : tree.Holds input)
    (absent : tree.isPresent input.framePath = false) :
    ∃ place, tree.Takes input.framePath place ∧ tree.get? place = none := by
  have located : ∃ directory name, tree.Locates input.framePath directory name := by
    cases input with
    | standardInput => exact ⟨[], "out.bin", by decide, [], by decide, .here⟩
    | file path =>
        obtain ⟨place, bytes, filed⟩ := holds
        obtain ⟨directory, name, locates, -⟩ :=
          exists_locates_of_file filed
        have long : 1 < frameExtension.length := by decide
        rcases locates.withExtension long with present | ⟨other, located⟩
        · rw [Input.framePath, present] at absent
          cases absent
        · exact ⟨directory, other, located⟩
  obtain ⟨directory, name, locates⟩ := located
  rw [locates.isPresent_eq] at absent
  have free : tree.get? (directory ++ [name]) = none := by simpa using absent
  exact ⟨_, ⟨directory, name, locates, rfl, by simp [free]⟩, free⟩

/-! ## The frames for a place -/

/-- The frame that a report has for a place. -/
def frameFor? (tree : FileTree) (place : List String) (report : Report) : Option Frame :=
  if tree.writable report.input.framePath = .ok place then report.result.toOption else none

/-- The last of the frames that reports have for a place. -/
def lastFrameFor? (tree : FileTree) (reports : List Report) (place : List String) : Option Frame :=
  reports.reverse.findSome? (tree.frameFor? place)

section

variable {tree later : FileTree} {report : Report} {reports : List Report} {frame : Frame}
  {place : List String}

theorem frameFor?_eq_some_iff :
    tree.frameFor? place report = some frame ↔
      tree.writable report.input.framePath = .ok place ∧ report.result = .ok frame := by
  simp [frameFor?, Report.toOption_eq_some_iff]

theorem lastFrameFor?_cons (tree : FileTree) (report : Report) (reports : List Report)
    (place : List String) :
    tree.lastFrameFor? (report :: reports) place =
      (tree.lastFrameFor? reports place).or (tree.frameFor? place report) := by
  simp [lastFrameFor?, List.findSome?_append]

theorem lastFrameFor?_singleton (tree : FileTree) (report : Report) (place : List String) :
    tree.lastFrameFor? [report] place = tree.frameFor? place report := by
  simp [lastFrameFor?]

theorem lastFrameFor?_eq_none_iff :
    tree.lastFrameFor? reports place = none ↔
      ∀ report ∈ reports, report.isSuccess →
        tree.writable report.input.framePath ≠ .ok place := by
  simp only [lastFrameFor?, List.findSome?_eq_none_iff, List.mem_reverse, Report.isSuccess_iff]
  apply forall₂_congr
  intro report _
  rw [Option.eq_none_iff_forall_not_mem]
  simp only [Option.mem_def, frameFor?_eq_some_iff]
  constructor
  · rintro without ⟨frame, result⟩ leads
    exact without frame ⟨leads, result⟩
  · rintro elsewhere frame ⟨leads, result⟩
    exact elsewhere ⟨frame, result⟩ leads

theorem exists_of_lastFrameFor? (found : tree.lastFrameFor? reports place = some frame) :
    ∃ report ∈ reports, tree.writable report.input.framePath = .ok place ∧
      report.result = .ok frame := by
  obtain ⟨report, listed, given⟩ := List.exists_of_findSome?_eq_some found
  exact ⟨report, List.mem_reverse.mp listed, frameFor?_eq_some_iff.mp given⟩

/-- Only the targets of inputs that compile matter. -/
theorem lastFrameFor?_congr
    (same : ∀ report ∈ reports, report.isSuccess →
      later.writable report.input.framePath = tree.writable report.input.framePath)
    (place : List String) :
    later.lastFrameFor? reports place = tree.lastFrameFor? reports place := by
  induction reports with
  | nil => rfl
  | cons report reports inductionHypothesis =>
      have one : later.frameFor? place report = tree.frameFor? place report := by
        apply Option.ext
        intro frame
        rw [frameFor?_eq_some_iff, frameFor?_eq_some_iff]
        apply and_congr_left
        intro result
        rw [same report List.mem_cons_self (Report.isSuccess_iff.mpr ⟨frame, result⟩)]
      rw [lastFrameFor?_cons, lastFrameFor?_cons, one,
        inductionHypothesis fun other listed => same other (List.mem_cons_of_mem _ listed)]

end

/-! ## Trees with frames -/

/-- What reports leave in a tree when their frames are written one after the other. -/
structure GainsFrames (before : FileTree) (reports : List Report) (after : FileTree) : Prop where
  /-- No place is taken away. -/
  paths : ∀ path place, before.Takes path place → after.Takes path place
  /-- The last frame for a place lies there. All else is as before. -/
  entries : ∀ place, after.get? place =
    ((before.lastFrameFor? reports place).map fun frame => .file frame.encode).or
      (before.get? place)

/-- Inputs have one frame if their frames have one place. -/
def FramesAgree (tree : FileTree) (reports : List Report) : Prop :=
  ∀ first ∈ reports, ∀ second ∈ reports, ∀ frame other,
    first.result = .ok frame → second.result = .ok other →
      tree.resolve first.input.framePath = tree.resolve second.input.framePath →
        frame.encode = other.encode

namespace GainsFrames

section

variable {before between after : FileTree} {report : Report} {reports : List Report}

theorem nil (tree : FileTree) : tree.GainsFrames [] tree where
  paths _ _ takes := takes
  entries _ := rfl

/-- A report without a frame leaves nothing. -/
theorem of_error {error : DeliveredError} (result : report.result = .error error)
    (tree : FileTree) : tree.GainsFrames [report] tree where
  paths _ _ takes := takes
  entries place := by simp [lastFrameFor?_singleton, frameFor?, result, Except.toOption]

theorem of_ok {frame : Frame} {place : List String} (result : report.result = .ok frame)
    (takes : before.Takes report.input.framePath place)
    (gains : before.GainsFile place frame.encode after) : before.GainsFrames [report] after where
  paths _ _ other := other.gain takes.get?_ne gains
  entries other := by
    rw [gains, lastFrameFor?_singleton, frameFor?, takes.writable_eq]
    by_cases same : other = place
    · simp [same, result, Except.toOption]
    · simp [same, Ne.symm same]

/-- The frames of more reports are written afterwards. -/
theorem cons
    (takes : ∀ report ∈ reports, report.isSuccess →
      ∃ place, before.Takes report.input.framePath place)
    (first : before.GainsFrames [report] between) (rest : between.GainsFrames reports after) :
    before.GainsFrames (report :: reports) after where
  paths path place takes := rest.paths path place (first.paths path place takes)
  entries place := by
    have unmoved : between.lastFrameFor? reports place = before.lastFrameFor? reports place := by
      apply lastFrameFor?_congr
      intro report listed success
      obtain ⟨place, taken⟩ := takes report listed success
      rw [taken.writable_eq, (first.paths _ _ taken).writable_eq]
    rw [rest.entries, unmoved, first.entries, lastFrameFor?_singleton, lastFrameFor?_cons,
      Option.map_or, Option.or_assoc]

end

/-! ## Where nothing lay before -/

section

variable {before after : FileTree} {reports : List Report} {place : List String}
  (gains : before.GainsFrames reports after)
  (places : ∀ report ∈ reports, ∃ place,
    before.Takes report.input.framePath place ∧ before.get? place = none)

include gains places

/-- What lay in the tree still lies there. -/
theorem kept (there : before.get? place ≠ none) : after.get? place = before.get? place := by
  have unused : before.lastFrameFor? reports place = none := by
    rw [lastFrameFor?_eq_none_iff]
    intro report listed _ leads
    obtain ⟨home, takes, missing⟩ := places report listed
    rw [takes.writable_eq] at leads
    cases leads
    exact there missing
  rw [gains.entries, unused]
  rfl

/-- All that is new is the frame of an input, and lies where that belongs. -/
theorem made (missing : before.get? place = none) (there : after.get? place ≠ none) :
    ∃ report ∈ reports, ∃ frame, report.result = .ok frame ∧
      before.resolve report.input.framePath = .ok (.missing place) ∧
      after.get? place = some (.file frame.encode) := by
  cases found : before.lastFrameFor? reports place with
  | none =>
      rw [gains.entries, found, missing] at there
      exact absurd rfl there
  | some frame =>
      obtain ⟨report, listed, leads, result⟩ := exists_of_lastFrameFor? found
      obtain ⟨home, takes, absent⟩ := places report listed
      rw [takes.writable_eq] at leads
      cases leads
      refine ⟨report, listed, frame, result, takes.resolve_eq absent, ?_⟩
      rw [gains.entries, found]
      rfl

/-- Nothing lies where no frame of an input that compiles belongs. -/
theorem spared {report : Report} (listed : report ∈ reports)
    (alone : ∀ other ∈ reports, other.isSuccess →
      before.resolve other.input.framePath ≠ before.resolve report.input.framePath) :
    after.isPresent report.input.framePath = false := by
  obtain ⟨home, takes, missing⟩ := places report listed
  have unused : before.lastFrameFor? reports home = none := by
    rw [lastFrameFor?_eq_none_iff]
    intro other also success leads
    obtain ⟨place, taken, absent⟩ := places other also
    rw [taken.writable_eq] at leads
    cases leads
    apply alone other also success
    rw [taken.resolve_eq absent, takes.resolve_eq missing]
  rw [(gains.paths _ _ takes).isPresent_eq, gains.entries, unused, missing]
  rfl

/-- Every input that compiles finds its own frame beside it, exactly if none with the same target
has another frame. -/
theorem own_iff :
    (∀ report ∈ reports, ∀ frame, report.result = .ok frame →
      World.readFile report.input.framePath after = .ok frame.encode) ↔
    before.FramesAgree reports := by
  constructor
  · intro own first listed second also frame other result otherResult same
    obtain ⟨home, takes, missing⟩ := places first listed
    obtain ⟨place, taken, absent⟩ := places second also
    rw [takes.resolve_eq missing, taken.resolve_eq absent] at same
    cases same
    have one := (gains.paths _ _ takes).readFile_eq_ok_iff.mp (own first listed frame result)
    have two := (gains.paths _ _ taken).readFile_eq_ok_iff.mp (own second also other otherResult)
    rw [one] at two
    exact Entry.file.inj (Option.some.inj two)
  · intro agree report listed frame result
    obtain ⟨home, takes, missing⟩ := places report listed
    rw [(gains.paths _ _ takes).readFile_eq_ok_iff]
    cases found : before.lastFrameFor? reports home with
    | none =>
        have success := Report.isSuccess_iff.mpr ⟨frame, result⟩
        exact absurd takes.writable_eq (lastFrameFor?_eq_none_iff.mp found report listed success)
    | some last =>
        obtain ⟨other, also, leads, otherResult⟩ := exists_of_lastFrameFor? found
        obtain ⟨place, taken, absent⟩ := places other also
        rw [taken.writable_eq] at leads
        cases leads
        have same := agree other also report listed last frame otherResult result
          (by rw [taken.resolve_eq absent, takes.resolve_eq missing])
        rw [gains.entries, found, ← same]
        rfl

end

end GainsFrames

end FileTree

end Sequencer
