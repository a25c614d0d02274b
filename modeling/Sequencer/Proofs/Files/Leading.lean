import Sequencer.Files.Tree
import Sequencer.Proofs.Files.Names

/-!
# Where paths lead

The parts of a path lead from a directory to another one as long as each is the name of a directory,
a step up, or void (`FileTree.LeadsTo`). A path that ends in a name is the path of that name in the
directory its other parts lead to (`FileTree.Locates`), and what lies there does not depend on how
the path is written. Other names in the same directory have paths of the same kind.
-/

namespace Sequencer

namespace FileTree

/-! ## Leading to directories -/

/-- The place from where parts lead on. -/
def start (parts : List String) : List String := if parts.head? = some "" then ["/"] else []

/-- Parts lead from the place of a directory to that of another one. -/
inductive LeadsTo (tree : FileTree) : List String → List String → List String → Prop
  | here {place} : LeadsTo tree place [] place
  | void {place part rest last} :
      Path.isVoid part → LeadsTo tree place rest last → LeadsTo tree place (part :: rest) last
  | up {place rest last} :
      LeadsTo tree (up place) rest last → LeadsTo tree place (".." :: rest) last
  | into {place part rest last} :
      Path.isName part → tree.get? (place ++ [part]) = some .directory →
      LeadsTo tree (place ++ [part]) rest last → LeadsTo tree place (part :: rest) last

variable {tree later : FileTree} {place last directory before parts : List String}
  {path : Path} {name other : String} {bytes : List UInt8}

theorem follow_void {part : String} (void : Path.isVoid part) (rest : List String) :
    tree.follow place (part :: rest) = tree.follow place rest := by
  simp [follow, void]

theorem follow_up (rest : List String) :
    tree.follow place (".." :: rest) = tree.follow (up place) rest := by
  simp [follow, Path.isVoid]

theorem follow_directory {part : String} (named : Path.isName part)
    (there : tree.get? (place ++ [part]) = some .directory) (rest : List String) :
    tree.follow place (part :: rest) = tree.follow (place ++ [part]) rest := by
  have proper := Path.isName_iff.mp named
  simp [follow, proper.1, proper.2, there]

theorem LeadsTo.follow (leads : tree.LeadsTo place parts last) (rest : List String) :
    tree.follow place (parts ++ rest) = tree.follow last rest := by
  induction leads with
  | here => rfl
  | void void _ inductionHypothesis =>
      rw [List.cons_append, follow_void void, inductionHypothesis]
  | up _ inductionHypothesis =>
      rw [List.cons_append, follow_up, inductionHypothesis]
  | into named there _ inductionHypothesis =>
      rw [List.cons_append, follow_directory named there, inductionHypothesis]

theorem LeadsTo.follow_eq (leads : tree.LeadsTo place parts last) :
    tree.follow place parts = .ok .directory := by
  have followed := leads.follow []
  rwa [List.append_nil] at followed

/-- Parts that name nothing make no difference. -/
theorem LeadsTo.filter (leads : tree.LeadsTo place parts last) :
    tree.LeadsTo place (parts.filter fun part => !Path.isVoid part) last := by
  induction leads with
  | here => exact .here
  | void void _ inductionHypothesis =>
      rwa [List.filter_cons_of_neg (by simpa using void)]
  | up _ inductionHypothesis => exact .up inductionHypothesis
  | into named there _ inductionHypothesis =>
      rw [List.filter_cons_of_pos (by simpa using (Path.isName_iff.mp named).1)]
      exact .into named there inductionHypothesis

theorem LeadsTo.tidy (leads : tree.LeadsTo (start parts) parts last) :
    tree.LeadsTo (start (Path.tidy parts)) (Path.tidy parts) last := by
  cases parts with
  | nil => exact leads
  | cons first more =>
      cases leads with
      | void void leads => exact .void void leads.filter
      | up leads => exact .up leads.filter
      | into named there leads => exact .into named there leads.filter

/-- Parts lead to the same place in all trees with these directories. -/
theorem LeadsTo.mono
    (kept : ∀ place, tree.get? place = some .directory → later.get? place = some .directory)
    (leads : tree.LeadsTo place parts last) : later.LeadsTo place parts last := by
  induction leads with
  | here => exact .here
  | void void _ inductionHypothesis => exact .void void inductionHypothesis
  | up _ inductionHypothesis => exact .up inductionHypothesis
  | into named there _ inductionHypothesis => exact .into named (kept _ there) inductionHypothesis

/-- What leads to a file ends in its name. -/
theorem exists_leadsTo_of_follow (followed : tree.follow place parts = .ok (.file last bytes)) :
    ∃ before directory name, parts = before ++ [name] ∧ Path.isName name ∧
      tree.LeadsTo place before directory ∧ last = directory ++ [name] ∧
      tree.get? last = some (.file bytes) := by
  fun_induction FileTree.follow tree place parts with
  | case1 => cases followed
  | case2 place part rest void inductionHypothesis =>
      obtain ⟨before, directory, name, rfl, named, leads, found⟩ := inductionHypothesis followed
      exact ⟨part :: before, directory, name, rfl, named, .void void leads, found⟩
  | case3 place rest void inductionHypothesis =>
      obtain ⟨before, directory, name, rfl, named, leads, found⟩ := inductionHypothesis followed
      exact ⟨".." :: before, directory, name, rfl, named, .up leads, found⟩
  | case4 place part rest notVoid notUp next there inductionHypothesis =>
      obtain ⟨before, directory, name, rfl, named, leads, found⟩ := inductionHypothesis followed
      have proper : Path.isName part := by simp [Path.isName, notVoid, notUp]
      exact ⟨part :: before, directory, name, rfl, named, .into proper there leads, found⟩
  | case5 place part rest notVoid notUp next content there ends =>
      simp only [Except.ok.injEq, Target.file.injEq] at followed
      obtain ⟨rfl, rfl⟩ := followed
      have proper : Path.isName part := by simp [Path.isName, notVoid, notUp]
      have alone : rest = [] := by simpa using ends
      subst alone
      exact ⟨[], place, part, rfl, proper, .here, rfl, there⟩
  | _ => cases followed

/-! ## Paths of directories -/

theorem start_append {last : String} (kept : Path.isVoid last = false) :
    start (before ++ [last]) = start before := by
  have given := (Path.isVoid_eq_false_iff.mp kept).1
  cases before <;> simp [start, given]

theorem resolve_eq_follow (given : (⟨parts⟩ : Path).isEmpty = false) :
    tree.resolve ⟨parts⟩ = tree.follow (start parts) parts := by
  rw [resolve, given, Path.isAbsolute_eq given]
  simp [start]

/-- A path that does not end in a slash is taken as it is. -/
theorem resolveUnslashed_eq (given : path.isEmpty = false) (ends : path.endsInSlash = false) :
    tree.resolveUnslashed path = tree.resolve path := by
  rcases path with ⟨parts⟩
  rcases List.eq_nil_or_concat parts with rfl | ⟨before, last, rfl⟩
  · rfl
  · have kept : last ≠ "" := by
      rintro rfl
      cases before with
      | nil => cases given
      | cons first more => simp [Path.endsInSlash] at ends
    simp [resolveUnslashed, kept]

theorem LeadsTo.resolve_enclosing (leads : tree.LeadsTo (start before) before directory)
    (given : (Path.enclosing before).isEmpty = false) :
    tree.resolve (Path.enclosing before) = .ok .directory ∧
      tree.resolveUnslashed (Path.enclosing before) = .ok .directory := by
  cases before with
  | nil => cases given
  | cons first more =>
      rcases Path.enclosing_cons first more with ⟨given, plain⟩ | ⟨-, slashes⟩
      · rw [plain, resolveUnslashed_eq given (Path.endsInSlash_tidy _), resolve_eq_follow given]
        exact ⟨leads.tidy.follow_eq, leads.tidy.follow_eq⟩
      · rw [slashes]
        exact ⟨rfl, rfl⟩

theorem LeadsTo.isPresent_up (leads : tree.LeadsTo (start before) before directory) :
    tree.isPresent ⟨before ++ [".."]⟩ = true := by
  rw [isPresent, resolve_eq_follow (Path.isEmpty_append Path.isVoid_up),
    start_append Path.isVoid_up, leads.follow]
  rfl

/-! ## Names in directories -/

/-- A path is that of a name in a directory. -/
structure Locates (tree : FileTree) (path : Path) (directory : List String) (name : String) :
    Prop where
  isName : Path.isName name
  leads : ∃ before, path = ⟨before ++ [name]⟩ ∧ tree.LeadsTo (start before) before directory

theorem file_eq_ok_iff :
    tree.file path = .ok (place, bytes) ↔ tree.resolve path = .ok (.file place bytes) := by
  unfold file
  cases tree.resolve path with
  | error fault => simp
  | ok target => cases target <;> simp

/-- What leads to a file is the path of its name. -/
theorem exists_locates_of_file (filed : tree.file path = .ok (place, bytes)) :
    ∃ directory name, tree.Locates path directory name ∧ place = directory ++ [name] ∧
      tree.get? place = some (.file bytes) := by
  rcases path with ⟨parts⟩
  have resolved := file_eq_ok_iff.mp filed
  have given : (⟨parts⟩ : Path).isEmpty = false := by
    cases empty : (⟨parts⟩ : Path).isEmpty with
    | false => rfl
    | true => simp [resolve, empty] at resolved
  rw [resolve_eq_follow given] at resolved
  obtain ⟨before, directory, name, rfl, named, leads, found⟩ := exists_leadsTo_of_follow resolved
  rw [start_append (Path.isName_iff.mp named).1] at leads
  exact ⟨directory, name, ⟨named, before, rfl, leads⟩, found⟩

namespace Locates

variable (locates : tree.Locates path directory name)

include locates

theorem mono
    (kept : ∀ place, tree.get? place = some .directory → later.get? place = some .directory) :
    later.Locates path directory name := by
  rcases locates with ⟨named, before, same, leads⟩
  exact ⟨named, before, same, leads.mono kept⟩

theorem resolve_eq_follow : tree.resolve path = tree.follow directory [name] := by
  rcases locates with ⟨named, before, rfl, leads⟩
  have kept := (Path.isName_iff.mp named).1
  rw [FileTree.resolve_eq_follow (Path.isEmpty_append kept), start_append kept, leads.follow]

/-- What lies in the directory under the name lies where the path leads. -/
theorem resolve_eq :
    tree.resolve path =
      match tree.get? (directory ++ [name]) with
      | none => .ok (.missing (directory ++ [name]))
      | some (.file bytes) => .ok (.file (directory ++ [name]) bytes)
      | some .directory => .ok .directory := by
  have proper := Path.isName_iff.mp locates.isName
  rw [locates.resolve_eq_follow]
  simp only [FileTree.follow, proper.1, proper.2]
  cases tree.get? (directory ++ [name]) with
  | none => rfl
  | some entry => cases entry <;> rfl

theorem isPresent_eq : tree.isPresent path = (tree.get? (directory ++ [name])).isSome := by
  rw [isPresent, locates.resolve_eq]
  cases tree.get? (directory ++ [name]) with
  | none => rfl
  | some entry => cases entry <;> rfl

theorem endsInSlash_eq : path.endsInSlash = false := by
  rcases locates with ⟨named, before, rfl, -⟩
  exact Path.endsInSlash_append (Path.isName_iff.mp named).1

theorem fileName?_eq : path.fileName? = some name := by
  rcases locates with ⟨named, before, rfl, -⟩
  exact Path.fileName?_append named

/-- A file can be written where no directory lies. -/
theorem writable_eq (free : tree.get? (directory ++ [name]) ≠ some .directory) :
    tree.writable path = .ok (directory ++ [name]) := by
  rw [writable, locates.endsInSlash_eq, locates.resolve_eq]
  cases there : tree.get? (directory ++ [name]) with
  | none => rfl
  | some entry =>
      cases entry with
      | file bytes => rfl
      | directory => exact absurd there free

theorem file_eq (there : tree.get? (directory ++ [name]) = some (.file bytes)) :
    tree.file path = .ok (directory ++ [name], bytes) := by
  rw [file, locates.resolve_eq, there]

/-- The path of the directory, in which other names have paths, too. -/
theorem exists_parent? :
    ∃ around, path.parent? = some around ∧
      (around.isEmpty = false →
        tree.resolve around = .ok .directory ∧ tree.resolveUnslashed around = .ok .directory) ∧
      ∀ other, Path.isName other → tree.Locates (around.join other) directory other := by
  rcases locates with ⟨named, before, rfl, leads⟩
  refine ⟨_, Path.parent?_append (Path.isName_iff.mp named).1, leads.resolve_enclosing, ?_⟩
  intro other proper
  rw [Path.enclosing_join]
  exact ⟨proper, _, rfl, leads.tidy⟩

/-- With another extension, a path is that of another name in the same directory, or that of a
directory. -/
theorem withExtension {extension : String} (long : 1 < extension.length) :
    tree.isPresent (path.withExtension extension) = true ∨
      ∃ other, tree.Locates (path.withExtension extension) directory other := by
  rcases locates with ⟨named, before, rfl, leads⟩
  obtain ⟨other, extended, proper | rfl⟩ := Path.withExtension_append named before long
  · exact .inr ⟨other, proper, before, extended, leads⟩
  · rw [extended]
    exact .inl leads.isPresent_up

end Locates

end FileTree

end Sequencer
