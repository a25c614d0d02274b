import Mathlib.Data.List.Nodup
import Mathlib.Data.List.Perm.Subperm
import Sequencer.Files.Replacement
import Sequencer.Proofs.Files.Leading

/-!
# What replacing a file changes

A file is replaced by way of another one beside it, which is gone in the end. So a tree differs from
the one before in the file that has been replaced, and in nothing else
(`World.exists_replace_eq`).
-/

namespace Sequencer

namespace FileTree

/-! ## Entries -/

variable {tree later : FileTree} {place other directory : List String} {path : Path} {name : String}
  {bytes : List UInt8}

theorem isRoot_eq_false (free : tree.get? place ≠ some .directory) : isRoot place = false := by
  cases root : isRoot place with
  | false => rfl
  | true => exact absurd (by simp [get?, root]) free

theorem lookup_filter_ne (differs : other ≠ place) (entries : List (List String × Entry)) :
    (entries.filter (·.1 ≠ place)).lookup other = entries.lookup other := by
  induction entries with
  | nil => rfl
  | cons entry entries inductionHypothesis =>
      rcases entry with ⟨here, entry⟩
      by_cases same : here = place
      · subst same
        rw [List.filter_cons_of_neg (by simp), inductionHypothesis, List.lookup_cons,
          beq_eq_false_iff_ne.mpr differs]
      · rw [List.filter_cons_of_pos (by simpa using same), List.lookup_cons, List.lookup_cons,
          inductionHypothesis]

theorem get?_insert (inside : isRoot place = false) (entry : Entry) (other : List String) :
    (tree.insert place entry).get? other =
      if other = place then some entry else tree.get? other := by
  by_cases same : other = place
  · subst same
    simp [get?, insert, inside]
  · rw [if_neg same, get?, insert, List.lookup_cons, beq_eq_false_iff_ne.mpr same,
      lookup_filter_ne same]
    rfl

theorem get?_erase (inside : isRoot place = false) (other : List String) :
    (tree.erase place).get? other = if other = place then none else tree.get? other := by
  by_cases same : other = place
  · subst same
    rw [if_pos rfl, get?, erase, inside]
    simp only [Bool.false_eq_true, if_false, List.lookup_eq_none_iff]
    intro entry kept
    have differs := (List.mem_filter.mp kept).2
    rw [bne_iff_ne]
    rintro rfl
    simp at differs
  · rw [if_neg same, get?, erase, lookup_filter_ne same]
    rfl

/-- A change at one place that is not a directory moves no other path. -/
theorem Locates.of_change (locates : tree.Locates path directory name)
    (free : tree.get? place ≠ some .directory)
    (elsewhere : ∀ other, other ≠ place → later.get? other = tree.get? other) :
    later.Locates path directory name := by
  apply locates.mono
  intro other there
  have differs : other ≠ place := by
    rintro rfl
    exact free there
  rw [elsewhere other differs, there]

/-- The tree has a file at a place, and all else is as before. -/
def GainsFile (tree : FileTree) (place : List String) (bytes : List UInt8) (later : FileTree) :
    Prop :=
  ∀ other, later.get? other = if other = place then some (.file bytes) else tree.get? other

/-- A path allows a file to be written at a place. -/
def Takes (tree : FileTree) (path : Path) (place : List String) : Prop :=
  ∃ directory name, tree.Locates path directory name ∧ place = directory ++ [name] ∧
    tree.get? place ≠ some .directory

theorem Takes.get?_ne (takes : tree.Takes path place) : tree.get? place ≠ some .directory := by
  obtain ⟨directory, name, -, -, free⟩ := takes
  exact free

theorem Takes.exists_parent? (takes : tree.Takes path place) :
    ∃ around, path.parent? = some around := by
  obtain ⟨directory, name, locates, -⟩ := takes
  obtain ⟨around, parent, -⟩ := locates.exists_parent?
  exact ⟨around, parent⟩

theorem Takes.isPresent_eq (takes : tree.Takes path place) :
    tree.isPresent path = (tree.get? place).isSome := by
  obtain ⟨directory, name, locates, rfl, -⟩ := takes
  exact locates.isPresent_eq

theorem readFile_eq_ok_iff :
    World.readFile path tree = .ok bytes ↔ ∃ place, tree.file path = .ok (place, bytes) := by
  unfold World.readFile
  rcases tree.file path with fault | ⟨place, found⟩
  · cases fault <;> simp
  · simp

/-- A file at the place is what is read along the path. -/
theorem Takes.readFile_eq_ok_iff (takes : tree.Takes path place) :
    World.readFile path tree = .ok bytes ↔ tree.get? place = some (.file bytes) := by
  obtain ⟨directory, name, locates, rfl, free⟩ := takes
  simp only [FileTree.readFile_eq_ok_iff, file_eq_ok_iff, locates.resolve_eq]
  cases there : tree.get? (directory ++ [name]) with
  | none => simp
  | some entry =>
      cases entry with
      | file found => simp
      | directory => exact absurd there free

/-- Where nothing lies yet, the path leads to the place itself. -/
theorem Takes.resolve_eq (takes : tree.Takes path place) (missing : tree.get? place = none) :
    tree.resolve path = .ok (.missing place) := by
  obtain ⟨directory, name, locates, rfl, -⟩ := takes
  rw [locates.resolve_eq, missing]

theorem Takes.writable_eq (takes : tree.Takes path place) : tree.writable path = .ok place := by
  obtain ⟨directory, name, locates, rfl, free⟩ := takes
  exact locates.writable_eq free

/-- Writing a file takes no place from other paths. -/
theorem Takes.gain (takes : tree.Takes path place) (free : tree.get? other ≠ some .directory)
    (gains : tree.GainsFile other bytes later) : later.Takes path place := by
  obtain ⟨directory, name, locates, rfl, unoccupied⟩ := takes
  refine ⟨directory, name, locates.of_change free ?_, rfl, ?_⟩
  · intro another differs
    rw [gains, if_neg differs]
  · rw [gains]
    split
    · simp
    · exact unoccupied

/-! ## Names that are not taken -/

theorem isRoot_append (long : 2 < name.length) : isRoot (directory ++ [name]) = false := by
  have step : name ≠ ".." := by
    rintro rfl
    exact absurd long (by decide)
  have slash : name ≠ "/" := by
    rintro rfl
    exact absurd long (by decide)
  cases directory <;> simp [isRoot, step, slash]

/-- Of numbered names, one is not taken, as a tree has only so many entries. -/
theorem exists_firstMissing {candidate : Nat → Path} {names : Nat → String}
    (locates : ∀ index, tree.Locates (candidate index) directory (names index))
    (long : ∀ index, 2 < (names index).length) (distinct : Function.Injective names) :
    ∃ index, tree.firstMissing candidate = candidate index ∧
      tree.get? (directory ++ [names index]) = none := by
  unfold firstMissing
  cases found : (List.range (tree.entries.length + 1)).find? fun index =>
      !tree.isPresent (candidate index) with
  | some index =>
      have missing := List.find?_some found
      simp only [(locates index).isPresent_eq, Bool.not_eq_true', Option.isSome_eq_false_iff,
        Option.isNone_iff_eq_none] at missing
      exact ⟨index, rfl, missing⟩
  | none =>
      -- If all these names were taken, they would be more than the entries of the tree.
      let places := (List.range (tree.entries.length + 1)).map fun index =>
        directory ++ [names index]
      have differ : places.Nodup := by
        apply List.Nodup.map _ List.nodup_range
        intro left right same
        exact distinct (by simpa using same)
      have taken : places ⊆ tree.entries.map Prod.fst := by
        intro place listed
        obtain ⟨index, within, rfl⟩ := List.mem_map.mp listed
        have present := List.find?_eq_none.mp found index within
        simp only [(locates index).isPresent_eq, Bool.not_eq_true, Bool.not_eq_false',
          Option.isSome_iff_exists] at present
        obtain ⟨entry, there⟩ := present
        rw [get?, isRoot_append (long index)] at there
        obtain ⟨before, after, split, -⟩ := List.lookup_eq_some_iff.mp there
        simp [split]
      have room := (List.subperm_of_subset differ taken).length_le
      simp only [places, List.length_map, List.length_range] at room
      omega

theorem temporary_injective (name : String) :
    Function.Injective fun index : Nat => name ++ s!".tmp{index}" := by
  intro left right same
  have numbers : left.repr = right.repr :=
    (String.append_right_inj _).mp ((String.append_right_inj _).mp same)
  have values := congrArg (fun text : String => Nat.ofDigitChars 10 text.toList 0) numbers
  simpa [Nat.ofDigitChars_toDigits] using values

theorem lt_length_temporary (name : String) (index : Nat) :
    name.length + 2 < (name ++ s!".tmp{index}").length := by
  have mark : (toString ".tmp").length = 4 := rfl
  simp only [String.length_append]
  omega

/-- What is written beside a file has another name that is not taken. -/
theorem Locates.exists_temporary (locates : tree.Locates path directory name) :
    ∃ around beside other, path.parent? = some around ∧
      tree.firstMissing (around.temporary (path.fileName?.getD "")) = beside ∧
      tree.Locates beside directory other ∧ other ≠ name ∧
      tree.get? (directory ++ [other]) = none := by
  obtain ⟨around, parent, -, others⟩ := locates.exists_parent?
  have long (index : Nat) : 2 < (name ++ s!".tmp{index}").length :=
    Nat.lt_of_le_of_lt (Nat.le_add_left _ _) (lt_length_temporary name index)
  have located (index : Nat) :
      tree.Locates (around.temporary name index) directory (name ++ s!".tmp{index}") :=
    others _ (Path.isName_of_length (long index))
  obtain ⟨index, found, missing⟩ := exists_firstMissing located long (temporary_injective name)
  refine ⟨around, _, _, parent, ?_, located index, ?_, missing⟩
  · rw [locates.fileName?_eq]
    exact found
  · intro same
    have longer := lt_length_temporary name index
    rw [same] at longer
    omega

/-! ## Changes to files -/

namespace Locates

variable (locates : tree.Locates path directory name)

include locates

theorem insert (free : tree.get? place ≠ some .directory) (bytes : List UInt8) :
    (tree.insert place (.file bytes)).Locates path directory name := by
  apply locates.of_change free
  intro other differs
  rw [get?_insert (isRoot_eq_false free), if_neg differs]

theorem erase (free : tree.get? place ≠ some .directory) :
    (tree.erase place).Locates path directory name := by
  apply locates.of_change free
  intro other differs
  rw [get?_erase (isRoot_eq_false free), if_neg differs]

theorem write_eq (free : tree.get? (directory ++ [name]) ≠ some .directory) (bytes : List UInt8) :
    tree.write path bytes = .ok (tree.insert (directory ++ [name]) (.file bytes)) := by
  rw [write, locates.writable_eq free]
  rfl

theorem remove_eq (there : tree.get? (directory ++ [name]) = some (.file bytes)) :
    tree.remove path = .ok (tree.erase (directory ++ [name])) := by
  rw [remove, locates.file_eq there]
  rfl

theorem rename_eq {source : Path} {old : String} (located : tree.Locates source directory old)
    (there : tree.get? (directory ++ [old]) = some (.file bytes))
    (free : tree.get? (directory ++ [name]) ≠ some .directory) :
    tree.rename source path =
      .ok ((tree.erase (directory ++ [old])).insert (directory ++ [name]) (.file bytes)) := by
  have filed : tree.get? (directory ++ [old]) ≠ some .directory := by simp [there]
  have left : (tree.erase (directory ++ [old])).get? (directory ++ [name]) ≠ some .directory := by
    rw [get?_erase (isRoot_eq_false filed)]
    split <;> simp [free]
  rw [rename, located.file_eq there]
  exact (locates.erase filed).write_eq left bytes

/-- A file that is written beside another one takes its name, whether or not that one has been
removed. -/
theorem exists_rename_eq {beside : Path} {old : String} (cleared : FileTree)
    (located : tree.Locates beside directory old) (differs : old ≠ name)
    (missing : tree.get? (directory ++ [old]) = none)
    (free : tree.get? (directory ++ [name]) ≠ some .directory)
    (freed : cleared.get? (directory ++ [name]) ≠ some .directory)
    (elsewhere : ∀ other, other ≠ directory ++ [name] →
      cleared.get? other = (tree.insert (directory ++ [old]) (.file bytes)).get? other) :
    ∃ later, cleared.rename beside path = .ok later ∧
      tree.GainsFile (directory ++ [name]) bytes later := by
  have unused : tree.get? (directory ++ [old]) ≠ some .directory := by simp [missing]
  have inside := isRoot_eq_false unused
  have apart : directory ++ [old] ≠ directory ++ [name] := by simpa using differs
  have there : cleared.get? (directory ++ [old]) = some (.file bytes) := by
    rw [elsewhere _ apart, get?_insert inside, if_pos rfl]
  have left : (tree.insert (directory ++ [old]) (.file bytes)).get? (directory ++ [name]) ≠
      some .directory := by
    rw [get?_insert inside, if_neg apart.symm]
    exact free
  have moved := (locates.insert unused bytes).of_change left elsewhere
  have beside := (located.insert unused bytes).of_change left elsewhere
  refine ⟨_, moved.rename_eq beside there freed, ?_⟩
  have filed : cleared.get? (directory ++ [old]) ≠ some .directory := by simp [there]
  intro other
  rw [get?_insert (isRoot_eq_false free), get?_erase (isRoot_eq_false filed)]
  by_cases same : other = directory ++ [name]
  · rw [if_pos same, if_pos same]
  · rw [if_neg same, if_neg same, elsewhere other same, get?_insert inside]
    by_cases here : other = directory ++ [old]
    · rw [if_pos here, here, missing]
    · rw [if_neg here, if_neg here]

end Locates

end FileTree

namespace World

open FileTree

variable {α β : Type} {world : World} {path : Path} {directory : List String} {name : String}

theorem bind_apply (act : StateM World α) (next : α → StateM World β) (world : World) :
    (act >>= next) world = next (act world).1 (act world).2 :=
  rfl

theorem change_eq_ok (act : FileTree → Except IOFault FileTree) {later : FileTree}
    (acted : act world.tree = .ok later) :
    change act world = (.ok (), { world with tree := later }) := by
  rw [change, acted]

/-- A file is replaced wherever its path allows that. -/
theorem exists_replace_eq {place : List String} (takes : world.tree.Takes path place)
    (bytes : List UInt8) :
    ∃ later, workspace.replace path bytes world = (.ok (), { world with tree := later }) ∧
      world.tree.GainsFile place bytes later := by
  obtain ⟨directory, name, locates, rfl, free⟩ := takes
  obtain ⟨around, beside, old, parent, found, located, differs, missing⟩ :=
    locates.exists_temporary
  have unused : world.tree.get? (directory ++ [old]) ≠ some .directory := by simp [missing]
  let written := world.tree.insert (directory ++ [old]) (.file bytes)
  have wrote : world.tree.write beside bytes = .ok written := located.write_eq unused bytes
  have moved : written.Locates path directory name := locates.insert unused bytes
  have kept : written.get? (directory ++ [name]) = world.tree.get? (directory ++ [name]) := by
    rw [get?_insert (isRoot_eq_false unused), if_neg (by simpa using differs.symm)]
  unfold Workspace.replace
  rw [parent]
  simp only [workspace, bind_apply, look, found]
  rw [change_eq_ok (·.write beside bytes) wrote]
  -- A file that lies there is removed before the new one is given its path.
  cases there : written.get? (directory ++ [name]) with
  | none =>
      have absent : written.isPresent path = false := by rw [moved.isPresent_eq, there]; rfl
      obtain ⟨later, renamed, gains⟩ :=
        locates.exists_rename_eq written located differs missing free (by simp [there])
          (fun _ _ => rfl)
      refine ⟨later, ?_, gains⟩
      simp only [look, absent, Bool.false_eq_true, if_false, bind_apply]
      rw [change_eq_ok (·.rename beside path) renamed]
      rfl
  | some entry =>
      cases entry with
      | directory =>
          rw [kept] at there
          exact absurd there free
      | file replaced =>
          have present : written.isPresent path = true := by rw [moved.isPresent_eq, there]; rfl
          have removed := moved.remove_eq there
          have inside : isRoot (directory ++ [name]) = false := isRoot_eq_false free
          obtain ⟨later, renamed, gains⟩ := locates.exists_rename_eq
            (written.erase (directory ++ [name])) located differs missing free
            (by simp [get?_erase inside])
            (fun other differs => by rw [get?_erase inside, if_neg differs])
          refine ⟨later, ?_, gains⟩
          simp only [look, present, if_true, bind_apply]
          rw [change_eq_ok (·.remove path) removed, change_eq_ok (·.rename beside path) renamed]
          rfl

/-- The directories around a place are there, so none is made. -/
theorem createAll_eq {place : List String} {around : Path} (takes : world.tree.Takes path place)
    (parent : path.parent? = some around) (given : around.isEmpty = false) :
    workspace.createAll around world = (.ok (), world) := by
  obtain ⟨directory, name, locates, -⟩ := takes
  obtain ⟨outer, found, leads, -⟩ := locates.exists_parent?
  rw [parent] at found
  cases found
  obtain ⟨resolved, unslashed⟩ := leads given
  have made : world.tree.createDirectory around = .error .alreadyExists := by
    rw [createDirectory, unslashed]
  have there : world.tree.isDirectory around = true := by
    rw [isDirectory, resolved]
  unfold Workspace.createAll Path.ancestors Workspace.createNested
  simp only [given, Bool.false_eq_true, if_false, workspace, bind_apply, change, made,
    Workspace.createNested.orPresent, look, there, if_true]
  rfl

end World

end Sequencer
