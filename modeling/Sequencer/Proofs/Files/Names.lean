import Mathlib.Data.List.TakeWhile
import Sequencer.Files.Path

/-!
# Paths that end in a name

Parts of a path that are neither void nor steps up are names. A path that ends in a name lies in the
directory that its other parts are a path of. Another extension turns its name into another name, or
into a step up where all of the name but its extension is a point.
-/

namespace Sequencer

namespace Path

/-! ## Names -/

/-- Whether a part of a path is a name. -/
def isName (part : String) : Bool := !isVoid part && part ≠ ".."

section

variable {part : String}

theorem isVoid_eq_false_iff : isVoid part = false ↔ part ≠ "" ∧ part ≠ "." := by
  simp [isVoid]

theorem isName_iff : isName part ↔ isVoid part = false ∧ part ≠ ".." := by
  simp [isName]

theorem isVoid_up : isVoid ".." = false := by decide

/-- A part of more than one character is a name or a step up. -/
theorem isName_or_eq_up (long : 1 < part.length) : isName part ∨ part = ".." := by
  have differs (short : String) (within : short.length ≤ 1) : part ≠ short := by
    rintro rfl
    omega
  by_cases up : part = ".."
  · exact .inr up
  · rw [isName_iff, isVoid_eq_false_iff]
    exact .inl ⟨⟨differs "" (by decide), differs "." (by decide)⟩, up⟩

theorem isName_of_length (long : 2 < part.length) : isName part := by
  rcases isName_or_eq_up (Nat.lt_of_succ_lt long) with named | rfl
  · exact named
  · exact absurd long (by decide)

end

/-! ## Parts in front of the last one -/

/-- The parts of a path without those that are void, apart from the first one. -/
def tidy : List String → List String
  | [] => []
  | first :: more => first :: more.filter fun part => !isVoid part

/-- The path of the directory in which parts are followed by a name. -/
def enclosing (before : List String) : Path :=
  ofComponents (before.head? = some "") (⟨before⟩ : Path).components

section

variable {before parts : List String} {last : String}

theorem isAbsolute_eq (given : (⟨parts⟩ : Path).isEmpty = false) :
    (⟨parts⟩ : Path).isAbsolute = decide (parts.head? = some "") := by
  match parts with
  | [] => simp [isAbsolute]
  | [first] =>
      have slash : first ≠ "" := by simpa [isEmpty, here] using given
      simp [isAbsolute, slash]
  | first :: second :: more =>
      by_cases slash : first = "" <;> simp [isAbsolute, slash]

variable (kept : isVoid last = false)

include kept

theorem isEmpty_append : (⟨before ++ [last]⟩ : Path).isEmpty = false := by
  have given := (isVoid_eq_false_iff.mp kept).1
  cases before <;> simp [isEmpty, here, given]

theorem isAbsolute_append :
    (⟨before ++ [last]⟩ : Path).isAbsolute = decide (before.head? = some "") := by
  have given := (isVoid_eq_false_iff.mp kept).1
  rw [isAbsolute_eq (isEmpty_append kept)]
  cases before <;> simp [given]

theorem endsInSlash_append : (⟨before ++ [last]⟩ : Path).endsInSlash = false := by
  have given := (isVoid_eq_false_iff.mp kept).1
  cases before <;> simp [endsInSlash, given]

theorem components_append :
    (⟨before ++ [last]⟩ : Path).components = (⟨before⟩ : Path).components ++ [last] := by
  have given := (isVoid_eq_false_iff.mp kept).1
  cases before with
  | nil => simp [components, given]
  | cons first more => simp [components, kept]

theorem parent?_append : (⟨before ++ [last]⟩ : Path).parent? = some (enclosing before) := by
  simp [parent?, components_append kept, isAbsolute_append kept, enclosing]

end

/-! ## Around a name -/

section

/-- The directory that an absolute name lies in directly is written with a second slash. -/
theorem enclosing_cons (first : String) (more : List String) :
    ((⟨tidy (first :: more)⟩ : Path).isEmpty = false ∧
        enclosing (first :: more) = ⟨tidy (first :: more)⟩) ∨
      (tidy (first :: more) = [""] ∧ enclosing (first :: more) = ⟨["", ""]⟩) := by
  by_cases slash : first = ""
  · subst slash
    cases kept : more.filter fun part => !isVoid part with
    | nil => exact .inr (by simp [enclosing, components, ofComponents, tidy, kept])
    | cons part parts =>
        exact .inl (by simp [enclosing, components, ofComponents, tidy, kept, isEmpty, here])
  · exact .inl (by simp [enclosing, components, ofComponents, tidy, slash, isEmpty, here])

theorem endsInSlash_tidy (parts : List String) : (⟨tidy parts⟩ : Path).endsInSlash = false := by
  cases parts with
  | nil => rfl
  | cons first more =>
      simp only [endsInSlash, tidy, decide_eq_false_iff_not]
      intro last
      have kept := (List.mem_filter.mp (List.mem_of_getLast? last)).2
      cases kept

/-- The path of any name in such a directory. -/
theorem enclosing_join (before : List String) (name : String) :
    (enclosing before).join name = ⟨tidy before ++ [name]⟩ := by
  cases before with
  | nil => simp [enclosing, components, ofComponents, tidy, join, endsInSlash, isEmpty, here]
  | cons first more =>
      rcases enclosing_cons first more with ⟨given, plain⟩ | ⟨root, slashes⟩
      · rw [plain, join, endsInSlash_tidy, given]
        rfl
      · rw [slashes, root]
        rfl

end

/-! ## Extensions -/

theorem stem_ne_nil {name : List Char} (given : name ≠ []) : stem name ≠ [] := by
  unfold stem
  split
  · rename_i pointed
    cases name with
    | nil => exact absurd rfl given
    | cons c rest =>
        cases found : rest.reverse.dropWhile (· ≠ '.') with
        | nil =>
            have pointless := List.dropWhile_eq_nil_iff.mp found '.'
            simp_all
        | cons point left =>
            rw [List.reverse_cons, List.dropWhile_append, found]
            simp
  · exact given

section

variable {before : List String} {name : String}

theorem dropExtension_append (before : List String) (name : String) :
    (⟨before ++ [name]⟩ : Path).dropExtension = ⟨before ++ [name]⟩ ∨
      (⟨before ++ [name]⟩ : Path).dropExtension =
        ⟨before ++ [String.ofList (stem name.toList) ++ "."]⟩ := by
  unfold dropExtension
  simp only [List.getLast?_concat, List.dropLast_concat]
  split
  · exact .inl rfl
  · exact .inr rfl

theorem putExtension_up (extension : String) :
    (⟨before ++ [".."]⟩ : Path).putExtension extension = ⟨before ++ [".."]⟩ := by
  simp [putExtension, fileName?, components_append isVoid_up]

variable (named : isName name)

include named

theorem fileName?_append : (⟨before ++ [name]⟩ : Path).fileName? = some name := by
  rw [isName_iff, isVoid_eq_false_iff] at named
  rcases named with ⟨kept, noStep⟩
  simp [fileName?, components_append (isVoid_eq_false_iff.mpr kept), kept.2, noStep]

theorem putExtension_append (extension : String) :
    (⟨before ++ [name]⟩ : Path).putExtension extension =
      ⟨before ++ [String.ofList (stem name.toList) ++ "." ++ extension]⟩ := by
  simp [putExtension, fileName?_append named, (isName_iff.mp named).1]

/-- A path with another extension ends in another name, or in a step up. -/
theorem withExtension_append (before : List String) {extension : String}
    (long : 1 < extension.length) :
    ∃ other, (⟨before ++ [name]⟩ : Path).withExtension extension = ⟨before ++ [other]⟩ ∧
      (isName other ∨ other = "..") := by
  have extended (stem : String) : isName (stem ++ "." ++ extension) := by
    apply isName_of_length
    simp only [String.length_append]
    have point : ".".length = 1 := rfl
    omega
  unfold withExtension
  rcases dropExtension_append before name with same | dropped
  · rw [same, putExtension_append named]
    exact ⟨_, rfl, .inl (extended _)⟩
  · have given : name.toList ≠ [] := by
      rintro empty
      rw [String.toList_eq_nil_iff] at empty
      subst empty
      cases named
    have left := List.length_pos_iff.mpr (stem_ne_nil given)
    have long : 1 < (String.ofList (stem name.toList) ++ ".").length := by
      simp only [String.length_append, String.length_ofList]
      have point : ".".length = 1 := rfl
      omega
    rw [dropped]
    rcases isName_or_eq_up long with proper | up
    · rw [putExtension_append proper]
      exact ⟨_, rfl, .inl (extended _)⟩
    · rw [up, putExtension_up]
      exact ⟨_, rfl, .inr rfl⟩

end

end Path

end Sequencer
