/-!
# Paths

A path is the list of its parts, the stretches of text between slashes. Empty parts
and single points name nothing, except a point at the very start. The parts are kept
as they are given, so a path is shown the way it was written.
-/

namespace Sequencer

/-- A path as it is written. -/
structure Path where
  parts : List String
  deriving DecidableEq, Repr, Inhabited

namespace Path

/-- The stretches of a text between slashes. -/
def split : List Char → List (List Char)
  | [] => [[]]
  | c :: rest =>
      if c = '/' then [] :: split rest
      else
        match split rest with
        | [] => [[c]]
        | part :: parts => (c :: part) :: parts

/-- The path that a text writes. -/
def ofText (text : String) : Path := ⟨(split text.toList).map String.ofList⟩

/-- A path as text. -/
def text (path : Path) : String := "/".intercalate path.parts

/-- The path with nothing in it, which names the place where one stands. -/
def here : Path := ⟨[""]⟩

/-- Whether a path has nothing in it. -/
def isEmpty (path : Path) : Bool := path = here

/-- Whether a path starts with a slash. -/
def isAbsolute (path : Path) : Bool :=
  match path.parts with
  | "" :: _ :: _ => true
  | _ => false

/-- Whether a path ends in a slash. -/
def endsInSlash (path : Path) : Bool :=
  match path.parts with
  | _ :: more => more.getLast? = some ""
  | [] => false

/-- Whether a part names nothing. -/
def isVoid (part : String) : Bool := part = "" || part = "."

/-- The parts of a path that name something, and a point at the start. -/
def components (path : Path) : List String :=
  match path.parts with
  | [] => []
  | first :: rest =>
      (if first = "" then [] else [first]) ++ rest.filter fun part => !isVoid part

/-- The path with given components. -/
def ofComponents (absolute : Bool) (components : List String) : Path :=
  let parts := if components.isEmpty then [""] else components
  ⟨if absolute then "" :: parts else parts⟩

/-- The path of the directory that a path lies in. -/
def parent? (path : Path) : Option Path :=
  if path.components.isEmpty then none
  else some (ofComponents path.isAbsolute path.components.dropLast)

/-- The name at the end of a path. -/
def fileName? (path : Path) : Option String :=
  match path.components.getLast? with
  | none => none
  | some name => if name = "." ∨ name = ".." then none else some name

/-- A path and the directories around it, the innermost first. -/
def ancestors (path : Path) : List Path :=
  path :: (List.range path.components.length).map fun dropped =>
    ofComponents path.isAbsolute
      (path.components.take (path.components.length - (dropped + 1)))

/-- The path of a name in a directory. -/
def join (directory : Path) (name : String) : Path :=
  if directory.endsInSlash || directory.isEmpty then ⟨directory.parts.dropLast ++ [name]⟩
  else ⟨directory.parts ++ [name]⟩

/-- A name without its extension. A point at the start of a name begins no extension. -/
def stem (name : List Char) : List Char :=
  if (name.drop 1).contains '.' then ((name.reverse.dropWhile (· ≠ '.')).drop 1).reverse
  else name

/-- A path with its extension taken off the very end. The point in front of it stays. -/
def dropExtension (path : Path) : Path :=
  match path.parts.getLast? with
  | none => path
  | some name =>
      if isVoid name ∨ name = ".." ∨ stem name.toList = name.toList then path
      else ⟨path.parts.dropLast ++ [String.ofList (stem name.toList) ++ "."]⟩

/-- A path with another extension than that of its name, if it has any. Nothing changes if
no name stands at the end. -/
def putExtension (path : Path) (extension : String) : Path :=
  match path.fileName? with
  | none => path
  | some name =>
      let named := (path.parts.reverse.dropWhile isVoid).reverse
      ⟨named.dropLast ++ [String.ofList (stem name.toList) ++ "." ++ extension]⟩

/-- A path with its extension taken off and another one put on. Taken off `..x` it leaves
`..`, which is no name, so nothing is put on there. -/
def withExtension (path : Path) (extension : String) : Path :=
  path.dropExtension.putExtension extension

end Path

end Sequencer
