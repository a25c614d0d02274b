import Sequencer.Files.Path

/-!
# File trees

A file tree is what lies under a directory: files with their bytes, and directories.
A place in it is the list of names that lead there. Places outside start with `..`, once
for each step up, or with `/`, the outermost directory; nothing lies there at first but the
directories that steps up lead to. Paths are followed part by part, and every part but the
last has to lead to a directory.
-/

namespace Sequencer

/-- Why a file cannot be used. -/
inductive IOFault where
  | notFound
  | alreadyExists
  | notDirectory
  | isDirectory
  | notText
  | other (text : String)
  deriving DecidableEq, Repr

/-- The sentence that reports a fault. -/
def IOFault.message : IOFault → String
  | .notFound => "No such file or directory (os error 2)"
  | .alreadyExists => "File exists (os error 17)"
  | .notDirectory => "Not a directory (os error 20)"
  | .isDirectory => "Is a directory (os error 21)"
  | .notText => "stream did not contain valid UTF-8"
  | .other text => text

/-- What lies at a place in a tree. -/
inductive Entry where
  | file (bytes : List UInt8)
  | directory
  deriving DecidableEq, Repr

/-- What lies at places that are not always directories. -/
structure FileTree where
  entries : List (List String × Entry)
  deriving Repr, Inhabited

/-- Where a path leads. -/
inductive Target where
  | file (place : List String) (bytes : List UInt8)
  | directory
  /-- Nothing lies there, but it could: the directory around it is in the tree. -/
  | missing (place : List String)
  deriving DecidableEq, Repr

namespace FileTree

/-- The tree without files. -/
def empty : FileTree := ⟨[]⟩

/-- Whether a place is the directory of the tree, or one that it lies in. -/
def isRoot (place : List String) : Bool :=
  place = ["/"] || place.all (· = "..")

/-- What lies at a place. -/
def get? (tree : FileTree) (place : List String) : Option Entry :=
  if isRoot place then some .directory else tree.entries.lookup place

/-- What lies under the directory of the tree. -/
def inside (tree : FileTree) : List (List String × Entry) :=
  tree.entries.filter fun (place, _) => place.head? ≠ some ".." && place.head? ≠ some "/"

/-- The tree with an entry at a place. -/
def insert (tree : FileTree) (place : List String) (entry : Entry) : FileTree :=
  ⟨(place, entry) :: tree.entries.filter (·.1 ≠ place)⟩

/-- The tree with directories around a place, as far as nothing lies where they belong. -/
def insertDirectories (tree : FileTree) (place : List String) : FileTree :=
  (List.range place.length).foldl
    (fun tree count =>
      if (tree.get? (place.take count)).isSome then tree
      else tree.insert (place.take count) .directory)
    tree

/-- The tree with a file at a place, and with directories around it. -/
def plant (tree : FileTree) (place : List String) (bytes : List UInt8) : FileTree :=
  (tree.insertDirectories place).insert place (.file bytes)

/-- The tree without the entry at a place. -/
def erase (tree : FileTree) (place : List String) : FileTree :=
  ⟨tree.entries.filter (·.1 ≠ place)⟩

/-- The place of the directory around a directory. -/
def up (place : List String) : List String :=
  if place = ["/"] then place
  else if place.all (· = "..") then place ++ [".."]
  else place.dropLast

/-- Follow the parts of a path from the place of a directory. -/
def follow (tree : FileTree) (directory : List String) : List String → Except IOFault Target
  | [] => .ok .directory
  | part :: rest =>
      if Path.isVoid part then tree.follow directory rest
      else if part = ".." then tree.follow (up directory) rest
      else
        let place := directory ++ [part]
        match tree.get? place with
        | some .directory => tree.follow place rest
        | some (.file bytes) =>
            if rest.isEmpty then .ok (.file place bytes) else .error .notDirectory
        | none => if rest.isEmpty then .ok (.missing place) else .error .notFound

/-- Where a path leads. -/
def resolve (tree : FileTree) (path : Path) : Except IOFault Target :=
  if path.isEmpty then .error .notFound
  else tree.follow (if path.isAbsolute then ["/"] else []) path.parts

/-- Where a path leads when slashes at its end count for nothing. -/
def resolveUnslashed (tree : FileTree) (path : Path) : Except IOFault Target :=
  tree.resolve ⟨(path.parts.reverse.dropWhile (· = "")).reverse⟩

/-- Whether anything lies where a path leads. -/
def isPresent (tree : FileTree) (path : Path) : Bool :=
  match tree.resolve path with
  | .ok (.file ..) => true
  | .ok .directory => true
  | .ok (.missing _) => false
  | .error _ => false

/-- Whether a directory lies where a path leads. -/
def isDirectory (tree : FileTree) (path : Path) : Bool :=
  match tree.resolve path with
  | .ok .directory => true
  | _ => false

/-- The place where a path allows a file to be written. -/
def writable (tree : FileTree) (path : Path) : Except IOFault (List String) :=
  if path.endsInSlash then
    match tree.resolveUnslashed path with
    | .error fault => .error fault
    | .ok _ => .error .isDirectory
  else
    match tree.resolve path with
    | .error fault => .error fault
    | .ok .directory => .error .isDirectory
    | .ok (.file place _) => .ok place
    | .ok (.missing place) => .ok place

/-- Write a file. -/
def write (tree : FileTree) (path : Path) (bytes : List UInt8) : Except IOFault FileTree :=
  (tree.writable path).map fun place => tree.insert place (.file bytes)

/-- Make a directory. -/
def createDirectory (tree : FileTree) (path : Path) : Except IOFault FileTree :=
  match tree.resolveUnslashed path with
  | .error fault => .error fault
  | .ok (.missing place) => .ok (tree.insert place .directory)
  | .ok _ => .error .alreadyExists

/-- The place and the bytes of the file that a path leads to. -/
def file (tree : FileTree) (path : Path) : Except IOFault (List String × List UInt8) :=
  match tree.resolve path with
  | .error fault => .error fault
  | .ok (.missing _) => .error .notFound
  | .ok .directory => .error .isDirectory
  | .ok (.file place bytes) => .ok (place, bytes)

/-- Remove a file. -/
def remove (tree : FileTree) (path : Path) : Except IOFault FileTree :=
  (tree.file path).map fun (place, _) => tree.erase place

/-- Copy a file. -/
def copy (tree : FileTree) (source target : Path) : Except IOFault FileTree :=
  match tree.file source with
  | .error fault => .error fault
  | .ok (_, bytes) => tree.write target bytes

/-- Give a file another path. A file that lies there is replaced. -/
def rename (tree : FileTree) (source target : Path) : Except IOFault FileTree :=
  match tree.file source with
  | .error fault => .error fault
  | .ok (place, bytes) => (tree.erase place).write target bytes

/-- The first of numbered paths at which nothing lies. -/
def firstMissing (tree : FileTree) (candidate : Nat → Path) : Path :=
  candidate
    (((List.range (tree.entries.length + 1)).find? fun index =>
      !tree.isPresent (candidate index)).getD 0)

end FileTree

end Sequencer
