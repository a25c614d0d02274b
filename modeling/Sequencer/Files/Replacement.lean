import Sequencer.Files.Workspace

/-!
# Replacing files

A file is replaced in one step: its new content is written beside it under a name
that is not taken, and then given its path. So whoever looks at the path sees the old
content or the new one. Directories are made from the outside to the inside.
-/

namespace Sequencer

/-- Why a file cannot be replaced. -/
inductive ReplaceFault where
  | noParent (path : Path)
  | io (fault : IOFault)
  deriving DecidableEq, Repr

/-- The sentence that reports why a file cannot be replaced. -/
def ReplaceFault.message : ReplaceFault → String
  | .noParent path => "output path has no parent: " ++ path.text
  | .io fault => fault.message

namespace Path

/-- The numbered paths in a directory beside a file with a name. -/
def temporary (directory : Path) (name : String) (index : Nat) : Path :=
  directory.join (name ++ s!".tmp{index}")

end Path

namespace Workspace

variable {m : Type → Type} [Monad m]

/-- Make the first of some directories, each of which lies in the next one. One that is
there already counts as made. -/
def createNested (workspace : Workspace m) : List Path → m (Except IOFault Unit)
  | [] => return .error (.other "failed to create whole tree")
  | path :: around => do
      if path.isEmpty then return .ok ()
      match ← workspace.createDirectory path with
      | .ok () => return .ok ()
      | .error .notFound =>
          match ← workspace.createNested around with
          | .error fault => return .error fault
          | .ok () => orPresent path (← workspace.createDirectory path)
      | .error fault => orPresent path (.error fault)
where
  /-- What comes of making a directory, if it counts as made when it is there. -/
  orPresent (path : Path) : Except IOFault Unit → m (Except IOFault Unit)
    | .ok () => return .ok ()
    | .error fault => do
        if ← workspace.isDirectory path then return .ok () else return .error fault

/-- Make a directory and all directories around it. -/
def createAll (workspace : Workspace m) (path : Path) : m (Except IOFault Unit) :=
  workspace.createNested path.ancestors

/-- Replace a file. If it cannot be given its path, it is copied there. -/
def replace (workspace : Workspace m) (path : Path) (bytes : List UInt8) :
    m (Except ReplaceFault Unit) := do
  match path.parent? with
  | none => return .error (.noParent path)
  | some directory =>
      let beside ←
        workspace.firstMissing (directory.temporary (path.fileName?.getD ""))
      match ← workspace.write beside bytes with
      | .error fault => return .error (.io fault)
      | .ok () =>
          if ← workspace.isPresent path then
            let _ ← workspace.remove path
          match ← workspace.rename beside path with
          | .ok () => return .ok ()
          | .error _ =>
              match ← workspace.copy beside path with
              | .error fault => return .error (.io fault)
              | .ok () => return (← workspace.remove beside).mapError .io

end Workspace

end Sequencer
