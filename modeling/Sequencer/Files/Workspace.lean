import Sequencer.Files.Tree

/-!
# Workspaces

A workspace is what a command needs from the machine it runs on: a file tree, a
standard input, a standard output, a place for messages, and a clock. Commands are
written over any workspace. `World` is a workspace that is a plain value, so that
what a command does can be computed and reasoned about.
-/

namespace Sequencer

/-- Why a file cannot be read: it cannot be opened, or what it holds cannot be had. -/
inductive ReadFault where
  | opening (fault : IOFault)
  | reading (fault : IOFault)
  deriving DecidableEq, Repr

/-- The fault itself. -/
def ReadFault.fault : ReadFault → IOFault
  | .opening fault => fault
  | .reading fault => fault

/-- What a command needs from the machine. -/
structure Workspace (m : Type → Type) where
  read : Path → m (Except ReadFault (List UInt8))
  isPresent : Path → m Bool
  isDirectory : Path → m Bool
  createDirectory : Path → m (Except IOFault Unit)
  write : Path → List UInt8 → m (Except IOFault Unit)
  remove : Path → m (Except IOFault Unit)
  rename : Path → Path → m (Except IOFault Unit)
  copy : Path → Path → m (Except IOFault Unit)
  /-- The first of numbered paths at which nothing lies. -/
  firstMissing : (Nat → Path) → m Path
  /-- All that is left of the standard input. -/
  readInput : m (List UInt8)
  writeOutput : List UInt8 → m Unit
  writeMessage : String → m Unit
  /-- The clock, in milliseconds. -/
  clock : m Nat

/-- A workspace as a value. -/
structure World where
  tree : FileTree := .empty
  input : List UInt8 := []
  output : List UInt8 := []
  messages : String := ""
  time : Nat := 0
  deriving Inhabited

namespace World

/-- Look at the tree. -/
def look {α : Type} (question : FileTree → α) : StateM World α := fun world =>
  (question world.tree, world)

/-- Change the tree, unless that fails. -/
def change (act : FileTree → Except IOFault FileTree) : StateM World (Except IOFault Unit) :=
  fun world =>
    match act world.tree with
    | .error fault => (.error fault, world)
    | .ok tree => (.ok (), { world with tree })

/-- Read a file. A directory can be opened, but not read. -/
def readFile (path : Path) (tree : FileTree) : Except ReadFault (List UInt8) :=
  match tree.file path with
  | .ok (_, bytes) => .ok bytes
  | .error .isDirectory => .error (.reading .isDirectory)
  | .error fault => .error (.opening fault)

/-- The workspace that a value is. -/
def workspace : Workspace (StateM World) where
  read path := look (readFile path)
  isPresent path := look fun tree => tree.isPresent path
  isDirectory path := look fun tree => tree.isDirectory path
  createDirectory path := change fun tree => tree.createDirectory path
  write path bytes := change fun tree => tree.write path bytes
  remove path := change fun tree => tree.remove path
  rename source target := change fun tree => tree.rename source target
  copy source target := change fun tree => tree.copy source target
  firstMissing candidate := look fun tree => tree.firstMissing candidate
  readInput := fun world => (world.input, { world with input := [] })
  writeOutput bytes := fun world => ((), { world with output := world.output ++ bytes })
  writeMessage text := fun world => ((), { world with messages := world.messages ++ text })
  clock := fun world => (world.time, world)

end World

end Sequencer
