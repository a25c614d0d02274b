import Sequencer.CommandLine.Application

/-!
# The program on a machine

This module gives the program the machine that it runs on: files, standard streams, the
clock and the environment. What the program does is decided in `Application`.
-/

namespace Sequencer.Machine

/-- The fault that an error of the machine is. The number of an error counts without its
sign. -/
def faultOf (error : IO.Error) : IOFault :=
  match error with
  | .noFileOrDirectory .. => .notFound
  | .alreadyExists .. => .alreadyExists
  | .inappropriateType _ code _ =>
      match code.toInt32.toInt.natAbs with
      | 20 => .notDirectory
      | 21 => .isDirectory
      | _ => .other (toString error)
  | _ => .other (toString error)

/-- An action that answers with the fault if it fails. -/
def attempt {α : Type} (act : IO α) : IO (Except IOFault α) := do
  match ← act.toBaseIO with
  | .ok value => return .ok value
  | .error error => return .error (faultOf error)

/-- Read a file. A directory can be opened, but not read. -/
def readFile (path : Path) : IO (Except ReadFault (List UInt8)) := do
  match ← attempt (IO.FS.readBinFile path.text) with
  | .ok bytes => return .ok bytes.toList
  | .error .isDirectory => return .error (.reading .isDirectory)
  | .error fault => return .error (.opening fault)

/-- Write a file. -/
def writeFile (path : Path) (bytes : List UInt8) : IO Unit :=
  IO.FS.writeBinFile path.text ⟨bytes.toArray⟩

/-- Whether anything lies where a path leads. -/
def isPresent (path : Path) : IO Bool := do
  if path.isEmpty then return false
  ((← IO.currentDir) / path.text).pathExists

/-- Whether a directory lies where a path leads. -/
def isDirectory (path : Path) : IO Bool := do
  if path.isEmpty then return false
  ((← IO.currentDir) / path.text).isDir

/-- The first of numbered paths, from an index on, at which nothing lies. -/
partial def firstMissing (candidate : Nat → Path) (index : Nat) : IO Path := do
  if ← isPresent (candidate index) then firstMissing candidate (index + 1)
  else return candidate index

/-- Add all that is left of a stream to bytes. -/
partial def readRest (stream : IO.FS.Stream) (bytes : ByteArray) : IO ByteArray := do
  let chunk ← stream.read 65536
  if chunk.isEmpty then return bytes else readRest stream (bytes ++ chunk)

/-- The workspace that the machine is. -/
def workspace : Workspace IO where
  read := readFile
  isPresent := isPresent
  isDirectory := isDirectory
  createDirectory path := attempt (IO.FS.createDir path.text)
  write path bytes := attempt (writeFile path bytes)
  remove path := attempt (IO.FS.removeFile path.text)
  rename source target := attempt (IO.FS.rename source.text target.text)
  copy source target := attempt do
    IO.FS.writeBinFile target.text (← IO.FS.readBinFile source.text)
  firstMissing candidate := firstMissing candidate 0
  readInput := do return (← readRest (← IO.getStdin) .empty).toList
  writeOutput bytes := do
    let stream ← IO.getStdout
    stream.write ⟨bytes.toArray⟩
    stream.flush
  writeMessage text := do (← IO.getStderr).putStr text
  clock := IO.monoMsNow

end Sequencer.Machine

/-- Run the program with its arguments. -/
def main (words : List String) : IO UInt32 := do
  let workersVariable ← IO.getEnv "CMDLIST_WORKERS"
  let terminal ← (← IO.getStderr).isTty
  let code ← Sequencer.Application.run Sequencer.Machine.workspace words workersVariable terminal
  return code.toUInt32
