import Sequencer.Json.Records
import Sequencer.Settings.Basic

/-!
# Settings as a document

Settings are read from a JSON document. Whatever it leaves out keeps its usual value.
The document as a whole refuses members that it does not know; the records inside it
pass them.
-/

namespace Sequencer

open Json Json.Reading

/-- Read a number of channels. -/
def readChannels : Reading UInt8 :=
  return UInt8.ofNat (← natBelow UInt8.size "u8")

/-- Read a machine word. -/
def readCount : Reading Nat := natBelow Numeral.wordBound "usize"

/-- The record of the numbers of channels. -/
def Limits.shape : Shape Limits where
  name := "CompilerOptions"
  fields :=
    [ ⟨"ttl_channels", fun limits => return { limits with ttl := ← readChannels }⟩
    , ⟨"dds_channels", fun limits => return { limits with dds := ← readChannels }⟩
    , ⟨"dac_channels", fun limits => return { limits with dac := ← readChannels }⟩ ]

/-- The record of the worker pool. -/
def PoolSettings.shape : Shape PoolSettings where
  name := "ServiceConfig"
  fields :=
    [ ⟨"workers", fun pool => return { pool with workers := some (← readCount) }⟩
    , ⟨"queue_bound", fun pool => return { pool with queueBound := ← optional readCount }⟩
    , ⟨"thread_name", fun pool => return { pool with threadName := ← text }⟩ ]

/-- The record of all settings. -/
def Settings.shape : Shape Settings where
  name := "Settings"
  fields :=
    [ ⟨"compiler", fun settings =>
        return { settings with compiler := ← record Limits.shape {} }⟩
    , ⟨"service", fun settings =>
        return { settings with pool := ← record PoolSettings.shape {} }⟩ ]
  isClosed := true

/-- The numbers of channels in a document. -/
def Limits.ofText (text : List Char) : Except ReadError Limits :=
  readText (record Limits.shape {}) text

/-- The worker pool in a document. -/
def PoolSettings.ofText (text : List Char) : Except ReadError PoolSettings :=
  readText (record PoolSettings.shape {}) text

/-- The settings in a document. -/
def Settings.ofText (text : List Char) : Except ReadError Settings :=
  readText (record Settings.shape {}) text

end Sequencer
