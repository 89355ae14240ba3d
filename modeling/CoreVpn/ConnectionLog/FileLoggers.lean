import CoreVpn.Lib.Computation
import CoreVpn.Lib.Rotation
import CoreVpn.Lib.Text
import CoreVpn.Server.Events

namespace CoreVpn.ConnectionLog.FileLoggers

open Lib.Computation Lib.Wire Lib.Text Lib.Rotation Server.Events

/-- The path of a file whose name has an extension, which is what follows its last dot. -/
structure PathBuf where
  stem : String
  extension : String
  deriving DecidableEq

def PathBuf.text (path : PathBuf) : String := path.stem ++ "." ++ path.extension

def PathBuf.withExtension (path : PathBuf) (extension : String) : PathBuf := { path with extension }

structure Settings where
  path : PathBuf
  maxSize : Nat
  maxFiles : Nat
  secureDelete : Bool

/-- The files by their names, what the writer has taken and not yet passed on to
its file, and the number of events since the last flush. -/
structure FileConnectionLogger where
  files : Files String Bytes
  writer : Option Bytes
  pending : Nat

inductive LogError where
  | notOpen
  deriving DecidableEq

abbrev Logger := Program FileConnectionLogger LogError Unit

variable (c : Settings)

section Writing

def capacity : Nat := 8192

def append (data : Bytes) (s : FileConnectionLogger) : FileConnectionLogger :=
  { s with files := Function.update s.files c.path.text (some ((s.files c.path.text).getD [] ++ data)) }

def flushBuf (s : FileConnectionLogger) : FileConnectionLogger :=
  match s.writer with
  | some buffer => { append c buffer s with writer := some [] }
  | none => s

/-- What does not fit into the buffer is written after it, and what would fill all
of it goes past it. -/
def writeAll (data : Bytes) (s : FileConnectionLogger) : FileConnectionLogger :=
  match s.writer with
  | some buffer =>
    if data.length < capacity - buffer.length then { s with writer := some (buffer ++ data) }
    else
      let s := if data.length > capacity - buffer.length then flushBuf c s else s
      if data.length ≥ capacity then append c data s else { s with writer := s.writer.map (· ++ data) }
  | none => s

end Writing

section Deleting

def zeros (n : Nat) : Bytes := List.replicate n 0

def pattern (pass n : Nat) : Bytes :=
  (List.range n).map fun j => UInt8.ofNat ((j % 4096 * 0x5A + pass) &&& 0xFF)

def overwrite (name : String) (n : Nat) (files : Files String Bytes) (pass : Nat) : Files String Bytes :=
  let files := Function.update files name (some (zeros n))
  if pass < 2 then Function.update files name (some (pattern pass n)) else files

def secureDeleteFile (name : String) (files : Files String Bytes) : Files String Bytes :=
  match files name with
  | none => files
  | some [] => remove name files
  | some contents => remove name ([0, 1, 2].foldl (overwrite name contents.length) files)

end Deleting

def openFile : Logger := modify fun s =>
  { s with files := create c.path.text [] s.files, writer := some [] }

def renameOne (i : Nat) (files : Files String Bytes) : Files String Bytes :=
  let source := if i = 1 then c.path else c.path.withExtension ("log." ++ toString (i - 1))
  let target := c.path.withExtension ("log." ++ toString i)
  if (files source.text).isSome then
    let files := if (files target.text).isSome && c.secureDelete then secureDeleteFile target.text files else files
    rename source.text target.text files
  else files

def renameEach : Nat → Files String Bytes → Files String Bytes
  | 0, files => files
  | i + 1, files => renameEach i (renameOne c (i + 1) files)

def deleteOldest (files : Files String Bytes) : Files String Bytes :=
  let oldest := c.path.withExtension ("log." ++ toString c.maxFiles)
  if (files oldest.text).isSome then
    if c.secureDelete then secureDeleteFile oldest.text files else remove oldest.text files
  else files

/-- The size is that of the file, without what is still in the writer's buffer. -/
def rotateIfNeeded : Logger := do
  let s ← get
  match s.files c.path.text with
  | none => return ()
  | some contents =>
    if contents.length < c.maxSize then return ()
    else
      modify fun s => { flushBuf c s with writer := none }
      modify fun s => { s with files := deleteOldest c (renameEach c (c.maxFiles - 1) s.files) }
      openFile c

variable (toJson : ConnectionEvent → String)

/-- The text of the event and the end of the line are written one after the other. -/
def writeEvent (event : ConnectionEvent) : Logger := do
  let s ← get
  if s.writer.isSome then
    modify fun s => writeAll c (asBytes "\n") (writeAll c (asBytes (toJson event)) s)
    modify fun s => { s with pending := s.pending + 1 }
  else fail .notOpen

def flush : Logger := modify fun s =>
  if s.writer.isSome then { flushBuf c s with pending := 0 } else s

def log (event : ConnectionEvent) : Logger := do
  rotateIfNeeded c
  writeEvent c toJson event
  let s ← get
  if s.pending ≥ 100 then flush c else return ()

def cleanup : Logger := rotateIfNeeded c

/-- A megabyte is the least size at which a file is rotated, and one file is kept in any case. -/
def Settings.new (path : PathBuf) (maxSize maxFiles : Nat) (secureDelete : Bool) : Settings where
  path := path
  maxSize := max maxSize (1024 * 1024)
  maxFiles := max maxFiles 1
  secureDelete := secureDelete

def FileConnectionLogger.new (files : Files String Bytes) : FileConnectionLogger :=
  (openFile c ⟨files, none, 0⟩).2

inductive Call where
  | log (event : ConnectionEvent)
  | flush
  | cleanup

def step (s : FileConnectionLogger) : Call → Outcome LogError Unit × FileConnectionLogger
  | .log event => log c toJson event s
  | .flush => flush c s
  | .cleanup => cleanup c s

end CoreVpn.ConnectionLog.FileLoggers
