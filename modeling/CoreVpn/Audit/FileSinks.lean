import CoreVpn.Lib.Computation
import CoreVpn.Lib.Lines
import CoreVpn.Lib.Rotation
import CoreVpn.Lib.Wire

namespace CoreVpn.Audit.FileSinks

open Lib.Computation Lib.Wire Lib.Text Lib.Lines Lib.Rotation

inductive RotationStrategy where
  | none
  | size
  | daily
  | hourly
  | sizeAndDaily
  deriving DecidableEq, Repr

structure FileConfig where
  path : String
  rotation : RotationStrategy
  maxSize : Nat
  maxFiles : Nat
  bufferSize : Nat

structure Surroundings where
  date : String
  hour : String
  host : String

/-- The files by their names, and the sink's own view of them: the lines that it
has yet to write, whether its file is open, and the path and the size of it. -/
structure FileSink where
  files : Files String Bytes
  buffer : List String
  isOpen : Bool
  currentPath : String
  currentSize : Nat

variable {E ε : Type} (c : FileConfig) (now : Surroundings)

def resolvePath (template : String) : String :=
  replace (replace (replace template "\x7bdate\x7d" now.date) "\x7bhour\x7d" now.hour) "\x7bhost\x7d" now.host

def FileSink.new (files : Files String Bytes) : FileSink where
  files := files
  buffer := []
  isOpen := false
  currentPath := resolvePath now c.path
  currentSize := 0

def followPath (s : FileSink) : FileSink :=
  let newPath := resolvePath now c.path
  if s.currentPath ≠ newPath then { s with isOpen := false, currentPath := newPath, currentSize := 0 } else s

def openFile (s : FileSink) : FileSink :=
  if s.isOpen then s
  else
    let files := create s.currentPath [] s.files
    { s with files, currentSize := ((files s.currentPath).getD []).length, isOpen := true }

def getOrOpenFile (s : FileSink) : FileSink := openFile (followPath c now s)

def checkRotation (s : FileSink) : Bool :=
  match c.rotation with
  | .size | .sizeAndDaily => decide (s.currentSize ≥ c.maxSize)
  | _ => false

def backup (path : String) (i : Nat) : String := path ++ "." ++ toString i

/-- The backups from number `i` down to 1 get the next number. -/
def renameBackups (path : String) : Nat → Files String Bytes → Files String Bytes
  | 0, files => files
  | i + 1, files => renameBackups path i (rename (backup path (i + 1)) (backup path (i + 2)) files)

def rotate (s : FileSink) : FileSink :=
  let files := renameBackups s.currentPath (c.maxFiles - 1) s.files
  { s with files := rename s.currentPath (backup s.currentPath 1) files, isOpen := false, currentSize := 0 }

def writeLine (s : FileSink) (line : String) : FileSink :=
  { s with
    files := Function.update s.files s.currentPath (some ((s.files s.currentPath).getD [] ++ asBytes line))
    currentSize := s.currentSize + (asBytes line).length }

def writeLines (lines : List String) (s : FileSink) : FileSink :=
  if lines.isEmpty then s
  else
    let s := if checkRotation c s then rotate c s else s
    lines.foldl writeLine (getOrOpenFile c now s)

/-- The operations on files succeed, the encoding of an event may fail. -/
def send (encode : E → Except ε String) (event : E) : Program FileSink ε Unit := do
  match encode event with
  | .error e => fail e
  | .ok line =>
    modify fun s => { s with buffer := s.buffer ++ [line] }
    modify fun s => if s.buffer.length ≥ c.bufferSize then writeLines c now s.buffer { s with buffer := [] } else s

def flush : Program FileSink ε Unit :=
  modify fun s => writeLines c now s.buffer { s with buffer := [] }

inductive Call (E : Type) where
  | send (now : Surroundings) (event : E)
  | flush (now : Surroundings)

def step (encode : E → Except ε String) (s : FileSink) : Call E → Outcome ε Unit × FileSink
  | .send now event => send c now encode event s
  | .flush now => flush c now s

end CoreVpn.Audit.FileSinks
