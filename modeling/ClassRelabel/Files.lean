/-
Access to files.

What the program does with files is written over any way to look at them and to write them, so
that it means the same on a disk and in memory.
-/
import ClassRelabel.Fault
import ClassRelabel.Text.Utf8

namespace ClassRelabel

inductive FileState where
  | missing
  /-- A directory, or a file that cannot be read. -/
  | unreadable
  | file (bytes : Bytes)
deriving DecidableEq, Repr

structure FileAccess (m : Type → Type) where
  look : String → m FileState
  /-- Writes a file, or tells that it could not be written. -/
  write : String → Bytes → m Bool

namespace FileAccess

variable {m : Type → Type} [Monad m] (access : FileAccess m)

def require (path : String) (cause : ConfigFault) : ExceptT Fault m Unit := do
  if (← access.look path) = .missing then throw (.config cause)

def readBytes (path : String) : ExceptT Fault m Bytes := do
  match ← access.look path with
  | .file bytes => return bytes
  | _ => throw .io

/-- A file that is no UTF-8 cannot be read as text. -/
def readText (path : String) : ExceptT Fault m String := do
  match Utf8.decode? (← access.readBytes path) with
  | some text => return text
  | none => throw .io

def writeBytes (path : String) (bytes : Bytes) : ExceptT Fault m Unit := do
  if !(← access.write path bytes) then throw .io

end FileAccess
end ClassRelabel
