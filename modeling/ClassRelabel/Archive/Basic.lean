/-
Archives as lists of entries.
-/
import ClassRelabel.Archive.Timestamp
import ClassRelabel.Bytes

namespace ClassRelabel

inductive Content where
  | file (bytes : Bytes)
  | directory
deriving DecidableEq, Repr

/-- A file or directory in an archive.  Without a time it gets the first one that can be
stored. -/
structure ArchiveEntry where
  path : String
  content : Content
  modified : Option Timestamp
deriving DecidableEq, Repr

namespace Content

def isDirectory : Content → Bool
  | directory => true
  | file _ => false

end Content

namespace ArchiveEntry

def isDirectory (e : ArchiveEntry) : Bool := e.content.isDirectory

def isClass (e : ArchiveEntry) : Bool := !e.isDirectory && e.path.endsWith ".class"

end ArchiveEntry
end ClassRelabel
