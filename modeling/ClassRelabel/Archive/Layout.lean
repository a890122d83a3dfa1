/-
The canonical layout of an archive.

`Archive.canonical` gives every archive with the same files and directories the same list of
entries: paths have slashes only and none in front, every directory is there and ends with a
slash, the time is always the same, and the entries are sorted.  The manifest comes last, after
its directory.
-/
import Std.Data.ExtTreeMap
import ClassRelabel.Archive.Basic
import ClassRelabel.Fault

namespace ClassRelabel
namespace Archive

open Std (ExtTreeMap)

/-! ## Paths -/

def withoutSlashesBehind (cs : List Char) : List Char :=
  (cs.reverse.dropWhile (· == '/')).reverse

/-- A path in canonical form, which is empty for the root. -/
def normalChars (cs : List Char) (isDirectory : Bool) : List Char :=
  let slashed := (cs.map fun c => if c == '\\' then '/' else c).dropWhile (· == '/')
  if isDirectory then
    match withoutSlashesBehind slashed with
    | [] => []
    | body => body ++ ['/']
  else
    slashed

def normalPath (path : String) (isDirectory : Bool) : String :=
  String.ofList (normalChars path.toList isDirectory)

/-- The beginnings of a path that end with a slash. -/
def directoriesOf : List Char → List (List Char)
  | [] => []
  | c :: rest =>
    let deeper := (directoriesOf rest).map (c :: ·)
    if c = '/' then [c] :: deeper else deeper

def parents (path : String) : List String :=
  (directoriesOf (withoutSlashesBehind path.toList)).map String.ofList

/-! ## Contents -/

abbrev Contents := ExtTreeMap String Content compare

/-- Enters an entry.  A directory may be there before, but a file may not. -/
def enter (contents : Contents) (e : ArchiveEntry) : Except Fault Contents :=
  let path := normalPath e.path e.isDirectory
  if path.isEmpty then
    .ok contents
  else
    match e.content with
    | .directory => .ok (contents.insertIfNew path .directory)
    | .file bytes =>
      if contents.contains path then .error (.duplicateEntry path)
      else .ok (contents.insert path (.file bytes))

def withParents (contents : Contents) : Contents :=
  (contents.keys.flatMap parents).foldl (fun t path => t.insertIfNew path .directory) contents

/-! ## Order -/

/-- What comes after everything else. -/
def rank (path : String) : Nat :=
  if path = "META-INF/" then 1 else if path = "META-INF/MANIFEST.MF" then 2 else 0

def sortKey (path : String) : List Char := withoutSlashesBehind path.toList

/-- Whether one path may stand before another.  Slashes at the end do not count. -/
def precedes (a b : String) : Bool :=
  rank a < rank b || (rank a = rank b && (compare (sortKey a) (sortKey b)).isLE)

def canonicalTime : Timestamp := ⟨1989, 11, 26, 0, 0, 0⟩

/-- The canonical layout.  Two files with the same path are a fault. -/
def canonical (entries : List ArchiveEntry) : Except Fault (List ArchiveEntry) := do
  let contents ← entries.foldlM enter ∅
  let listed := (withParents contents).toList.map fun (path, content) =>
    (⟨path, content, some canonicalTime⟩ : ArchiveEntry)
  return listed.mergeSort fun a b => precedes a.path b.path

end Archive
end ClassRelabel
