/-
Relabelled archives.

`Archive.relabel` relabels the classes of an archive and leaves all else as it is.  First the
mappings are completed: members that the classes of the archive or of its libraries declare keep
their new names in the classes that inherit them.  Names for parameters of methods without a body
can be listed in a file of their own at the end.
-/
import Std.Data.ExtTreeSet
import ClassRelabel.Archive.Basic
import ClassRelabel.Hierarchy.Completion
import ClassRelabel.Relabel.Class
import ClassRelabel.Text.Utf8

namespace ClassRelabel
namespace Archive

open Std (ExtTreeSet)

/-! ## Input -/

def classOf? (e : ArchiveEntry) : Except Fault (Option (String × ClassFile)) :=
  match e.content with
  | .directory => .ok none
  | .file bytes =>
    if e.isClass then
      match ClassFile.parse bytes with
      | .ok c => do return some (← c.name, c)
      | .error cause => .error (.inClass e.path cause)
    else
      .ok none

/-- What a library entry adds to the hierarchy, if it can be read. -/
def shapeOf? (e : ArchiveEntry) : Option ClassShape :=
  match classOf? e with
  | .ok (some (_, c)) => (ClassShape.ofClass c).toOption
  | _ => none

/-- Of classes with the same name the first one counts, and the archive comes before its
libraries. -/
def hierarchy (classes : List ClassFile) (libraries : List ArchiveEntry) :
    Except Fault Hierarchy := do
  let shapes ← classes.mapM ClassShape.ofClass
  return (shapes ++ libraries.filterMap shapeOf?).foldl Hierarchy.insert .empty

/-! ## Output -/

/-- The path of a relabelled class.  What stands before the name of the class in its path is
kept. -/
def renamedPath (path formerName name : String) : String :=
  let former := (formerName ++ ".class").toList
  let cs := path.toList
  let front := if former.isSuffixOf cs then cs.take (cs.length - former.length) else []
  String.ofList front ++ name ++ ".class"

/-- An entry after relabelling, and the names to list with it. -/
def relabelEntry (m : Mappings) (d : Option Dictionary) :
    ArchiveEntry × Option (String × ClassFile) → Except Fault (ArchiveEntry × List ParameterNames)
  | (e, none) => .ok (e, [])
  | (e, some (name, c)) =>
    match c.relabel m d with
    | .ok new =>
      .ok ({ e with
        path := renamedPath e.path new.formerName new.name
        content := .file new.bytes }, new.parameterNames)
    | .error cause => .error (.inClass name cause)

/-- Refuses a file whose path is the path of an earlier file. -/
def checkPaths (seen : ExtTreeSet String compare) : List ArchiveEntry → Except Fault Unit
  | [] => .ok ()
  | e :: rest =>
    if e.isDirectory then checkPaths seen rest
    else if seen.contains e.path then .error (.duplicateEntry e.path)
    else checkPaths (seen.insert e.path) rest

/-! ## Listing -/

def listingPath : String := "fernflower_abstract_parameter_names.txt"

/-- Names are listed by class, method, descriptor and then by themselves. -/
def listingKey (p : ParameterNames) : List String :=
  p.method.owner :: p.method.name :: p.method.descriptor :: p.names

/-- The file that lists names, unless there are none. -/
def listing? (names : List ParameterNames) : Option ArchiveEntry :=
  if names.isEmpty then
    none
  else
    let sorted := names.mergeSort fun a b => (compare (listingKey a) (listingKey b)).isLE
    let text := String.join (sorted.map fun p => p.line ++ "\n")
    some ⟨listingPath, .file (Utf8.encode text), none⟩

/-- The entries under their new names.  Libraries only tell which members are inherited. -/
def relabel (m : Mappings) (d : Option Dictionary) (lists : Bool)
    (input libraries : List ArchiveEntry) : Except Fault (List ArchiveEntry) := do
  let classes ← input.mapM classOf?
  let present := classes.filterMap id
  let h ← hierarchy (present.map Prod.snd) libraries
  let m := m.complete h (present.map Prod.fst)
  let relabelled ← (input.zip classes).mapM (relabelEntry m d)
  let entries := relabelled.map Prod.fst
  let listing := if lists then listing? (relabelled.flatMap Prod.snd) else none
  let output := entries ++ listing.toList
  checkPaths ∅ output
  return output

end Archive
end ClassRelabel
