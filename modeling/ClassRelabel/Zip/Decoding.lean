/-
Reading zip archives.

The directory decides which entries there are, what they are called and when they were modified.
A second header in front of a file only says where its bytes begin.  An entry whose name ends with
a separator is a directory.

Reading fails with `Fault.archive` where headers are missing or ask for something unknown, and
with `Fault.io` where the bytes of a file are broken.
-/
import ClassRelabel.Archive.Basic
import ClassRelabel.Fault
import ClassRelabel.Zip.Checksum
import ClassRelabel.Zip.Deflate
import ClassRelabel.Zip.Directory

namespace ClassRelabel
namespace Zip

def endsWithSeparator (path : String) : Bool :=
  path.toList.getLast?.any fun c => c == '/' || c == '\\'

inductive Method where
  | stored
  | deflated
deriving DecidableEq, Repr

namespace Method

def ofCode? : Nat → Option Method
  | 0 => some stored
  | 8 => some deflated
  | _ => none

def restore? : Method → Bytes → Option Bytes
  | stored, bs => some bs
  | deflated, bs => Deflate.inflate? bs

end Method

/-- Where the bytes of a file start, and how they are kept.  Encrypted files are not read. -/
def locate? (file : Array UInt8) (h : Header) : Option (Nat × Method) := do
  if h.flags % 2 = 1 then none else
  let start := h.place + 30
  match ← numbers? file h.place [4, 22, 2, 2] with
  | [mark, _, nameLength, extraLength] =>
    if mark ≠ fileMark then none else
    return (start + nameLength + extraLength, ← Method.ofCode? h.method)
  | _ => none

def content? (bs : Bytes) (method : Method) (checksum : Nat) : Option Bytes := do
  let restored ← method.restore? bs
  if (Checksum.ofBytes restored).toNat = checksum then some restored else none

def entry (file : Array UInt8) (h : Header) : Except Fault ArchiveEntry := do
  let modified := Timestamp.ofWords? h.date h.time
  match locate? file h with
  | none => .error .archive
  | some (start, method) =>
    if endsWithSeparator h.name then
      .ok ⟨h.name, .directory, modified⟩
    else
      match content? (part file start h.compressed) method h.checksum with
      | some bytes => .ok ⟨h.name, .file bytes, modified⟩
      | none => .error .io

/-- The entries of an archive in the order of its directory. -/
def decode (bs : Bytes) : Except Fault (List ArchiveEntry) :=
  let file := bs.toArray
  match headers? file with
  | some hs => hs.mapM (entry file)
  | none => .error .archive

end Zip
end ClassRelabel
