/-
Writing zip archives.

Files are stored as they are.  A directory is written under a path that ends with a separator.
-/
import ClassRelabel.Zip.Decoding

namespace ClassRelabel
namespace Zip

/-- An entry as it is written: its name, the fields that both of its headers have, its bytes and
its place. -/
structure Written where
  name : Bytes
  fields : List (Nat × Nat)
  attributes : Nat
  bytes : Bytes
deriving DecidableEq, Repr

namespace Written

/-- The version of the format that is needed, and the system that writes it. -/
def version : Nat := 20

def madeBy : Nat := 0x0314

def fileAttributes : Nat := 0o100644 * 0x10000

def directoryAttributes : Nat := 0o040755 * 0x10000

def path (e : ArchiveEntry) : String :=
  if e.isDirectory && !endsWithSeparator e.path then e.path ++ "/" else e.path

def ofEntry (e : ArchiveEntry) : Except Fault Written := do
  let time := e.modified.getD .first
  if !time.isStorable then
    throw (.format (.unstorableTime (toString time)))
  let name := Utf8.encode (path e)
  let flags := if name.all (· < 0x80) then 0 else utf8Flag
  let (bytes, attributes) := match e.content with
    | .file bytes => (bytes, fileAttributes)
    | .directory => ([], directoryAttributes)
  let checksum := (Checksum.ofBytes bytes).toNat
  let fields := [(2, version), (2, flags), (2, 0), (2, time.timeWord), (2, time.dateWord),
    (4, checksum), (4, bytes.length), (4, bytes.length), (2, name.length), (2, 0)]
  return { name, fields, attributes, bytes }

def front (w : Written) : Bytes :=
  Record.encode ((4, fileMark) :: w.fields) ++ w.name ++ w.bytes

/-- The header in the directory of an entry at a place. -/
def header (w : Written) (place : Nat) : Bytes :=
  Record.encode ((4, directoryMark) :: (2, madeBy) :: w.fields ++
    [(2, 0), (2, 0), (2, 0), (4, w.attributes), (4, place)]) ++ w.name

/-- The headers of entries that stand one after the other from a place on. -/
def headers : Nat → List Written → List Bytes
  | _, [] => []
  | place, w :: rest => w.header place :: headers (place + w.front.length) rest

end Written

/-- The end of an archive with a directory of `size` bytes at `place`.  More entries than the end
record can count are counted by a wide end record. -/
def ending (entries size place : Nat) : Bytes :=
  let wide := if entries ≤ wide16 then [] else
    Record.encode [(4, wideEndMark), (8, 44), (2, Written.madeBy), (2, Written.version), (4, 0),
        (4, 0), (8, entries), (8, entries), (8, size), (8, place)] ++
      Record.encode [(4, locatorMark), (4, 0), (8, place + size), (4, 1)]
  let count := min entries wide16
  wide ++ Record.encode [(4, endMark), (2, 0), (2, 0), (2, count), (2, count), (4, size),
    (4, place), (2, 0)]

/-- An archive with the given entries in order.  A time outside of the years that can be stored is
a fault. -/
def encode (entries : List ArchiveEntry) : Except Fault Bytes := do
  let written ← entries.mapM Written.ofEntry
  let files := written.flatMap Written.front
  let directory := (Written.headers 0 written).flatten
  return files ++ directory ++ ending written.length directory.length files.length

end Zip
end ClassRelabel
