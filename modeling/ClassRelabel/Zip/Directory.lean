/-
The directory of a zip archive.

Behind the files of an archive stands a directory with a header for each entry, and behind the
directory an end record that says where it is.  Bytes in front of the archive shift every place in
it, and bytes behind the end record do not count.  An archive with too many entries for its end
record has a wide end record before it.
-/
import ClassRelabel.Text.Codepage
import ClassRelabel.Text.Utf8
import ClassRelabel.Zip.Record

namespace ClassRelabel
namespace Zip

def fileMark : Nat := 0x04034B50

def directoryMark : Nat := 0x02014B50

def endMark : Nat := 0x06054B50

def wideEndMark : Nat := 0x06064B50

def locatorMark : Nat := 0x07064B50

/-- The number in a narrow field that stands for one in a wide field. -/
def wide16 : Nat := 0xFFFF

def wide32 : Nat := 0xFFFFFFFF

/-- Whether names are UTF-8, a bit of the flags. -/
def utf8Flag : Nat := 0x800

/-! ## Finding the directory -/

structure EndRecord where
  place : Nat
  disk : Nat
  directoryDisk : Nat
  entriesHere : Nat
  entries : Nat
  size : Nat
  offset : Nat
  commentLength : Nat
deriving DecidableEq, Repr

/-- Where the directory starts, how far everything is shifted, and how many entries there are. -/
structure Directory where
  start : Nat
  shift : Nat
  entries : Nat
deriving DecidableEq, Repr

/-- `length` bytes from `start` on, or as many as there are. -/
def part (file : Array UInt8) (start length : Nat) : Bytes :=
  (file.extract start (start + length)).toList

/-- Numbers of the given widths from `start` on. -/
def numbers? (file : Array UInt8) (start : Nat) (widths : List Nat) : Option (List Nat) :=
  (Record.read? widths (part file start (Record.size widths))).map Prod.fst

def endLength : Nat := 22

def locatorLength : Nat := 20

/-- The last mark of an end record at a place up to `place`, looking at `n` places. -/
def lastEnd? (file : Array UInt8) : Nat → Nat → Option Nat
  | 0, _ => none
  | n + 1, place =>
    if numbers? file place [4] = some [endMark] then some place
    else if place = 0 then none
    else lastEnd? file n (place - 1)

/-- The end record nearest to the end.  A comment of at most 65535 bytes may follow it. -/
def endRecord? (file : Array UInt8) : Option EndRecord := do
  if file.size < endLength then none else
  let place ← lastEnd? file (wide16 + 1) (file.size - endLength)
  match ← numbers? file place [4, 2, 2, 2, 2, 4, 4, 2] with
  | [_, disk, directoryDisk, entriesHere, entries, size, offset, commentLength] =>
    if file.size < place + endLength + commentLength then none else
    return { place, disk, directoryDisk, entriesHere, entries, size, offset, commentLength }
  | _ => none

namespace EndRecord

/-- Whether a number is left to a wide end record. -/
def isNarrow (e : EndRecord) : Bool :=
  [e.disk, e.directoryDisk, e.entriesHere, e.entries].contains wide16 ||
    [e.size, e.offset].contains wide32

/-- The disk and the place that a locator gives for a wide end record.  It stands before an end
record whose comment ends the file. -/
def locator? (file : Array UInt8) (e : EndRecord) : Option (Nat × Nat) := do
  let length := locatorLength + endLength + e.commentLength
  if file.size < length then none else
  match ← numbers? file (file.size - length) [4, 4, 8, 4] with
  | [mark, disk, place, _] => if mark = locatorMark then some (disk, place) else none
  | _ => none

def directory? (e : EndRecord) : Option Directory :=
  if e.place < e.size + e.offset then
    none
  else
    let shift := e.place - e.size - e.offset
    some ⟨e.offset + shift, shift, e.entriesHere⟩

/-- The place of a wide end record from `place` on, looking at `n` places. -/
def wideEnd? (file : Array UInt8) : Nat → Nat → Option Nat
  | 0, _ => none
  | n + 1, place =>
    if numbers? file place [4] = some [wideEndMark] then some place
    else wideEnd? file n (place + 1)

/-- The directory that a wide end record gives, which was written at `nominal`. -/
def wideDirectory? (file : Array UInt8) (e : EndRecord) (nominal : Nat) : Option Directory := do
  if e.place < 60 then none else
  let place ← wideEnd? file (e.place - 60 + 1 - nominal) nominal
  match ← numbers? file place [4, 8, 2, 2, 4, 4, 8, 8, 8, 8] with
  | [_, _, _, _, disk, directoryDisk, _, entries, _, offset] =>
    if disk = directoryDisk then
      return ⟨offset + (place - nominal), place - nominal, entries⟩
    else
      none
  | _ => none

end EndRecord

def directory? (file : Array UInt8) : Option Directory := do
  let e ← endRecord? file
  if !e.isNarrow && e.disk != e.directoryDisk then none else
  match e.locator? file with
  | none => e.directory?
  | some (disk, nominal) =>
    if !e.isNarrow && e.disk != disk then none else e.wideDirectory? file nominal

/-! ## Reading the directory -/

structure Header where
  flags : Nat
  method : Nat
  time : Nat
  date : Nat
  checksum : Nat
  compressed : Nat
  size : Nat
  /-- Where the header in front of the file stands. -/
  place : Nat
  name : String
deriving DecidableEq, Repr

/-- A number that is wide if its narrow field says so. -/
def widen? (narrow : Nat) (bs : Bytes) : Option (Nat × Bytes) :=
  if narrow = wide32 then
    match Record.read? [8] bs with
    | some ([n], rest) => some (n, rest)
    | _ => none
  else
    some (narrow, bs)

/-- The header with the wide numbers that extra fields bring.  A field that breaks off brings
none. -/
def Header.widen (old : Header) (extra : Bytes) : Header :=
  match h : Record.read? [2, 2] extra with
  | some ([kind, length], rest) =>
    have := Record.length_of_read? h
    if kind ≠ 1 then
      old.widen (rest.drop length)
    else
      match widen? old.size rest with
      | none => old
      | some (size, after) =>
        match widen? old.compressed after with
        | none => { old with size }
        | some (compressed, after) =>
          match widen? old.place after with
          | none => { old with size, compressed }
          | some (place, after) =>
            { old with size, compressed, place }.widen
              (rest.drop (max length (rest.length - after.length)))
  | _ => old
termination_by extra.length
decreasing_by
  all_goals simp_all [Record.size]
  all_goals omega

def headerWidths : List Nat := [4, 2, 2, 2, 2, 2, 2, 4, 4, 4, 2, 2, 2, 2, 2, 4, 4]

def name (flags : Nat) (bs : Bytes) : String :=
  if flags / utf8Flag % 2 = 1 then Utf8.decodeLossy bs else Codepage.decode bs

/-- The header at a place, and the place after it. -/
def header? (file : Array UInt8) (shift place : Nat) : Option (Header × Nat) := do
  match ← numbers? file place headerWidths with
  | [mark, _, _, flags, method, time, date, checksum, compressed, size, nameLength, extraLength,
      commentLength, _, _, _, offset] =>
    let nameStart := place + Record.size headerWidths
    let extraStart := nameStart + nameLength
    let next := extraStart + extraLength + commentLength
    if mark ≠ directoryMark || file.size < next then none else
    let narrow : Header := {
      flags, method, time, date, checksum, compressed, size
      place := offset
      name := name flags (part file nameStart nameLength) }
    let h := narrow.widen (part file extraStart extraLength)
    return ({ h with place := h.place + shift }, next)
  | _ => none

def headersFrom? (file : Array UInt8) (shift : Nat) : Nat → Nat → Option (List Header)
  | 0, _ => some []
  | n + 1, place => do
    let (h, next) ← header? file shift place
    return h :: (← headersFrom? file shift n next)

def headers? (file : Array UInt8) : Option (List Header) := do
  let d ← directory? file
  headersFrom? file d.shift d.entries d.start

end Zip
end ClassRelabel
