/-
Records that are read and written field by field.

A `Codec` pairs a reader with the writer of the same records.  The codecs here are built from
numbers, pairs and counted tables, so that a record is described once and both directions follow.
Reading fails where the bytes end; writing fails only where a table has more rows than its count
can say.
-/
import ClassRelabel.Reader

namespace ClassRelabel

/-- The number of rows of a table, if a count of two bytes can say it. -/
def tableLength (rows : Nat) : Except Fault UInt16 :=
  if rows < 0x10000 then .ok (UInt16.ofNat rows) else .error (.format (.longTable rows))

structure Codec (α : Type) where
  read : Reader α
  write : α → Except Fault Bytes

namespace Codec

variable {α β : Type}

def u8 : Codec UInt8 := ⟨Reader.u8, fun n => .ok [n]⟩

def u16 : Codec UInt16 := ⟨Reader.u16, fun n => .ok (bigEndian 2 n.toNat)⟩

def u32 : Codec UInt32 := ⟨Reader.u32, fun n => .ok (bigEndian 4 n.toNat)⟩

def u64 : Codec UInt64 := ⟨Reader.u64, fun n => .ok (bigEndian 8 n.toNat)⟩

def pair (a : Codec α) (b : Codec β) : Codec (α × β) where
  read := do
    let x ← a.read
    let y ← b.read
    return (x, y)
  write p := do
    let x ← a.write p.1
    let y ← b.write p.2
    return x ++ y

/-- The same bytes under another type. -/
def iso (a : Codec α) (pack : α → β) (unpack : β → α) : Codec β where
  read := pack <$> a.read
  write b := a.write (unpack b)

def writeAll (write : α → Except Fault Bytes) (xs : List α) : Except Fault Bytes := do
  return (← xs.mapM write).flatten

/-- Rows with their count in two bytes in front. -/
def table (a : Codec α) : Codec (List α) where
  read := Reader.table a.read
  write xs := do
    let count ← tableLength xs.length
    let rows ← writeAll a.write xs
    return bigEndian 2 count.toNat ++ rows

/-- Bytes with their count in four bytes in front.  `tooLong` is the fault of more bytes than the
count can say. -/
def block (tooLong : FormatFault) : Codec Bytes where
  read := do
    let length ← Reader.u32
    Reader.take length.toNat
  write bs :=
    if bs.length < 0x100000000 then .ok (bigEndian 4 bs.length ++ bs)
    else .error (.format tooLong)

/-- Text with its length in bytes in two bytes in front. -/
def text : Codec String where
  read := Reader.text
  write s :=
    let bs := ModifiedUtf8.encode s
    if bs.length < 0x10000 then .ok (bigEndian 2 bs.length ++ bs)
    else .error (.format .longString)

/-- Reads a payload that holds one value and nothing else. -/
def decode (a : Codec α) (bs : Bytes) : Except Fault α :=
  a.read.all .trailingPayload bs

end Codec
end ClassRelabel
