/-
Annotations and their values.

A value is a constant, or holds further values as an array or an annotation, to any depth.  The
reader takes as fuel the number of unread bytes: a value takes a byte for its tag before the
values inside it are read, so the fuel lasts as long as there are bytes.
-/
import ClassRelabel.Attribute.Basic

namespace ClassRelabel

inductive ElementValue where
  /-- A number, a character, a truth value or a text, as its tag says. -/
  | const (tag : UInt8) (value : Index)
  | enum (type name : Index)
  /-- A class, by the descriptor of a result. -/
  | classInfo (descriptor : Index)
  | nested (type : Index) (elements : List (Index × ElementValue))
  | array (values : List ElementValue)

structure Annotation where
  type : Index
  elements : List (Index × ElementValue)

namespace ElementValue

/-- The tags `B`, `C`, `D`, `F`, `I`, `J`, `S`, `Z` and `s`. -/
def isConstTag (tag : UInt8) : Bool :=
  [0x42, 0x43, 0x44, 0x46, 0x49, 0x4A, 0x53, 0x5A, 0x73].contains tag

/-- The type and the elements of an annotation, by a reader of values. -/
def readAnnotation (value : Reader ElementValue) : Reader Annotation := do
  let type ← Reader.u16
  let elements ← Reader.table do
    let name ← Reader.u16
    return (name, ← value)
  return ⟨type, elements⟩

def readWithin : Nat → Reader ElementValue
  | 0 => do throw (.endOfData (← get).offset 1)
  | fuel + 1 => do
    let tag ← Reader.u8
    if isConstTag tag then
      return const tag (← Reader.u16)
    else
      match tag.toNat with
      | 0x65 =>
        let type ← Reader.u16
        return enum type (← Reader.u16)
      | 0x63 => return classInfo (← Reader.u16)
      | 0x40 =>
        let a ← readAnnotation (readWithin fuel)
        return nested a.type a.elements
      | 0x5B => return array (← Reader.table (readWithin fuel))
      | _ => throw (.format (.unknownElement tag))

def read : Reader ElementValue := do
  readWithin (← Reader.remaining)

/-- A count of two bytes in front of the rows. -/
def counted (rows : Nat) (bytes : Except Fault Bytes) : Except Fault Bytes := do
  let count ← tableLength rows
  return bigEndian 2 count.toNat ++ (← bytes)

mutual

def encode : ElementValue → Except Fault Bytes
  | const tag value => .ok (tag :: bigEndian 2 value.toNat)
  | enum type name => .ok (0x65 :: bigEndian 2 type.toNat ++ bigEndian 2 name.toNat)
  | classInfo descriptor => .ok (0x63 :: bigEndian 2 descriptor.toNat)
  | nested type elements => do
    return 0x40 :: bigEndian 2 type.toNat ++ (← counted elements.length (encodeElements elements))
  | array values => do
    return 0x5B :: (← counted values.length (encodeValues values))

def encodeElements : List (Index × ElementValue) → Except Fault Bytes
  | [] => .ok []
  | (name, value) :: rest => do
    let first ← encode value
    return bigEndian 2 name.toNat ++ first ++ (← encodeElements rest)

def encodeValues : List ElementValue → Except Fault Bytes
  | [] => .ok []
  | value :: rest => do
    let first ← encode value
    return first ++ (← encodeValues rest)

end

/-- The payload of a default value. -/
def codec : Codec ElementValue := ⟨read, encode⟩

end ElementValue

namespace Annotation

def read : Reader Annotation := do
  let fuel ← Reader.remaining
  ElementValue.readAnnotation (ElementValue.readWithin fuel)

def encode (a : Annotation) : Except Fault Bytes := do
  let elements ←
    ElementValue.counted a.elements.length (ElementValue.encodeElements a.elements)
  return bigEndian 2 a.type.toNat ++ elements

def codec : Codec Annotation := ⟨read, encode⟩

def tableCodec : Codec (List Annotation) := codec.table

/-- The annotations of each parameter, with the number of parameters in one byte. -/
def parameterCodec : Codec (List (List Annotation)) where
  read := do
    let count ← Reader.u8
    Reader.times count.toNat tableCodec.read
  write parameters := do
    if parameters.length < 0x100 then
      let rows ← Codec.writeAll tableCodec.write parameters
      return UInt8.ofNat parameters.length :: rows
    else
      .error (.format .manyParameters)

end Annotation
end ClassRelabel
