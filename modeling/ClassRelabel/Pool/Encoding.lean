/-
The bytes of a constant pool.

Each constant is a tag of one byte and its fields.  A pool is the count of its indices and the
constants from index one on; a wide constant is written once and counts twice.
-/
import ClassRelabel.Codec
import ClassRelabel.Pool.Basic

namespace ClassRelabel
namespace Constant

/-- Text that is no Unicode is kept as its bytes. -/
def readText : Reader Constant := do
  let length ← Reader.u16
  let bs ← Reader.take length.toNat
  let us ← Reader.ofFormat (ModifiedUtf8.decodeUnits bs)
  match Utf16.ofUnits? us with
  | some cs => return .utf8 (String.ofList cs)
  | none => return .utf8Raw bs

/-- The fields of a constant with two indices. -/
def readPair (make : Index → Index → Constant) : Reader Constant := do
  let a ← Reader.u16
  let b ← Reader.u16
  return make a b

def read : Reader Constant := do
  let tag ← Reader.u8
  match tag.toNat with
  | 1 => readText
  | 3 => return .integer (← Reader.u32).toInt32
  | 4 => return .float (← Reader.u32)
  | 5 => return .long (← Reader.u64).toInt64
  | 6 => return .double (← Reader.u64)
  | 7 => return .classRef (← Reader.u16)
  | 8 => return .string (← Reader.u16)
  | 9 => readPair (.member .field)
  | 10 => readPair (.member .method)
  | 11 => readPair (.member .interfaceMethod)
  | 12 => readPair .nameAndType
  | 15 =>
    let kind ← Reader.u8
    return .methodHandle ⟨kind⟩ (← Reader.u16)
  | 16 => return .methodType (← Reader.u16)
  | 17 => readPair .dynamic
  | 18 => readPair .invokeDynamic
  | 19 => return .moduleRef (← Reader.u16)
  | 20 => return .packageRef (← Reader.u16)
  | _ => throw (.format (.unknownTag tag ((← get).offset - 1)))

def encodeIndex (i : Index) : Bytes := bigEndian 2 i.toNat

def encode : Constant → Except Fault Bytes
  | unusable => .ok []
  | utf8 text => do return 1 :: (← Codec.text.write text)
  | utf8Raw bytes => do return 1 :: encodeIndex (← tableLength bytes.length) ++ bytes
  | integer value => .ok (3 :: bigEndian 4 value.toUInt32.toNat)
  | float bits => .ok (4 :: bigEndian 4 bits.toNat)
  | long value => .ok (5 :: bigEndian 8 value.toUInt64.toNat)
  | double bits => .ok (6 :: bigEndian 8 bits.toNat)
  | classRef name => .ok (7 :: encodeIndex name)
  | string text => .ok (8 :: encodeIndex text)
  | member .field owner pair => .ok (9 :: encodeIndex owner ++ encodeIndex pair)
  | member .method owner pair => .ok (10 :: encodeIndex owner ++ encodeIndex pair)
  | member .interfaceMethod owner pair => .ok (11 :: encodeIndex owner ++ encodeIndex pair)
  | nameAndType name desc => .ok (12 :: encodeIndex name ++ encodeIndex desc)
  | methodHandle kind reference => .ok (15 :: kind.raw :: encodeIndex reference)
  | methodType desc => .ok (16 :: encodeIndex desc)
  | dynamic bootstrap pair => .ok (17 :: encodeIndex bootstrap ++ encodeIndex pair)
  | invokeDynamic bootstrap pair => .ok (18 :: encodeIndex bootstrap ++ encodeIndex pair)
  | moduleRef name => .ok (19 :: encodeIndex name)
  | packageRef name => .ok (20 :: encodeIndex name)

end Constant

namespace Pool

/-- Reads constants until the pool has `count` indices.  Each constant adds at least one, so
`fuel` bounds their number. -/
def readInto (count : Nat) : Nat → Pool → Reader Pool
  | 0, p => pure p
  | fuel + 1, p =>
    if p.count < count then do
      let c ← Constant.read
      match push c p with
      | .ok _ p => readInto count fuel p
      | .error e _ => throw e
    else
      pure p

/-- A wide constant at the end may take an index more than the count allows. -/
def read : Reader Pool := do
  let count := (← Reader.u16).toNat
  let p ← readInto count count .empty
  if p.count = count then
    return p
  else
    throw (.format .wideOverflow)

def encode (p : Pool) : Except Fault Bytes := do
  if p.count < 0x10000 then
    let constants ← Codec.writeAll Constant.encode (p.slots.toList.drop 1)
    return bigEndian 2 p.count ++ constants
  else
    .error (.format .fullPool)

def codec : Codec Pool := ⟨read, encode⟩

end Pool
end ClassRelabel
