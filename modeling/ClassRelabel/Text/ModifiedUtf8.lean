/-
Modified UTF-8, the encoding of text in class files.

Text is spelled unit by unit of its UTF-16 form: one byte for the units 1 to 127, two bytes up to
0x7FF and for zero, three bytes above.  So no spelling holds a zero byte, and a character outside
the basic plane takes two spellings of three bytes.

`decodeUnits` tells the length of a spelling by its first byte and takes the low six bits of every
later byte, whatever its two high bits are.
-/
import ClassRelabel.Fault
import ClassRelabel.Text.Utf16

namespace ClassRelabel
namespace ModifiedUtf8

def encodeUnit (u : UInt16) : Bytes :=
  let n := u.toNat
  if n ≠ 0 ∧ n < 0x80 then
    [UInt8.ofNat n]
  else if n < 0x800 then
    [UInt8.ofNat (0xC0 + n / 0x40), UInt8.ofNat (0x80 + n % 0x40)]
  else
    [UInt8.ofNat (0xE0 + n / 0x1000), UInt8.ofNat (0x80 + n / 0x40 % 0x40),
      UInt8.ofNat (0x80 + n % 0x40)]

def encodeUnits (us : List UInt16) : Bytes :=
  us.flatMap encodeUnit

def encode (s : String) : Bytes :=
  encodeUnits (Utf16.units s.toList)

def pairUnit (a b : UInt8) : UInt16 :=
  UInt16.ofNat (a.toNat % 0x20 * 0x40 + b.toNat % 0x40)

def tripleUnit (a b c : UInt8) : UInt16 :=
  UInt16.ofNat (a.toNat % 0x10 * 0x1000 + b.toNat % 0x40 * 0x40 + c.toNat % 0x40)

/-- The units spelled by `bs`, after those read before, which stand in reverse. -/
def decodeInto (before : List UInt16) : Bytes → Except FormatFault (List UInt16)
  | [] => .ok before.reverse
  | a :: rest =>
    if a = 0 then .error .embeddedNul
    else if a < 0x80 then decodeInto (a.toUInt16 :: before) rest
    else if a < 0xC0 then .error .badLeadingByte
    else if a < 0xE0 then
      match rest with
      | b :: rest => decodeInto (pairUnit a b :: before) rest
      | [] => .error .truncatedPair
    else if a < 0xF0 then
      match rest with
      | b :: c :: rest => decodeInto (tripleUnit a b c :: before) rest
      | _ => .error .truncatedTriple
    else .error .badLeadingByte

/-- The UTF-16 units of encoded text.  Unpaired surrogates are units like any other. -/
def decodeUnits (bs : Bytes) : Except FormatFault (List UInt16) :=
  decodeInto [] bs

def decode (bs : Bytes) : Except FormatFault String := do
  match Utf16.ofUnits? (← decodeUnits bs) with
  | some cs => .ok (String.ofList cs)
  | none => .error .unpairedSurrogate

end ModifiedUtf8
end ClassRelabel
