/-
UTF-16 code units of text.

`units` spells each character by one unit, or by a high and a low surrogate when its code point
does not fit in sixteen bits.  `ofUnits?` reads units back and refuses a surrogate without its
other half.
-/
namespace ClassRelabel
namespace Utf16

def unitsOfChar (c : Char) : List UInt16 :=
  if c.toNat < 0x10000 then
    [UInt16.ofNat c.toNat]
  else
    let n := c.toNat - 0x10000
    [UInt16.ofNat (0xD800 + n / 0x400), UInt16.ofNat (0xDC00 + n % 0x400)]

def units (cs : List Char) : List UInt16 :=
  cs.flatMap unitsOfChar

def isHigh (u : UInt16) : Bool := 0xD800 ≤ u.toNat && u.toNat < 0xDC00

def isLow (u : UInt16) : Bool := 0xDC00 ≤ u.toNat && u.toNat < 0xE000

def joinSurrogates (high low : UInt16) : Char :=
  Char.ofNat (0x10000 + (high.toNat - 0xD800) * 0x400 + (low.toNat - 0xDC00))

def ofUnits? : List UInt16 → Option (List Char)
  | [] => some []
  | [u] => if isHigh u || isLow u then none else some [Char.ofNat u.toNat]
  | u :: v :: rest =>
    if isHigh u then
      if isLow v then (ofUnits? rest).map (joinSurrogates u v :: ·) else none
    else if isLow u then none
    else (ofUnits? (v :: rest)).map (Char.ofNat u.toNat :: ·)

end Utf16
end ClassRelabel
