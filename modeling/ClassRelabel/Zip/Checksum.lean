/-
The checksum of archive entries: the remainder of the bytes as a polynomial over two elements,
with the bits in reverse order.
-/
import ClassRelabel.Bytes

namespace ClassRelabel
namespace Checksum

def polynomial : UInt32 := 0xEDB88320

def bitStep (r : UInt32) : UInt32 :=
  if r &&& 1 = 1 then (r >>> 1) ^^^ polynomial else r >>> 1

def byteStep (r : UInt32) (b : UInt8) : UInt32 :=
  Nat.repeat bitStep 8 (r ^^^ b.toUInt32)

def ofBytes (bs : Bytes) : UInt32 := bs.foldl byteStep 0xFFFFFFFF ^^^ 0xFFFFFFFF

end Checksum
end ClassRelabel
