/-
Inflating deflated bytes.

Deflated bytes are a string of bits, the lowest bit of each byte first, in blocks.  A block holds
bytes as they are, or symbols in a prefix code: bytes, copies of bytes that went before, and the
end of the block.  Every symbol takes a bit, so the number of bits bounds the number of symbols.
What follows the last block does not count.
-/
import ClassRelabel.Bytes

namespace ClassRelabel
namespace Deflate

/-- A string of bits: `left` bits of an open byte, and the bytes after it. -/
structure Bits where
  byte : Nat
  left : Nat
  rest : Bytes
deriving DecidableEq, Repr

abbrev BitReader := StateT Bits Option

namespace Bits

def ofBytes (bs : Bytes) : Bits := ⟨0, 0, bs⟩

def size (b : Bits) : Nat := b.left + 8 * b.rest.length

end Bits

def bit : BitReader Nat := fun
  | ⟨byte, left + 1, rest⟩ => some (byte % 2, ⟨byte / 2, left, rest⟩)
  | ⟨_, 0, b :: rest⟩ => some (b.toNat % 2, ⟨b.toNat / 2, 7, rest⟩)
  | ⟨_, 0, []⟩ => none

/-- A number of `width` bits, the lowest first. -/
def number : Nat → BitReader Nat
  | 0 => pure 0
  | width + 1 => do
    let low ← bit
    return low + 2 * (← number width)

/-- The next `n` whole bytes, without the bits left of an open byte. -/
def wholeBytes (n : Nat) : BitReader Bytes := fun b =>
  if (b.rest.take n).length = n then some (b.rest.take n, .ofBytes (b.rest.drop n)) else none

/-! ## Prefix codes -/

/-- A prefix code: how many symbols have a code word of each length from 1 on, and the symbols
from the shortest word to the longest. -/
structure Code where
  counts : List Nat
  symbols : Array Nat
deriving DecidableEq, Repr

namespace Code

def longest : Nat := 15

def symbolsOf (lengths : List Nat) (length : Nat) : List Nat :=
  lengths.zipIdx.filterMap fun (l, symbol) => if l = length then some symbol else none

/-- The code in which each symbol has a word of the given length, or none for the length 0.  The
words must leave no gap, unless there is only one. -/
def ofLengths? (lengths : List Nat) : Option Code :=
  let groups := (List.range' 1 longest).map (symbolsOf lengths)
  let counts := groups.map List.length
  let words := counts.foldl (fun total count => total * 2 + count) 0
  if words = 1 <<< longest || counts.foldr (· + ·) 0 ≤ 1 then
    some ⟨counts, groups.flatten.toArray⟩
  else
    none

/-- Reads a symbol whose word is longer than those looked at.  `first` is the first word of the
next length, `index` the place of its symbol and `word` what was read. -/
def readFrom (symbols : Array Nat) : List Nat → Nat → Nat → Nat → BitReader Nat
  | [], _, _, _ => failure
  | count :: counts, first, index, word => do
    let word := word + (← bit)
    if word < first + count then
      symbols[index + (word - first)]?
    else
      readFrom symbols counts ((first + count) * 2) (index + count) (word * 2)

def read (c : Code) : BitReader Nat := readFrom c.symbols c.counts 0 0 0

end Code

/-! ## Symbols -/

/-- The symbols of bytes, lengths and the end of a block, and those of distances. -/
structure Codes where
  literals : Code
  distances : Code

/-- The first of the numbers that a symbol stands for, and how many bits choose among them. -/
structure Band where
  first : Nat
  bits : Nat
deriving DecidableEq, Repr

/-- Bands that adjoin, by their numbers of bits. -/
def bands (first : Nat) : List Nat → List Band
  | [] => []
  | bits :: rest => ⟨first, bits⟩ :: bands (first + 2 ^ bits) rest

/-- The lengths of copies.  The last symbol stands for the greatest length alone. -/
def lengthBands : Array Band :=
  ((bands 3 [0, 0, 0, 0, 0, 0, 0, 0, 1, 1, 1, 1, 2, 2, 2, 2, 3, 3, 3, 3, 4, 4, 4, 4, 5, 5, 5,
    5]) ++ [Band.mk 258 0]).toArray

def distanceBands : Array Band :=
  (bands 1 [0, 0, 0, 0, 1, 1, 2, 2, 3, 3, 4, 4, 5, 5, 6, 6, 7, 7, 8, 8, 9, 9, 10, 10, 11, 11, 12, 12,
    13, 13]).toArray

def inBand (bs : Array Band) (symbol : Nat) : BitReader Nat := do
  let b ← bs[symbol]?
  return b.first + (← number b.bits)

/-- Repeats what stands `distance` before the end, byte by byte. -/
def copy (distance : Nat) : Nat → Array UInt8 → Option (Array UInt8)
  | 0, out => some out
  | n + 1, out => do
    if out.size < distance then none else
    copy distance n (out.push (← out[out.size - distance]?))

def symbols (c : Codes) : Nat → Array UInt8 → BitReader (Array UInt8)
  | 0, _ => failure
  | fuel + 1, out => do
    let symbol ← c.literals.read
    if symbol < 256 then
      symbols c fuel (out.push (UInt8.ofNat symbol))
    else if symbol = 256 then
      return out
    else
      let length ← inBand lengthBands (symbol - 257)
      let distance ← inBand distanceBands (← c.distances.read)
      symbols c fuel (← copy distance length out)

/-! ## Blocks -/

/-- The code lengths of blocks that bring no codes. -/
def fixedCodes? : Option Codes := do
  let literals := List.replicate 144 8 ++ List.replicate 112 9 ++ List.replicate 24 7 ++
    List.replicate 8 8
  return ⟨← Code.ofLengths? literals, ← Code.ofLengths? (List.replicate 32 5)⟩

/-- The order in which a block gives the lengths of the words for code lengths. -/
def lengthOrder : List Nat := [16, 17, 18, 0, 8, 7, 9, 6, 10, 5, 11, 4, 12, 3, 13, 2, 14, 1, 15]

/-- Code lengths, with their number still to be read and those read in reverse.  Three symbols
repeat the last length or zero. -/
def codeLengths (c : Code) : Nat → Nat → List Nat → BitReader (List Nat)
  | 0, _, _ => failure
  | _ + 1, 0, before => pure before.reverse
  | fuel + 1, n, before => do
    let symbol ← c.read
    let (length, times) ←
      if symbol < 16 then
        pure (symbol, 1)
      else if symbol = 16 then
        pure (← before.head?, 3 + (← number 2))
      else if symbol = 17 then
        pure (0, 3 + (← number 3))
      else
        pure (0, 11 + (← number 7))
    if n < times then failure else
    codeLengths c fuel (n - times) (List.replicate times length ++ before)

def ownCodes : BitReader Codes := do
  let literals := 257 + (← number 5)
  let distances := 1 + (← number 5)
  let count := 4 + (← number 4)
  if 286 < literals || 30 < distances then failure else
  let given ← (lengthOrder.take count).mapM fun symbol => do return (symbol, ← number 3)
  let lengths := (List.range lengthOrder.length).map fun symbol => (given.lookup symbol).getD 0
  let c ← Code.ofLengths? lengths
  let total := literals + distances
  let lengths ← codeLengths c (total + 1) total []
  return ⟨← Code.ofLengths? (lengths.take literals), ← Code.ofLengths? (lengths.drop literals)⟩

/-- Bytes as they are, with their number and its complement in front. -/
def plainBlock (out : Array UInt8) : BitReader (Array UInt8) := do
  match ← wholeBytes 4 with
  | [a, b, c, d] =>
    let length := a.toNat + 256 * b.toNat
    if length + (c.toNat + 256 * d.toNat) = 0xFFFF then
      return out ++ (← wholeBytes length)
    else
      failure
  | _ => failure

def block (out : Array UInt8) : BitReader (Array UInt8) := do
  match ← number 2 with
  | 0 => plainBlock out
  | 1 => symbols (← fixedCodes?) (← get).size out
  | 2 =>
    let c ← ownCodes
    symbols c (← get).size out
  | _ => failure

def blocks : Nat → Array UInt8 → BitReader (Array UInt8)
  | 0, _ => failure
  | fuel + 1, out => do
    let last ← bit
    let out ← block out
    if last = 1 then return out else blocks fuel out

def inflate? (bs : Bytes) : Option Bytes := do
  let bits := Bits.ofBytes bs
  let (out, _) ← (blocks bits.size #[]).run bits
  return out.toList

end Deflate
end ClassRelabel
