/-
Text in UTF-8.

A character takes one to four bytes.  Where bytes spell no character, `read` gives one gap for the
longest front of them that could have begun one.
-/
import ClassRelabel.Bytes

namespace ClassRelabel
namespace Utf8

/-- What the first byte of a character says: how many bytes follow it, the range of the next one
and the first bits of the code point. -/
structure Lead where
  tails : Nat
  low : Nat
  high : Nat
  bits : Nat
deriving DecidableEq, Repr

def lead? (b : Nat) : Option Lead :=
  if b < 0x80 then
    some ⟨0, 0x80, 0xBF, b⟩
  else if b < 0xC2 then
    none
  else if b < 0xE0 then
    some ⟨1, 0x80, 0xBF, b - 0xC0⟩
  else if b < 0xF0 then
    some ⟨2, if b = 0xE0 then 0xA0 else 0x80, if b = 0xED then 0x9F else 0xBF, b - 0xE0⟩
  else if b < 0xF5 then
    some ⟨3, if b = 0xF0 then 0x90 else 0x80, if b = 0xF4 then 0x8F else 0xBF, b - 0xF0⟩
  else
    none

/-- Takes the bytes that follow the first byte of a character, as far as they may follow it. -/
def finish (tails low high bits : Nat) (bs : Bytes) : Option Char × Bytes :=
  match tails, bs with
  | 0, bs => (some (Char.ofNat bits), bs)
  | _ + 1, [] => (none, [])
  | tails + 1, b :: rest =>
    if low ≤ b.toNat ∧ b.toNat ≤ high then
      finish tails 0x80 0xBF (bits * 64 + b.toNat % 64) rest
    else
      (none, b :: rest)

theorem length_finish_le (tails low high bits : Nat) (bs : Bytes) :
    (finish tails low high bits bs).2.length ≤ bs.length := by
  induction tails generalizing low high bits bs with
  | zero => simp [finish]
  | succ tails ih =>
    cases bs with
    | nil => simp [finish]
    | cons b rest =>
      rw [finish]
      split
      · exact Nat.le_succ_of_le (ih _ _ _ _)
      · exact Nat.le_refl _

/-- Reads on after what was read before, which stands in reverse. -/
def readInto (before : List (Option Char)) : Bytes → List (Option Char)
  | [] => before.reverse
  | b :: rest =>
    match lead? b.toNat with
    | none => readInto (none :: before) rest
    | some l =>
      have := length_finish_le l.tails l.low l.high l.bits rest
      let next := finish l.tails l.low l.high l.bits rest
      readInto (next.1 :: before) next.2
termination_by bs => bs.length

/-- The characters that bytes spell, with gaps. -/
def read (bs : Bytes) : List (Option Char) := readInto [] bs

def decode? (bs : Bytes) : Option String := String.ofList <$> (read bs).mapM id

/-- The text that bytes spell, with a replacement character in each gap. -/
def decodeLossy (bs : Bytes) : String :=
  String.ofList ((read bs).map fun c => c.getD '\uFFFD')

def encode (s : String) : Bytes := s.toUTF8.toList

end Utf8
end ClassRelabel
