/-
Records of numbers.

A record is a row of numbers of fixed widths in bytes, each with its lowest byte first.
-/
import ClassRelabel.Bytes

namespace ClassRelabel
namespace Record

def littleEndian (width n : Nat) : Bytes := (bigEndian width n).reverse

def ofLittleEndian (bs : Bytes) : Nat := ofBigEndian bs.reverse

def encode (fields : List (Nat × Nat)) : Bytes :=
  fields.flatMap fun (width, n) => littleEndian width n

/-- The bytes that numbers of the given widths take. -/
def size (widths : List Nat) : Nat := widths.foldr (· + ·) 0

def read? : List Nat → Bytes → Option (List Nat × Bytes)
  | [], bs => some ([], bs)
  | width :: widths, bs =>
    if bs.length < width then
      none
    else
      (read? widths (bs.drop width)).map fun (ns, rest) =>
        (ofLittleEndian (bs.take width) :: ns, rest)

/-- A record takes as many bytes as its widths say. -/
theorem length_of_read? {widths : List Nat} {bs : Bytes} {ns : List Nat} {rest : Bytes}
    (h : read? widths bs = some (ns, rest)) : rest.length + size widths = bs.length := by
  induction widths generalizing bs ns with
  | nil => simp_all [read?, size]
  | cons width widths ih =>
    rw [read?] at h
    split at h
    · simp at h
    · simp only [Option.map_eq_some_iff, Prod.mk.injEq] at h
      obtain ⟨⟨ns', rest'⟩, hread, -, rfl⟩ := h
      have := ih hread
      rw [List.length_drop] at this
      rw [show size (width :: widths) = width + size widths from rfl]
      omega

end Record
end ClassRelabel
