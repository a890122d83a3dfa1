/-
Sets and maps of characters given by runs of code points.

A run goes from its first to its last code point by a fixed step, so that alternating capitals
and small letters take one run.  `Runs.mem` decides membership and `Shifts.apply` moves a
character by the offset of its run.  The tables in the modules beside this one are those of
Unicode 16.
-/
namespace ClassRelabel
namespace Text

structure Run where
  first : Nat
  last : Nat
  step : Nat
deriving Repr

abbrev Runs := Array Run

/-- A run whose characters all move by one offset. -/
structure Shift where
  first : Nat
  last : Nat
  step : Nat
  offset : Int
deriving Repr

abbrev Shifts := Array Shift

def Run.mem (r : Run) (n : Nat) : Bool :=
  r.first ≤ n && n ≤ r.last && (n - r.first) % r.step == 0

def Runs.mem (rs : Runs) (c : Char) : Bool :=
  rs.any (·.mem c.toNat)

def Shift.mem (s : Shift) (n : Nat) : Bool :=
  Run.mem ⟨s.first, s.last, s.step⟩ n

/-- The code point a shift carries `n` to. -/
def Shift.target (s : Shift) (n : Nat) : Nat :=
  (Int.ofNat n + s.offset).toNat

/-- A character outside every run stays as it is. -/
def Shifts.apply (ss : Shifts) (c : Char) : Char :=
  match ss.find? (·.mem c.toNat) with
  | some s => Char.ofNat (s.target c.toNat)
  | none => c

/-- The characters in some run that move to `c`. -/
def Shifts.preimages (ss : Shifts) (c : Char) : List Char :=
  ss.toList.filterMap fun s =>
    let n := (Int.ofNat c.toNat - s.offset).toNat
    if s.mem n && s.target n == c.toNat then some (Char.ofNat n) else none

end Text
end ClassRelabel
