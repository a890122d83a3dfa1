/-
Decimal numbers in options and mapping files.

A number is a run of the digits `0` to `9` with at most one plus sign in front.  Leading zeros are
allowed; a number above the limit is none.
-/
namespace ClassRelabel
namespace Text

def digit? (c : Char) : Option Nat :=
  if '0' ≤ c ∧ c ≤ '9' then some (c.toNat - 48) else none

def digits? (cs : List Char) : Option Nat :=
  cs.foldlM (fun n c => (digit? c).map (n * 10 + ·)) 0

def decimal? (limit : Nat) (s : String) : Option Nat :=
  let digits := match s.toList with
    | '+' :: rest => rest
    | cs => cs
  if digits.isEmpty then
    none
  else
    (digits? digits).filter (· ≤ limit)

end Text
end ClassRelabel
