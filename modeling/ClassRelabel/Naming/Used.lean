/-
Names taken within one method.

`claim` gives a name to one parameter: the wished name, or the wished name and the least counter
from 1 on with which it is free.
-/
import ClassRelabel.Fault

namespace ClassRelabel

structure UsedNames where
  names : List String
deriving DecidableEq, Repr

namespace UsedNames

def empty : UsedNames := ⟨[]⟩

def contains (u : UsedNames) (name : String) : Bool := u.names.contains name

def size (u : UsedNames) : Nat := u.names.length

def reserve (u : UsedNames) (name : String) : UsedNames :=
  if u.contains name then u else ⟨name :: u.names⟩

def numbered (base : String) (counter : Nat) : String := base ++ toString counter

/-- The least counter from `counter` on whose name is free.  Every taken name is met at most once,
so a name that was met need not be looked at again. -/
def freeCounter (base : String) (taken : List String) (counter : Nat) : Nat :=
  if numbered base counter ∈ taken then
    freeCounter base (taken.erase (numbered base counter)) (counter + 1)
  else
    counter
termination_by taken.length
decreasing_by
  rename_i h
  rw [List.length_erase_of_mem h]
  exact Nat.sub_lt (List.length_pos_of_mem h) Nat.one_pos

/-- A free name for the wish `base`. -/
def freeName (u : UsedNames) (base : String) : String :=
  if u.contains base then numbered base (freeCounter base u.names 1) else base

def claim (u : UsedNames) (base : String) : String × UsedNames :=
  let name := u.freeName base
  (name, u.reserve name)

end UsedNames

/-- Steps that give out names.  A step that fails leaves what was taken up to there. -/
abbrev NamesM := EStateM Fault UsedNames

/-- What a step gives from the names `used` on, and the names after it.  Where a failure ends all
the work on a method, the names that it leaves are of no use. -/
def NamesM.outcome {α : Type} (x : NamesM α) (used : UsedNames) : Except Fault (α × UsedNames) :=
  match x used with
  | .ok a after => .ok (a, after)
  | .error e _ => .error e

end ClassRelabel
