/-
The constant pool of a class file.

Constants are appended and never move, so an index keeps its meaning while the pool grows.  Three
tables give the first index that holds a text, a class or a name with its descriptor; `internText`,
`internClass` and `internPair` consult them and append only what is missing.

`push` refuses a constant that would make the pool longer than a class file can say, and leaves
the pool as it was.
-/
import Std.Data.ExtTreeMap
import ClassRelabel.Fault

namespace ClassRelabel

open Std (ExtTreeMap)

/-- The order on pairs of indices, the first index being the more significant. -/
abbrev comparePairs : Index × Index → Index × Index → Ordering :=
  (lexOrd (α := Index) (β := Index)).compare

structure Pool where
  /-- The constants by index.  Index zero is unusable. -/
  slots : Array Constant
  texts : ExtTreeMap String Index compare
  classes : ExtTreeMap Index Index compare
  pairs : ExtTreeMap (Index × Index) Index comparePairs
deriving DecidableEq

/-- Changes to a pool.  A change that fails part of the way keeps what it appended. -/
abbrev PoolM := EStateM Fault Pool

namespace Pool

def empty : Pool := ⟨#[.unusable], ∅, ∅, ∅⟩

/-- The count a class file stores: one more than the last index. -/
def count (p : Pool) : Nat := p.slots.size

def isEmpty (p : Pool) : Bool := p.count ≤ 1

def toList (p : Pool) : List (Index × Constant) :=
  p.slots.toList.zipIdx.filterMap fun (c, i) =>
    if c = .unusable then none else some (UInt16.ofNat i, c)

def constant (p : Pool) (i : Index) : Except Fault Constant :=
  match p.slots[i.toNat]? with
  | none | some .unusable => .error (.format (.badIndex i))
  | some c => .ok c

/-- Enters a class or a name with its descriptor into its table, unless an earlier one is there. -/
def recordReference (p : Pool) (i : Index) : Constant → Pool
  | .classRef name => { p with classes := p.classes.insertIfNew name i }
  | .nameAndType name descriptor => { p with pairs := p.pairs.insertIfNew (name, descriptor) i }
  | _ => p

/-- Enters a constant into the table of its kind, unless an earlier one is there. -/
def record (p : Pool) (i : Index) : Constant → Pool
  | .utf8 text => { p with texts := p.texts.insertIfNew text i }
  | c => p.recordReference i c

/-- Appends the constant, and for a wide one the index it takes besides. -/
def append (p : Pool) (c : Constant) : Pool :=
  let slots := p.slots.push c
  { p with slots := if c.isWide then slots.push .unusable else slots }

/-- The first index that would leave no room for `c`. -/
def limit (c : Constant) : Nat :=
  if c.isWide then 0xFFFE else 0xFFFF

def push (c : Constant) : PoolM Index := fun p =>
  if p.count < limit c then
    let i := UInt16.ofNat p.count
    .ok i ((p.record i c).append c)
  else
    .error (.format .fullPool) p

/-- Puts `c` in the place of another constant.  A text may be shared and stays, and the constant
takes as many indices as the one before it.  A text put in is not entered into the table of
texts. -/
def replace (i : Index) (c : Constant) : PoolM Unit := fun p =>
  match p.constant i with
  | .error e => .error e p
  | .ok old =>
    if old.isText || old.isWide != c.isWide then
      .error (.format (.notReplaceable i)) p
    else
      let p := p.recordReference i c
      .ok () { p with slots := p.slots.setIfInBounds i.toNat c }

def internText (s : String) : PoolM Index := do
  match (← get).texts[s]? with
  | some i => return i
  | none => push (.utf8 s)

def internClass (name : String) : PoolM Index := do
  let nameIndex ← internText name
  match (← get).classes[nameIndex]? with
  | some i => return i
  | none => push (.classRef nameIndex)

def internPair (name descriptor : String) : PoolM Index := do
  let nameIndex ← internText name
  let descriptorIndex ← internText descriptor
  match (← get).pairs[(nameIndex, descriptorIndex)]? with
  | some i => return i
  | none => push (.nameAndType nameIndex descriptorIndex)

end Pool
end ClassRelabel
