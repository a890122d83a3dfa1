/-
Names for the parameters of one method.

The mappings come first: their names are checked and reserved before any other name is made up.
The parameters left are named in order from a dictionary, if there is one, and keep their names
otherwise.
-/
import ClassRelabel.Naming.Member
import ClassRelabel.Naming.Parameter
import ClassRelabel.Relabel.Basic

namespace ClassRelabel

/-- The parameters with their local variable slots, of which the first is `first`. -/
def FieldType.withSlots (first : Nat) : List FieldType → List (UInt16 × FieldType)
  | [] => []
  | t :: rest => (UInt16.ofNat first, t) :: withSlots (first + t.slots) rest

/-- A method in need of names, as it was before. -/
structure NamedMethod where
  id : MethodId
  isStatic : Bool
  /-- The new types of the parameters. -/
  parameters : List FieldType
deriving DecidableEq, Repr

/-- A parameter that may get a name.  Its type is a descriptor. -/
structure Candidate where
  slot : UInt16
  rawName : String
  type : String
deriving DecidableEq, Repr

namespace NamedMethod

def slots (m : NamedMethod) : List (UInt16 × FieldType) :=
  FieldType.withSlots (if m.isStatic then 0 else 1) m.parameters

end NamedMethod

namespace Relabelling

variable (r : Relabelling)

def mappedName? (m : NamedMethod) (c : Candidate) : Option String :=
  r.mappings.parameter? m.id.owner ⟨m.id.name, m.id.descriptor⟩ c.slot

def reserveMapped (m : NamedMethod) : List Candidate → NamesM Unit
  | [] => pure ()
  | c :: rest => do
    match r.mappedName? m c with
    | none => reserveMapped m rest
    | some name =>
      Parameter.check ⟨m.id, c.slot⟩ name
      modify (·.reserve name)
      reserveMapped m rest

/-- The name of a candidate, `none` where the old name stays. -/
def nameOne (m : NamedMethod) (c : Candidate) : NamesM (Option String) := do
  match r.mappedName? m c, r.dictionary with
  | some name, _ => return some name
  | none, none => return none
  | none, some d => return some (← Parameter.deduce ⟨m.id, c.slot⟩ d c.rawName c.type)

/-- Names the candidates in order. -/
def assign (m : NamedMethod) (cs : List Candidate) : NamesM (List (Option String)) := do
  r.reserveMapped m cs
  cs.mapM (r.nameOne m)

end Relabelling
end ClassRelabel
