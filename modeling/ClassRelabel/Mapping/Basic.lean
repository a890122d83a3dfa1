/-
New names for classes and their members.

A set of mappings gives, by the name a class has now, its new name and the new names of its fields
and methods.  A class may be listed for its members alone and then has no new name.  A field is
found by its name and a method by its name and descriptor.
-/
import Std.Data.ExtTreeMap

namespace ClassRelabel

open Std (ExtTreeMap TransCmp LawfulEqCmp TransOrd LawfulEqOrd)

structure MethodKey where
  name : String
  descriptor : String
deriving DecidableEq, Repr

namespace MethodKey

/-- By name and then by descriptor. -/
instance : Ord MethodKey :=
  ⟨compareLex (compareOn MethodKey.name) (compareOn MethodKey.descriptor)⟩

instance : TransOrd MethodKey :=
  inferInstanceAs (TransCmp (compareLex _ _))

instance : LawfulEqOrd MethodKey where
  eq_of_compare {a b} h := by
    simp only [compare, compareLex_eq_eq, compareOn] at h
    obtain ⟨hname, hdescriptor⟩ := h
    cases a
    cases b
    simp only [MethodKey.mk.injEq]
    exact ⟨LawfulEqOrd.eq_of_compare hname, LawfulEqOrd.eq_of_compare hdescriptor⟩

/-- Constructors and class initializers are never renamed and never inherited. -/
def isInitializer (k : MethodKey) : Bool := k.name.toList.head? == some '<'

end MethodKey

/-- The new name of a field.  The descriptor is what the mapping file says and takes no part in
finding the field. -/
structure FieldEntry where
  name : String
  descriptor : Option String
deriving DecidableEq, Repr

/-- The new name of a method and names of its parameters by local variable slot. -/
structure MethodEntry where
  name : String
  parameters : ExtTreeMap UInt16 String compare
deriving DecidableEq

structure ClassEntry where
  /-- Nothing when only members are mapped. -/
  name : Option String
  fields : ExtTreeMap String FieldEntry compare
  methods : ExtTreeMap MethodKey MethodEntry compare
deriving DecidableEq

structure Mappings where
  classes : ExtTreeMap String ClassEntry compare
deriving DecidableEq

namespace ClassEntry

def empty : ClassEntry := ⟨none, ∅, ∅⟩

def insertField (e : ClassEntry) (field : String) (entry : FieldEntry) : ClassEntry :=
  { e with fields := e.fields.insert field entry }

def insertMethod (e : ClassEntry) (key : MethodKey) (entry : MethodEntry) : ClassEntry :=
  { e with methods := e.methods.insert key entry }

/-- Changes the entry of a method, which starts out with its own name. -/
def updateMethod (e : ClassEntry) (key : MethodKey) (f : MethodEntry → MethodEntry) : ClassEntry :=
  e.insertMethod key (f (e.methods.getD key ⟨key.name, ∅⟩))

end ClassEntry

namespace Mappings

def empty : Mappings := ⟨∅⟩

def class? (m : Mappings) (name : String) : Option ClassEntry := m.classes[name]?

def size (m : Mappings) : Nat := m.classes.size

def isEmpty (m : Mappings) : Bool := m.classes.isEmpty

/-- Changes the entry of a class, which starts out empty. -/
def update (m : Mappings) (name : String) (f : ClassEntry → ClassEntry) : Mappings :=
  ⟨m.classes.insert name (f (m.classes.getD name .empty))⟩

def nameClass (m : Mappings) (name new : String) : Mappings :=
  m.update name fun e => { e with name := some new }

def nameField (m : Mappings) (owner field : String) (entry : FieldEntry) : Mappings :=
  m.update owner fun e => e.insertField field entry

def nameMethod (m : Mappings) (owner : String) (key : MethodKey) (new : String) : Mappings :=
  m.update owner fun e => e.updateMethod key fun method => { method with name := new }

def nameParameter (m : Mappings) (owner : String) (key : MethodKey) (slot : UInt16) (new : String) :
    Mappings :=
  m.update owner fun e => e.updateMethod key fun method =>
    { method with parameters := method.parameters.insert slot new }

end Mappings
end ClassRelabel
