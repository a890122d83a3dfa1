/-
Supertypes and the visibility of members.

A `ClassShape` is what a class says about itself: its supertypes and the access of its members.
`inheritsField` and `inheritsMethod` tell which members a direct subtype may use.  A hierarchy
keeps the first shape it is given under a name.
-/
import ClassRelabel.ClassFile
import ClassRelabel.Mapping.Basic
import ClassRelabel.Text.Split

namespace ClassRelabel

open Std (ExtTreeMap)

structure ClassShape where
  name : String
  superName : Option String
  interfaces : List String
  access : Access
  fields : ExtTreeMap String Access compare
  methods : ExtTreeMap MethodKey Access compare
deriving DecidableEq

def packageOf (name : String) : String :=
  match Text.splitLast? '/' name.toList with
  | some (package, _) => String.ofList package
  | none => ""

namespace ClassShape

/-- A later member replaces an earlier one of the same name. -/
def ofClass (c : ClassFile) : Except Fault ClassShape := do
  let name ← c.name
  let superName ← c.superName?
  let interfaces ← c.interfaceNames
  let fields ← c.fields.foldlM (fun (t : ExtTreeMap String Access compare) f => do
    return t.insert (← c.pool.text f.name) f.access) ∅
  let methods ← c.methods.foldlM (fun (t : ExtTreeMap MethodKey Access compare) m => do
    return t.insert ⟨← c.pool.text m.name, ← c.pool.text m.descriptor⟩ m.access) ∅
  return ⟨name, superName, interfaces, c.access, fields, methods⟩

def parents (c : ClassShape) : List String := c.superName.toList ++ c.interfaces

def package (c : ClassShape) : String := packageOf c.name

/-- A private member is seen by no subtype, a public or protected one by all of them, and any other
by those of the same package. -/
def shows (c : ClassShape) (access : Access) (child : ClassShape) : Bool :=
  !access.meets .isPrivate &&
    (access.meets .isPublic || access.meets .isProtected || c.package == child.package)

def inheritsField (child c : ClassShape) (field : String) : Bool :=
  match c.fields[field]? with
  | some access => c.shows access child
  | none => false

def inheritsMethod (child c : ClassShape) (key : MethodKey) : Bool :=
  !key.isInitializer &&
    match c.methods[key]? with
    | some access => c.shows access child
    | none => false

end ClassShape

structure Hierarchy where
  classes : ExtTreeMap String ClassShape compare
deriving DecidableEq

namespace Hierarchy

def empty : Hierarchy := ⟨∅⟩

def class? (h : Hierarchy) (name : String) : Option ClassShape := h.classes[name]?

def insert (h : Hierarchy) (c : ClassShape) : Hierarchy :=
  ⟨h.classes.insertIfNew c.name c⟩

def size (h : Hierarchy) : Nat := h.classes.size

def isEmpty (h : Hierarchy) : Bool := h.classes.isEmpty

def names (h : Hierarchy) : List String := h.classes.keys

end Hierarchy
end ClassRelabel
