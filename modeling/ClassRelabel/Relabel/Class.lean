/-
Relabelled classes.

`ClassFile.relabel` gives every name in a class its new one: first in the constants, then field by
field, method by method and attribute by attribute.  Methods without a body have no table for the
names of their parameters; these names are reported beside the class.
-/
import ClassRelabel.ClassFile
import ClassRelabel.Relabel.Body

namespace ClassRelabel

/-- Names for the parameters of a method without a body. -/
structure ParameterNames where
  method : MethodId
  names : List String
deriving DecidableEq, Repr

structure RelabelledClass where
  formerName : String
  name : String
  bytes : Bytes
  parameterNames : List ParameterNames
deriving DecidableEq, Repr

namespace ParameterNames

def line (p : ParameterNames) : String :=
  " ".intercalate (p.method.owner :: p.method.name :: p.method.descriptor :: p.names)

end ParameterNames

namespace Relabelling

variable (r : Relabelling)

def field (f : Member) : PoolM Member := do
  let name ← r.source.text f.name
  let new ← r.memberType .field r.owner ⟨name, ← r.source.text f.descriptor⟩
  let nameIndex ← r.redirect f.name new.name
  let descriptorIndex ← r.redirect f.descriptor new.descriptor
  return ⟨f.access, nameIndex, descriptorIndex, ← f.attributes.mapM r.declared⟩

/-- The names to report for a method without a body: none if it has no parameters, or if nothing
names one of them. -/
def parameterNames? (m : NamedMethod) (new : NamedType) : NamesM (Option ParameterNames) := do
  let candidates : List Candidate := m.slots.map fun (slot, t) =>
    ⟨slot, "var" ++ toString slot.toNat, toString t⟩
  if candidates.isEmpty then
    return none
  let assigned ← r.assign m candidates
  if r.dictionary.isNone && assigned.all Option.isNone then
    return none
  let names := (candidates.zip assigned).map fun (c, name) => name.getD c.rawName
  return some ⟨⟨r.mappings.renameClass r.owner, new.name, new.descriptor⟩, names⟩

/-- The attributes of a method.  Method bodies share the names used. -/
def methodAttributes (m : NamedMethod) : List Attribute → UsedNames → PoolM (List Attribute)
  | [], _ => pure []
  | a :: rest, used => do
    if (← r.source.text a.name) = "Code" then
      let (code, used) ← r.code m (← Code.codec.decode a.payload) used
      let first := { a with payload := ← Code.codec.write code }
      return first :: (← methodAttributes m rest used)
    else
      let first ← r.declared a
      return first :: (← methodAttributes m rest used)

def method (old : Member) : PoolM (Member × Option ParameterNames) := do
  let name ← r.source.text old.name
  let id : MethodId := ⟨r.owner, name, ← r.source.text old.descriptor⟩
  let new ← r.memberType .method r.owner ⟨id.name, id.descriptor⟩
  let m : NamedMethod := ⟨id, old.isStatic, (← MethodType.parse new.descriptor).parameters⟩
  let (report, used) ←
    if old.hasBody then pure (none, UsedNames.empty)
    else (r.parameterNames? m new).outcome .empty
  let attributes ← r.methodAttributes m old.attributes used
  let nameIndex ← r.redirect old.name new.name
  let descriptorIndex ← r.redirect old.descriptor new.descriptor
  return (⟨old.access, nameIndex, descriptorIndex, attributes⟩, report)

/-- The parts of a class in order, and the names to report.  The new constants are in the pool
that is left. -/
def parts (c : ClassFile) : PoolM (ClassFile × List ParameterNames) := do
  r.constants
  let fields ← c.fields.mapM r.field
  let methods ← c.methods.mapM r.method
  let attributes ← c.attributes.mapM r.classAttribute
  return ({ c with fields, methods := methods.map Prod.fst, attributes },
    methods.filterMap Prod.snd)

end Relabelling

namespace ClassFile

/-- What the relabelling of a class needs to know. -/
def relabelling (c : ClassFile) (m : Mappings) (d : Option Dictionary) :
    Except Fault Relabelling := do
  let owner ← c.name
  let bootstraps ← match ← Attribute.find? c.pool "BootstrapMethods" c.attributes with
    | some a => BootstrapRow.tableCodec.decode a.payload
    | none => .ok []
  return ⟨m, d, c.pool, owner, bootstraps⟩

/-- The class under its new names, and the names to report beside it. -/
def relabelled (c : ClassFile) (m : Mappings) (d : Option Dictionary) :
    Except Fault (ClassFile × List ParameterNames) := do
  let r ← c.relabelling m d
  match r.parts c c.pool with
  | .ok (new, reports) pool => .ok ({ new with pool }, reports)
  | .error e _ => .error e

def relabel (c : ClassFile) (m : Mappings) (d : Option Dictionary) :
    Except Fault RelabelledClass := do
  let owner ← c.name
  let (new, reports) ← c.relabelled m d
  return ⟨owner, m.renameClass owner, ← new.encode, reports⟩

/-- Relabels the class that a byte string holds.  A fault after its name is known names it. -/
def relabelBytes (bs : Bytes) (m : Mappings) (d : Option Dictionary) :
    Except Fault RelabelledClass := do
  let c ← parse bs
  let name ← c.name
  match c.relabel m d with
  | .ok new => .ok new
  | .error cause => .error (.inClass name cause)

end ClassFile
end ClassRelabel
