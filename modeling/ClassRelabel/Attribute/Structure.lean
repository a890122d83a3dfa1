/-
Attributes that state how a class is put together: its bootstrap methods, the classes nested in
and around it, the method it stands in and the components of a record.
-/
import ClassRelabel.Attribute.Basic

namespace ClassRelabel

/-- A bootstrap method with the arguments it is given. -/
structure BootstrapRow where
  handle : Index
  arguments : List Index
deriving DecidableEq, Repr

/-- A class that is nested, or that nests another.  An anonymous class has the name zero. -/
structure InnerClassRow where
  inner : Index
  outer : Index
  name : Index
  access : UInt16
deriving DecidableEq, Repr

/-- The method a local class stands in, zero outside of methods. -/
structure EnclosingMethod where
  owner : Index
  method : Index
deriving DecidableEq, Repr

structure RecordComponent where
  name : Index
  descriptor : Index
  attributes : List Attribute
deriving DecidableEq, Repr

namespace BootstrapRow

def codec : Codec BootstrapRow :=
  (Codec.u16.pair Codec.u16.table).iso (fun p => ⟨p.1, p.2⟩) fun r => (r.handle, r.arguments)

def tableCodec : Codec (List BootstrapRow) := codec.table

end BootstrapRow

namespace InnerClassRow

def codec : Codec InnerClassRow :=
  (Codec.u16.pair (Codec.u16.pair (Codec.u16.pair Codec.u16))).iso
    (fun (inner, outer, name, access) => ⟨inner, outer, name, access⟩)
    fun r => (r.inner, r.outer, r.name, r.access)

def tableCodec : Codec (List InnerClassRow) := codec.table

end InnerClassRow

namespace EnclosingMethod

def codec : Codec EnclosingMethod :=
  (Codec.u16.pair Codec.u16).iso (fun p => ⟨p.1, p.2⟩) fun e => (e.owner, e.method)

end EnclosingMethod

namespace RecordComponent

def codec : Codec RecordComponent :=
  (Codec.u16.pair (Codec.u16.pair Attribute.listCodec)).iso
    (fun (name, descriptor, attributes) => ⟨name, descriptor, attributes⟩)
    fun c => (c.name, c.descriptor, c.attributes)

def tableCodec : Codec (List RecordComponent) := codec.table

end RecordComponent
end ClassRelabel
