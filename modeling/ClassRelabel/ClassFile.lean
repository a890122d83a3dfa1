/-
Class files.

A class file is a version, a pool, the class by its indices into the pool, its fields and methods
and its attributes.  `ClassFile.parse` accepts a byte string that is one class file and nothing
more, and `ClassFile.encode` writes one.
-/
import ClassRelabel.Attribute.Basic
import ClassRelabel.Pool.Encoding

namespace ClassRelabel

structure Version where
  major : UInt16
  minor : UInt16
deriving DecidableEq, Repr

/-- Access and property flags of a class or member. -/
structure Access where
  bits : UInt16
deriving DecidableEq, Repr

structure Member where
  access : Access
  name : Index
  descriptor : Index
  attributes : List Attribute
deriving DecidableEq, Repr

structure ClassFile where
  version : Version
  pool : Pool
  access : Access
  thisClass : Index
  /-- Zero for the root of all classes and for modules. -/
  superClass : Index
  interfaces : List Index
  fields : List Member
  methods : List Member
  attributes : List Attribute
deriving DecidableEq

namespace Version

def magic : UInt32 := 0xCAFEBABE

def lastMajor : UInt16 := 69

def read : Reader Version := do
  let found ← Reader.u32
  if found ≠ magic then throw (.badMagic found)
  let minor ← Reader.u16
  let major ← Reader.u16
  if lastMajor < major then throw (.badVersion major minor)
  return ⟨major, minor⟩

def encode (v : Version) : Bytes :=
  bigEndian 4 magic.toNat ++ bigEndian 2 v.minor.toNat ++ bigEndian 2 v.major.toNat

def codec : Codec Version := ⟨read, fun v => .ok v.encode⟩

end Version

namespace Access

def meets (a other : Access) : Bool := a.bits &&& other.bits != 0

def isPublic : Access := ⟨0x0001⟩

def isPrivate : Access := ⟨0x0002⟩

def isProtected : Access := ⟨0x0004⟩

def isStatic : Access := ⟨0x0008⟩

def isNative : Access := ⟨0x0100⟩

def isAbstract : Access := ⟨0x0400⟩

end Access

namespace Member

def codec : Codec Member :=
  (Codec.u16.pair (Codec.u16.pair (Codec.u16.pair Attribute.listCodec))).iso
    (fun (access, name, descriptor, attributes) => ⟨⟨access⟩, name, descriptor, attributes⟩)
    fun m => (m.access.bits, m.name, m.descriptor, m.attributes)

/-- A method without a body is abstract or native. -/
def hasBody (m : Member) : Bool :=
  !m.access.meets .isAbstract && !m.access.meets .isNative

def isStatic (m : Member) : Bool := m.access.meets .isStatic

end Member

namespace ClassFile

/-- The parts in the order of the format. -/
def codec : Codec ClassFile :=
  (Version.codec.pair (Pool.codec.pair (Codec.u16.pair (Codec.u16.pair (Codec.u16.pair
    (Codec.u16.table.pair (Member.codec.table.pair (Member.codec.table.pair
      Attribute.listCodec)))))))).iso
    (fun (version, pool, access, thisClass, superClass, interfaces, fields, methods, attributes) =>
      ⟨version, pool, ⟨access⟩, thisClass, superClass, interfaces, fields, methods, attributes⟩)
    fun c => (c.version, c.pool, c.access.bits, c.thisClass, c.superClass, c.interfaces, c.fields,
      c.methods, c.attributes)

def parse (bs : Bytes) : Except Fault ClassFile :=
  codec.read.all .trailingClass bs

def encode (c : ClassFile) : Except Fault Bytes :=
  codec.write c

def name (c : ClassFile) : Except Fault String :=
  c.pool.className c.thisClass

def superName? (c : ClassFile) : Except Fault (Option String) :=
  if c.superClass = 0 then .ok none else some <$> c.pool.className c.superClass

def interfaceNames (c : ClassFile) : Except Fault (List String) :=
  c.interfaces.mapM c.pool.className

/-! ## Building a class -/

/-- A change to the pool of a class. -/
def withPool {α : Type} (c : ClassFile) (change : PoolM α) : Except Fault α × ClassFile :=
  match change c.pool with
  | .ok a pool => (.ok a, { c with pool })
  | .error e pool => (.error e, { c with pool })

def ofNames (version : Version) (access : Access) (name : String) (superName : Option String) :
    Except Fault ClassFile := do
  let build : PoolM (Index × Index) := do
    let thisClass ← Pool.internClass name
    match superName with
    | some superName => return (thisClass, ← Pool.internClass superName)
    | none => return (thisClass, 0)
  match build .empty with
  | .ok (thisClass, superClass) pool =>
    .ok ⟨version, pool, access, thisClass, superClass, [], [], [], []⟩
  | .error e _ => .error e

/-- A member without attributes whose name and descriptor are in the pool. -/
def internMember (access : Access) (name descriptor : String) : PoolM Member := do
  let nameIndex ← Pool.internText name
  let descriptorIndex ← Pool.internText descriptor
  return ⟨access, nameIndex, descriptorIndex, []⟩

end ClassFile
end ClassRelabel
