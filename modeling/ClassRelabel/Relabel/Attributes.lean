/-
The attributes of relabelled classes and members.

Signatures and annotations may stand on every declaration.  Nested classes, enclosing methods and
record components stand on classes only.  An attribute with any other name stays as it is.
-/
import ClassRelabel.Attribute.Annotation
import ClassRelabel.Naming.Signature
import ClassRelabel.Relabel.Constants

namespace ClassRelabel
namespace Relabelling

variable (r : Relabelling)

/-- The descriptor of a field, in place. -/
def descriptor (i : Index) : PoolM Index := do
  r.redirect i (← r.mappings.renameDescriptor (← r.source.text i))

/-- The descriptor of a result, in place. -/
def resultDescriptor (i : Index) : PoolM Index := do
  r.redirect i (← r.mappings.renameResult (← r.source.text i))

def signature (i : Index) : PoolM Index := do
  r.redirect i (← r.mappings.renameSignature (← r.source.text i))

/-! ## Annotations -/

mutual

def element : ElementValue → PoolM ElementValue
  | .const tag value => pure (.const tag value)
  | .enum type name => do return .enum (← r.descriptor type) name
  | .classInfo type => do return .classInfo (← r.resultDescriptor type)
  | .nested type values => do
    let new ← r.mappings.renameDescriptor (← r.source.text type)
    let values ← namedElements values
    return .nested (← r.redirect type new) values
  | .array values => do return .array (← elements values)

def namedElements : List (Index × ElementValue) → PoolM (List (Index × ElementValue))
  | [] => pure []
  | (name, value) :: rest => do
    let value ← element value
    return (name, value) :: (← namedElements rest)

def elements : List ElementValue → PoolM (List ElementValue)
  | [] => pure []
  | value :: rest => do
    let value ← element value
    return value :: (← elements rest)

end

def annotationRow (a : Annotation) : PoolM Annotation := do
  let new ← r.mappings.renameDescriptor (← r.source.text a.type)
  let values ← r.namedElements a.elements
  return ⟨← r.redirect a.type new, values⟩

/-! ## Payloads -/

/-- Relabels the value that a payload holds. -/
def payload {α : Type} (codec : Codec α) (relabel : α → PoolM α) (bs : Bytes) : PoolM Bytes := do
  codec.write (← relabel (← codec.decode bs))

def declared (a : Attribute) : PoolM Attribute := do
  let via {α : Type} (codec : Codec α) (relabel : α → PoolM α) : PoolM Attribute :=
    return { a with payload := ← payload codec relabel a.payload }
  match ← r.source.text a.name with
  | "Signature" => via Codec.u16 r.signature
  | "RuntimeVisibleAnnotations" | "RuntimeInvisibleAnnotations" =>
    via Annotation.tableCodec fun as => as.mapM r.annotationRow
  | "RuntimeVisibleParameterAnnotations" | "RuntimeInvisibleParameterAnnotations" =>
    via Annotation.parameterCodec fun ps => ps.mapM fun as => as.mapM r.annotationRow
  | "AnnotationDefault" => via ElementValue.codec r.element
  | _ => return a

def innerClass (row : InnerClassRow) : PoolM InnerClassRow := do
  if row.name = 0 then
    return row
  let inner ← r.source.className row.inner
  let simple ← r.source.text row.name
  return { row with name := ← r.redirect row.name (r.mappings.renameSimple inner simple) }

def enclosingMethod (e : EnclosingMethod) : PoolM EnclosingMethod := do
  if e.method = 0 then
    return e
  let owner ← r.source.className e.owner
  let new ← r.memberType .method owner (← r.source.namedType e.method)
  return { e with method := ← r.redirectPair e.method new }

def component (c : RecordComponent) : PoolM RecordComponent := do
  let name ← r.source.text c.name
  let new ← r.memberType .field r.owner ⟨name, ← r.source.text c.descriptor⟩
  let nameIndex ← r.redirect c.name new.name
  let descriptorIndex ← r.redirect c.descriptor new.descriptor
  return ⟨nameIndex, descriptorIndex, ← c.attributes.mapM r.declared⟩

def classAttribute (a : Attribute) : PoolM Attribute := do
  let via {α : Type} (codec : Codec α) (relabel : α → PoolM α) : PoolM Attribute :=
    return { a with payload := ← payload codec relabel a.payload }
  match ← r.source.text a.name with
  | "InnerClasses" => via InnerClassRow.tableCodec fun rows => rows.mapM r.innerClass
  | "EnclosingMethod" => via EnclosingMethod.codec r.enclosingMethod
  | "Record" => via RecordComponent.tableCodec fun cs => cs.mapM r.component
  | _ => r.declared a

end Relabelling
end ClassRelabel
