/-
Relabelling appends names to the pool and does nothing else to it.

Only the pass over the constants replaces any; every other step of `Relabelling.parts` grows the
pool.  The statements follow the definitions, one for each.
-/
import ClassRelabel.Proofs.Pool.Interning
import ClassRelabel.Relabel.Class

namespace ClassRelabel
namespace Relabelling

open EStateM Pool

variable (r : Relabelling)

theorem keeps_redirect (i : Index) (new : String) : Keeps Grows (r.redirect i new) := by
  refine keeps_bind (keeps_lift _) fun s => ?_
  by_cases h : s = new
  · rw [if_pos h]
    exact keeps_pure i
  · rw [if_neg h]
    exact keeps_internText new

theorem keeps_redirectPair (i : Index) (new : NamedType) :
    Keeps Grows (r.redirectPair i new) := by
  refine keeps_bind (keeps_lift _) fun t => ?_
  by_cases h : t = new
  · rw [if_pos h]
    exact keeps_pure i
  · rw [if_neg h]
    exact keeps_internPair new.name new.descriptor

theorem keeps_constant (c : Constant) : Keeps Grows (r.constant c) := by
  cases c with
  | classRef name =>
    exact keeps_bind (keeps_lift _) fun _ => keeps_bind (r.keeps_redirect _ _) fun _ =>
      keeps_pure _
  | member kind owner pair =>
    exact keeps_bind (keeps_lift _) fun _ => keeps_bind (keeps_lift _) fun _ =>
      keeps_bind (keeps_lift _) fun _ => keeps_bind (r.keeps_redirectPair _ _) fun _ =>
        keeps_pure _
  | methodType descriptor =>
    exact keeps_bind (keeps_lift _) fun _ => keeps_bind (keeps_lift _) fun _ =>
      keeps_bind (r.keeps_redirect _ _) fun _ => keeps_pure _
  | dynamic bootstrap pair =>
    exact keeps_bind (keeps_lift _) fun _ => keeps_bind (keeps_lift _) fun _ =>
      keeps_bind (r.keeps_redirectPair _ _) fun _ => keeps_pure _
  | invokeDynamic bootstrap pair =>
    exact keeps_bind (keeps_lift _) fun _ => keeps_bind (keeps_lift _) fun _ =>
      keeps_bind (keeps_lift _) fun _ => keeps_bind (r.keeps_redirectPair _ _) fun _ =>
        keeps_pure _
  | _ => exact keeps_pure _

/-! ## Attributes -/

theorem keeps_descriptor (i : Index) : Keeps Grows (r.descriptor i) :=
  keeps_bind (keeps_lift _) fun _ => keeps_bind (keeps_lift _) fun _ => r.keeps_redirect _ _

theorem keeps_resultDescriptor (i : Index) : Keeps Grows (r.resultDescriptor i) :=
  keeps_bind (keeps_lift _) fun _ => keeps_bind (keeps_lift _) fun _ => r.keeps_redirect _ _

theorem keeps_signature (i : Index) : Keeps Grows (r.signature i) :=
  keeps_bind (keeps_lift _) fun _ => keeps_bind (keeps_lift _) fun _ => r.keeps_redirect _ _

mutual

theorem keeps_element : ∀ value : ElementValue, Keeps Grows (r.element value)
  | .const tag value => by
    rw [element]
    exact keeps_pure _
  | .enum type name => by
    rw [element]
    exact keeps_bind (r.keeps_descriptor _) fun _ => keeps_pure _
  | .classInfo type => by
    rw [element]
    exact keeps_bind (r.keeps_resultDescriptor _) fun _ => keeps_pure _
  | .nested type values => by
    rw [element]
    exact keeps_bind (keeps_lift _) fun _ => keeps_bind (keeps_lift _) fun _ =>
      keeps_bind (keeps_namedElements values) fun _ => keeps_bind (r.keeps_redirect _ _) fun _ =>
        keeps_pure _
  | .array values => by
    rw [element]
    exact keeps_bind (keeps_elements values) fun _ => keeps_pure _

theorem keeps_namedElements :
    ∀ values : List (Index × ElementValue), Keeps Grows (r.namedElements values)
  | [] => by
    rw [namedElements]
    exact keeps_pure _
  | (name, value) :: rest => by
    rw [namedElements]
    exact keeps_bind (keeps_element value) fun _ => keeps_bind (keeps_namedElements rest) fun _ =>
      keeps_pure _

theorem keeps_elements : ∀ values : List ElementValue, Keeps Grows (r.elements values)
  | [] => by
    rw [elements]
    exact keeps_pure _
  | value :: rest => by
    rw [elements]
    exact keeps_bind (keeps_element value) fun _ => keeps_bind (keeps_elements rest) fun _ =>
      keeps_pure _

end

theorem keeps_annotationRow (a : Annotation) : Keeps Grows (r.annotationRow a) :=
  keeps_bind (keeps_lift _) fun _ => keeps_bind (keeps_lift _) fun _ =>
    keeps_bind (r.keeps_namedElements _) fun _ => keeps_bind (r.keeps_redirect _ _) fun _ =>
      keeps_pure _

theorem keeps_payload {α : Type} (codec : Codec α) {relabel : α → PoolM α}
    (h : ∀ a, Keeps Grows (relabel a)) (bs : Bytes) :
    Keeps Grows (payload codec relabel bs) :=
  keeps_bind (keeps_lift _) fun a => keeps_bind (h a) fun _ => keeps_lift _

/-- An attribute whose payload alone is relabelled. -/
theorem keeps_via {α : Type} (codec : Codec α) {relabel : α → PoolM α}
    (h : ∀ a, Keeps Grows (relabel a)) (a : Attribute) :
    Keeps Grows (do return { a with payload := ← payload codec relabel a.payload } :
      PoolM Attribute) :=
  keeps_bind (keeps_payload codec h a.payload) fun _ => keeps_pure _

theorem keeps_declared (a : Attribute) : Keeps Grows (r.declared a) := by
  refine keeps_bind (keeps_lift _) fun name => ?_
  split
  · exact keeps_via _ r.keeps_signature a
  · exact keeps_via _ (keeps_mapM r.keeps_annotationRow) a
  · exact keeps_via _ (keeps_mapM r.keeps_annotationRow) a
  · exact keeps_via _ (keeps_mapM fun as => keeps_mapM r.keeps_annotationRow as) a
  · exact keeps_via _ (keeps_mapM fun as => keeps_mapM r.keeps_annotationRow as) a
  · exact keeps_via _ r.keeps_element a
  · exact keeps_pure a

theorem keeps_innerClass (row : InnerClassRow) : Keeps Grows (r.innerClass row) := by
  unfold innerClass
  by_cases h : row.name = 0
  · simp only [if_pos h]
    exact keeps_pure row
  · simp only [if_neg h]
    exact keeps_bind (keeps_lift _) fun _ => keeps_bind (keeps_lift _) fun _ =>
      keeps_bind (r.keeps_redirect _ _) fun _ => keeps_pure _

theorem keeps_enclosingMethod (e : EnclosingMethod) : Keeps Grows (r.enclosingMethod e) := by
  unfold enclosingMethod
  by_cases h : e.method = 0
  · simp only [if_pos h]
    exact keeps_pure e
  · simp only [if_neg h]
    exact keeps_bind (keeps_lift _) fun _ => keeps_bind (keeps_lift _) fun _ =>
      keeps_bind (keeps_lift _) fun _ => keeps_bind (r.keeps_redirectPair _ _) fun _ =>
        keeps_pure _

theorem keeps_component (c : RecordComponent) : Keeps Grows (r.component c) :=
  keeps_bind (keeps_lift _) fun _ => keeps_bind (keeps_lift _) fun _ =>
    keeps_bind (keeps_lift _) fun _ => keeps_bind (r.keeps_redirect _ _) fun _ =>
      keeps_bind (r.keeps_redirect _ _) fun _ =>
        keeps_bind (keeps_mapM r.keeps_declared _) fun _ => keeps_pure _

theorem keeps_classAttribute (a : Attribute) : Keeps Grows (r.classAttribute a) := by
  refine keeps_bind (keeps_lift _) fun name => ?_
  split
  · exact keeps_via _ (keeps_mapM r.keeps_innerClass) a
  · exact keeps_via _ r.keeps_enclosingMethod a
  · exact keeps_via _ (keeps_mapM r.keeps_component) a
  · exact r.keeps_declared a

/-! ## Members -/

theorem keeps_variableRow (names : List (UInt16 × String)) (row : LocalRow) :
    Keeps Grows (r.variableRow names row) := by
  refine keeps_bind (r.keeps_descriptor _) fun type => ?_
  split
  · exact keeps_pure _
  · exact keeps_bind (r.keeps_redirect _ _) fun _ => keeps_pure _

theorem keeps_typeRow (named : List LocalRow) (row : LocalRow) :
    Keeps Grows (r.typeRow named row) :=
  keeps_bind (r.keeps_signature _) fun _ => keeps_pure _

theorem keeps_variableTable (names : List (UInt16 × String)) (a : BodyAttribute) :
    Keeps Grows (r.variableTable names a) := by
  cases a with
  | locals name rows =>
    exact keeps_bind (keeps_mapM (r.keeps_variableRow names) _) fun _ => keeps_pure _
  | _ => exact keeps_pure _

theorem keeps_typeTable (named : List LocalRow) (a : BodyAttribute) :
    Keeps Grows (r.typeTable named a) := by
  cases a with
  | localTypes name rows =>
    exact keeps_bind (keeps_mapM (r.keeps_typeRow named) _) fun _ => keeps_pure _
  | _ => exact keeps_pure _

theorem keeps_code (m : NamedMethod) (c : Code) (used : UsedNames) :
    Keeps Grows (r.code m c used) :=
  keeps_bind (keeps_mapM (fun _ => keeps_lift _) _) fun _ => keeps_bind (keeps_lift _) fun _ =>
    keeps_bind (keeps_lift _) fun _ => keeps_bind (keeps_mapM (r.keeps_variableTable _) _) fun _ =>
      keeps_bind (keeps_mapM (r.keeps_typeTable _) _) fun _ =>
        keeps_bind (keeps_mapM (fun _ => keeps_lift _) _) fun _ => keeps_pure _

theorem keeps_methodAttributes (m : NamedMethod) (as : List Attribute) (used : UsedNames) :
    Keeps Grows (r.methodAttributes m as used) := by
  induction as generalizing used with
  | nil => exact keeps_pure []
  | cons a rest ih =>
    refine keeps_bind (keeps_lift _) fun name => ?_
    split
    · exact keeps_bind (keeps_lift _) fun _ => keeps_bind (r.keeps_code m _ used) fun _ =>
        keeps_bind (keeps_lift _) fun _ => keeps_bind (ih _) fun _ => keeps_pure _
    · exact keeps_bind (r.keeps_declared a) fun _ => keeps_bind (ih used) fun _ => keeps_pure _

theorem keeps_field (f : Member) : Keeps Grows (r.field f) :=
  keeps_bind (keeps_lift _) fun _ => keeps_bind (keeps_lift _) fun _ =>
    keeps_bind (keeps_lift _) fun _ => keeps_bind (r.keeps_redirect _ _) fun _ =>
      keeps_bind (r.keeps_redirect _ _) fun _ =>
        keeps_bind (keeps_mapM r.keeps_declared _) fun _ => keeps_pure _

theorem keeps_method (m : Member) : Keeps Grows (r.method m) := by
  refine keeps_bind (keeps_lift _) fun _ => keeps_bind (keeps_lift _) fun _ =>
    keeps_bind (keeps_lift _) fun _ => keeps_bind (keeps_lift _) fun _ => ?_
  split <;>
    refine keeps_bind ?_ fun _ => keeps_bind (r.keeps_methodAttributes _ _ _) fun _ =>
      keeps_bind (r.keeps_redirect _ _) fun _ => keeps_bind (r.keeps_redirect _ _) fun _ =>
        keeps_pure _
  · exact keeps_pure _
  · exact keeps_lift _

end Relabelling
end ClassRelabel
