/-
Other names of classes in descriptors.

`Replaced f old new` says that two types differ in the names of classes alone, of which `f` gives
the new ones.  `mapClasses` makes the one type that is so (`replaced_iff`).  It keeps valid types
valid if `f` gives names that a descriptor can hold, it keeps what each type needs of local
variable slots, and one renaming after the other is their composition.
-/
import Mathlib.Data.List.Forall2
import ClassRelabel.Proofs.Descriptor.Grammar

namespace ClassRelabel

variable {f g : String → String}

namespace Element

inductive Replaced (f : String → String) : Element → Element → Prop
  | primitive (type : Primitive) : Replaced f (.primitive type) (.primitive type)
  | object (name : String) : Replaced f (.object name) (.object (f name))

variable {e e' : Element}

theorem replaced_iff : Replaced f e e' ↔ e' = e.mapClasses f := by
  constructor
  · rintro (_ | _) <;> rfl
  · rintro rfl
    cases e with
    | primitive type => exact .primitive type
    | object name => exact .object name

theorem valid_mapClasses (hf : ∀ name, IsInternalName name → IsInternalName (f name))
    (h : e.Valid) : (e.mapClasses f).Valid := by
  cases e with
  | primitive type => exact h
  | object name => exact hf name h

theorem slots_mapClasses (f : String → String) (e : Element) :
    (e.mapClasses f).slots = e.slots := by
  cases e <;> rfl

theorem mapClasses_mapClasses (f g : String → String) (e : Element) :
    (e.mapClasses f).mapClasses g = e.mapClasses (g ∘ f) := by
  cases e <;> rfl

theorem mapClasses_congr (h : ∀ name, IsInternalName name → f name = g name) (he : e.Readable) :
    e.mapClasses f = e.mapClasses g := by
  cases e with
  | primitive type => rfl
  | object name =>
    have hname : IsInternalName name := by simpa [Readable, Valid] using he
    rw [mapClasses, mapClasses, h name hname]

end Element

namespace FieldType

structure Replaced (f : String → String) (old new : FieldType) : Prop where
  element : Element.Replaced f old.element new.element
  dimensions : new.dimensions = old.dimensions

variable {t t' : FieldType}

theorem replaced_iff : Replaced f t t' ↔ t' = t.mapClasses f := by
  obtain ⟨element, dimensions⟩ := t
  obtain ⟨element', dimensions'⟩ := t'
  constructor
  · rintro ⟨helement, hdimensions⟩
    rw [mapClasses, ← Element.replaced_iff.mp helement, ← hdimensions]
  · intro h
    obtain ⟨rfl, rfl⟩ := FieldType.mk.inj h
    exact ⟨Element.replaced_iff.mpr rfl, rfl⟩

theorem forall₂_replaced_iff {ts ts' : List FieldType} :
    List.Forall₂ (Replaced f) ts ts' ↔ ts' = ts.map (mapClasses f) := by
  induction ts generalizing ts' with
  | nil => simp
  | cons t ts ih => simp only [List.forall₂_cons_left_iff, replaced_iff, ih, List.map_cons,
      exists_eq_left, exists_and_left]

theorem valid_mapClasses (hf : ∀ name, IsInternalName name → IsInternalName (f name))
    (h : t.Valid) : (t.mapClasses f).Valid :=
  Element.valid_mapClasses hf h

theorem validResult_mapClasses (hf : ∀ name, IsInternalName name → IsInternalName (f name))
    (h : t.ValidResult) : (t.mapClasses f).ValidResult :=
  h.imp (valid_mapClasses hf) fun ht => by rw [ht]; rfl

theorem slots_mapClasses (f : String → String) (t : FieldType) :
    (t.mapClasses f).slots = t.slots := by
  have harray : (t.mapClasses f).isArray = t.isArray := rfl
  rw [slots, slots, harray, mapClasses, Element.slots_mapClasses]

theorem mapClasses_mapClasses (f g : String → String) (t : FieldType) :
    (t.mapClasses f).mapClasses g = t.mapClasses (g ∘ f) := by
  rw [mapClasses, mapClasses, mapClasses, Element.mapClasses_mapClasses]

theorem mapClasses_congr (h : ∀ name, IsInternalName name → f name = g name)
    (ht : t.ValidResult) : t.mapClasses f = t.mapClasses g := by
  rw [mapClasses, mapClasses, Element.mapClasses_congr h (readable_element ht)]

end FieldType

namespace MethodType

structure Replaced (f : String → String) (old new : MethodType) : Prop where
  parameters : List.Forall₂ (FieldType.Replaced f) old.parameters new.parameters
  result : FieldType.Replaced f old.result new.result

variable {m m' : MethodType}

theorem replaced_iff : Replaced f m m' ↔ m' = m.mapClasses f := by
  obtain ⟨parameters', result'⟩ := m'
  rw [mapClasses, MethodType.mk.injEq, ← FieldType.forall₂_replaced_iff, ← FieldType.replaced_iff]
  exact ⟨fun h => ⟨h.parameters, h.result⟩, fun h => ⟨h.1, h.2⟩⟩

theorem valid_mapClasses (hf : ∀ name, IsInternalName name → IsInternalName (f name))
    (h : m.Valid) : (m.mapClasses f).Valid :=
  ⟨List.forall_mem_map.mpr fun t ht => FieldType.valid_mapClasses hf (h.parameters t ht),
    FieldType.validResult_mapClasses hf h.result⟩

theorem mapClasses_mapClasses (f g : String → String) (m : MethodType) :
    (m.mapClasses f).mapClasses g = m.mapClasses (g ∘ f) := by
  rw [mapClasses, mapClasses, mapClasses, FieldType.mapClasses_mapClasses, List.map_map]
  simp only [Function.comp_def, FieldType.mapClasses_mapClasses]

theorem mapClasses_congr (h : ∀ name, IsInternalName name → f name = g name) (hm : m.Valid) :
    m.mapClasses f = m.mapClasses g := by
  rw [mapClasses, mapClasses, FieldType.mapClasses_congr h hm.result,
    List.map_congr_left fun t ht => FieldType.mapClasses_congr h (.inl (hm.parameters t ht))]

end MethodType
end ClassRelabel
