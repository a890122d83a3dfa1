/-
Parameters stay in their slots.

The instructions of a method refer to its parameters by local variable slots, which the old
descriptor gives (`MethodType.slotOf`).  Parameters are named by slots that are counted along the
new descriptor, after it was spelled and read again.  `layout_of_parse` says that these are the
same slots, since new names of classes change no width and the new descriptor is read as the type
it was spelled from.
-/
import ClassRelabel.Proofs.Descriptor.Renaming
import ClassRelabel.Proofs.Naming.Class
import ClassRelabel.Proofs.Relabel.Parameters

namespace ClassRelabel

namespace FieldType

theorem totalSlots_mapClasses (f : String → String) (ts : List FieldType) :
    totalSlots (ts.map (mapClasses f)) = totalSlots ts := by
  induction ts with
  | nil => rfl
  | cons t ts ih => rw [List.map_cons, totalSlots, totalSlots, slots_mapClasses, ih]

/-- A parameter stands behind the slots of those in front of it, whatever they are. -/
theorem getElem?_withSlots (first : Nat) (ts : List FieldType) (k : Nat) :
    (withSlots first ts)[k]? =
      ts[k]?.map fun t => (UInt16.ofNat (first + totalSlots (ts.take k)), t) := by
  induction ts generalizing first k with
  | nil => simp [withSlots]
  | cons t ts ih =>
    cases k with
    | zero => simp [withSlots, totalSlots]
    | succ k =>
      rw [withSlots, List.getElem?_cons_succ, ih, List.getElem?_cons_succ, List.take_succ_cons,
        totalSlots, Nat.add_assoc]

end FieldType

namespace MethodType

/-- The slot in which parameter `k` is passed: behind the receiver, which a static method does not
have, and behind the slots of the parameters in front of it. -/
def slotOf (t : MethodType) (isStatic : Bool) (k : Nat) : Nat :=
  (if isStatic then 0 else 1) + FieldType.totalSlots (t.parameters.take k)

theorem slotOf_mapClasses (f : String → String) (t : MethodType) (isStatic : Bool) (k : Nat) :
    (t.mapClasses f).slotOf isStatic k = t.slotOf isStatic k := by
  rw [slotOf, slotOf, mapClasses, ← List.map_take, FieldType.totalSlots_mapClasses]

theorem parse_mapClasses {t : MethodType} (ht : t.Valid) {f : String → String}
    (hf : ∀ name, IsInternalName name → IsInternalName (f name)) :
    parse (toString (t.mapClasses f)) = .ok (t.mapClasses f) :=
  parse_eq_ok.mpr ⟨valid_mapClasses hf ht, rfl⟩

end MethodType

theorem NamedMethod.getElem?_slots (method : NamedMethod) {t : MethodType}
    (h : method.parameters = t.parameters) (k : Nat) :
    method.slots[k]? = t.parameters[k]?.map fun type =>
      (UInt16.ofNat (t.slotOf method.isStatic k), type) := by
  rw [slots, FieldType.getElem?_withSlots, h]
  rfl

/-- Naming the parameters of a method goes by the type of the method under the new names. -/
theorem Member.NamedAs.parameters_eq {m : Mappings} {owner : String} {p : Pool} {old : Member}
    {method : NamedMethod} (h : old.NamedAs m owner p method) (hm : m.NewNames IsInternalName)
    {t : MethodType} (ht : MethodType.parse method.id.descriptor = .ok t) :
    method.parameters = (t.mapClasses m.renameClass).parameters := by
  obtain ⟨new, t', hnew, ht', hparameters⟩ := h.parameters
  rw [Mappings.renameMethodType_eq, ht] at hnew
  rw [← Except.ok.inj hnew, MethodType.parse_mapClasses (MethodType.parse_eq_ok.mp ht).1
    fun _ => Mappings.isInternalName_renameClass hm] at ht'
  rw [hparameters, Except.ok.inj ht']

/-- A descriptor keeps its layout under other names of classes: it is read again as the type with
the names replaced, its parameters stay in their slots, and a second change of names gives what
both give at once.  So with mappings that give names which descriptors can hold, the parameters of
a method are named by the slots that its instructions use. -/
theorem layout_of_parse {d : String} {t : MethodType} (hd : MethodType.parse d = .ok t) :
    (∀ f : String → String, (∀ name, IsInternalName name → IsInternalName (f name)) →
      ∃ t', MethodType.parse (toString (t.mapClasses f)) = .ok t' ∧ t.Replaced f t' ∧
        (∀ isStatic k, t'.slotOf isStatic k = t.slotOf isStatic k) ∧
        ∀ g : String → String, t'.mapClasses g = t.mapClasses (g ∘ f)) ∧
    ∀ m : Mappings, m.NewNames IsInternalName →
      (∃ d' t', m.renameMethodType d = .ok d' ∧ MethodType.parse d' = .ok t' ∧
        t.Replaced m.renameClass t') ∧
      ∀ (owner : String) (p : Pool) (old : Member) (method : NamedMethod),
        old.NamedAs m owner p method → method.id.descriptor = d → ∀ k,
          method.slots[k]? = t.parameters[k]?.map fun type =>
            (UInt16.ofNat (t.slotOf old.isStatic k), type.mapClasses m.renameClass) := by
  have hvalid := (MethodType.parse_eq_ok.mp hd).1
  refine ⟨fun f hf => ?_, fun m hm => ⟨?_, fun owner p old method hnamed hdescriptor k => ?_⟩⟩
  · exact ⟨t.mapClasses f, MethodType.parse_mapClasses hvalid hf, MethodType.replaced_iff.mpr rfl,
      t.slotOf_mapClasses f, fun g => t.mapClasses_mapClasses f g⟩
  · have hnew : m.renameMethodType d = .ok (toString (t.mapClasses m.renameClass)) := by
      rw [Mappings.renameMethodType_eq, hd]
      rfl
    exact ⟨_, _, hnew, MethodType.parse_mapClasses hvalid fun _ =>
      Mappings.isInternalName_renameClass hm, MethodType.replaced_iff.mpr rfl⟩
  · have hparameters := hnamed.parameters_eq hm (hdescriptor ▸ hd)
    rw [method.getElem?_slots hparameters, MethodType.slotOf_mapClasses, hnamed.isStatic,
      MethodType.mapClasses, List.getElem?_map, Option.map_map]
    rfl

/-! ## Wide parameters

The method has a `long`, a class that is renamed, an array and an `int`.  The array takes one slot
as any object does, so the `int` behind the receiver is in slot 5. -/

namespace WideParameters

def type : MethodType :=
  ⟨[⟨.primitive .long, 0⟩, ⟨.object "a", 0⟩, ⟨.primitive .double, 1⟩, ⟨.primitive .int, 0⟩],
    ⟨.object "a", 0⟩⟩

def mappings : Mappings := Mappings.empty.nameClass "a" "net/Outer"

theorem valid_type : type.Valid := by
  have hname : IsInternalName "a" := by decide
  refine ⟨?_, .inl hname⟩
  simp [type, FieldType.Valid, Element.Valid, hname]

theorem parse_descriptor : MethodType.parse "(JLa;[DI)La;" = .ok type :=
  MethodType.parse_eq_ok.mpr ⟨valid_type, by decide⟩

theorem newNames_mappings : mappings.NewNames IsInternalName :=
  (Mappings.newNames_empty _).nameClass "a" (by decide)

end WideParameters

theorem layout_of_parse_wideParameters :
    MethodType.parse "(JLa;[DI)La;" = .ok WideParameters.type ∧
    WideParameters.mappings.NewNames IsInternalName ∧
    (∃ t', MethodType.parse
        (toString (WideParameters.type.mapClasses WideParameters.mappings.renameClass)) = .ok t' ∧
      t'.slotOf false 3 = 5) ∧
    ∃ d' t', WideParameters.mappings.renameMethodType "(JLa;[DI)La;" = .ok d' ∧
      MethodType.parse d' = .ok t' ∧
      WideParameters.type.Replaced WideParameters.mappings.renameClass t' := by
  have hm := WideParameters.newNames_mappings
  obtain ⟨hreplaced, hrenamed⟩ := layout_of_parse WideParameters.parse_descriptor
  obtain ⟨t', hparse, -, hslots, -⟩ :=
    hreplaced _ fun _ => Mappings.isInternalName_renameClass hm
  exact ⟨WideParameters.parse_descriptor, hm, ⟨t', hparse, hslots false 3⟩, (hrenamed _ hm).1⟩

end ClassRelabel
