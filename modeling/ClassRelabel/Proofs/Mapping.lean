/-
Mappings that give everything the name it has.

`Mappings.IsIdentity` says that every class, field and method that the mappings list keeps its name
and that no parameter has one.  The empty mappings are of this kind, and mappings stay so when a
class or a field is called by its own name.
-/
import ClassRelabel.Mapping.Basic

namespace ClassRelabel

open Std (ExtTreeMap)

theorem Mappings.class?_update (m : Mappings) (name owner : String)
    (f : ClassEntry → ClassEntry) :
    (m.update name f).class? owner =
      if owner = name then some (f ((m.class? name).getD .empty)) else m.class? owner := by
  simp only [class?, update, ExtTreeMap.getElem?_insert, Std.LawfulEqCmp.compare_eq_iff_eq,
    ExtTreeMap.getD_eq_getD_getElem?]
  by_cases howner : owner = name
  · rw [if_pos howner, if_pos howner.symm]
  · rw [if_neg howner, if_neg (Ne.symm howner)]

namespace ClassEntry

/-- A class, its fields and its methods keep their names, and no parameter has one. -/
structure IsIdentity (owner : String) (e : ClassEntry) : Prop where
  name : ∀ new, e.name = some new → new = owner
  fields : ∀ (field : String) (entry : FieldEntry), e.fields[field]? = some entry →
    entry.name = field
  methods : ∀ (key : MethodKey) (entry : MethodEntry), e.methods[key]? = some entry →
    entry.name = key.name
  parameters : ∀ (key : MethodKey) (entry : MethodEntry), e.methods[key]? = some entry →
    entry.parameters = ∅

theorem isIdentity_empty (owner : String) : empty.IsIdentity owner :=
  ⟨fun _ h => by simp [empty] at h, fun _ _ h => by simp [empty] at h,
    fun _ _ h => by simp [empty] at h, fun _ _ h => by simp [empty] at h⟩

variable {owner : String} {e : ClassEntry}

theorem IsIdentity.insertField (he : e.IsIdentity owner) (field : String)
    (descriptor : Option String) : (e.insertField field ⟨field, descriptor⟩).IsIdentity owner := by
  refine ⟨he.name, fun other entry h => ?_, he.methods, he.parameters⟩
  simp only [ClassEntry.insertField, ExtTreeMap.getElem?_insert,
    Std.LawfulEqCmp.compare_eq_iff_eq] at h
  split at h
  · rename_i heq
    rw [← Option.some.inj h]
    exact heq
  · exact he.fields other entry h

end ClassEntry

namespace Mappings

variable {m : Mappings}

/-- Every class that is listed, and every member of it, keeps its name. -/
def IsIdentity (m : Mappings) : Prop :=
  ∀ owner e, m.class? owner = some e → e.IsIdentity owner

theorem isIdentity_empty : empty.IsIdentity := fun _ _ h => by simp [empty, class?] at h

theorem IsIdentity.update (hm : m.IsIdentity) {name : String} {f : ClassEntry → ClassEntry}
    (hf : ∀ e : ClassEntry, e.IsIdentity name → (f e).IsIdentity name) :
    (m.update name f).IsIdentity := by
  intro owner e he
  rw [class?_update] at he
  split at he
  · rename_i howner
    rw [howner, ← Option.some.inj he]
    cases hname : m.class? name with
    | none => exact hf _ (ClassEntry.isIdentity_empty name)
    | some found => exact hf found (hm name found hname)
  · exact hm owner e he

theorem IsIdentity.nameClass (hm : m.IsIdentity) (name : String) :
    (m.nameClass name name).IsIdentity :=
  hm.update fun _ he =>
    ⟨fun _ h => (Option.some.inj h).symm, he.fields, he.methods, he.parameters⟩

theorem IsIdentity.nameField (hm : m.IsIdentity) (owner field : String)
    (descriptor : Option String) : (m.nameField owner field ⟨field, descriptor⟩).IsIdentity :=
  hm.update fun _ he => he.insertField field descriptor

end Mappings
end ClassRelabel
