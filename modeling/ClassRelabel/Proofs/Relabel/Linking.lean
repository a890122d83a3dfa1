/-
References between relabelled classes.

A declaration and a reference to it are renamed at different places, often in runs over different
classes, but both through `memberType` and under the names from before.  So they meet again:
`linked_of_relabel` says that a reference that resolves to a member declared by a class resolves
in the relabelled classes to the same member under the name it is declared by there.
-/
import ClassRelabel.Proofs.Relabel.Meaning

namespace ClassRelabel

open EStateM Pool

/-- The declared name and descriptor, as texts of the pool. -/
structure Member.Is (p : Pool) (f : Member) (t : NamedType) : Prop where
  name : p.text f.name = .ok t.name
  descriptor : p.text f.descriptor = .ok t.descriptor

theorem Member.Is.extend {p q : Pool} {f : Member} {t : NamedType} (h : f.Is p t)
    (hext : Extends p q) : f.Is q t :=
  ⟨hext.text h.name, hext.text h.descriptor⟩

theorem Member.Is.unique {p : Pool} {f : Member} {t t' : NamedType} (h : f.Is p t)
    (h' : f.Is p t') : t = t' := by
  obtain ⟨name, descriptor⟩ := t
  obtain ⟨name', descriptor'⟩ := t'
  obtain rfl := Except.ok.inj (h.name.symm.trans h'.name)
  obtain rfl := Except.ok.inj (h.descriptor.symm.trans h'.descriptor)
  rfl

namespace ClassFile

/-- The members that references of a kind may refer to. -/
def members (c : ClassFile) : MemberKind → List Member
  | .field => c.fields
  | .method | .interfaceMethod => c.methods

end ClassFile

namespace Relabelling

variable {r : Relabelling} {p q : Pool}

/-- `new` is declared in `q` by what the name and descriptor of `old` are renamed to. -/
def Redeclared (r : Relabelling) (q : Pool) (kind : MemberKind) (old new : Member) : Prop :=
  ∃ t t', old.Is r.source t ∧ r.memberType kind r.owner t = .ok t' ∧ new.Is q t'

theorem Redeclared.extend {kind : MemberKind} {old new : Member} (h : Redeclared r p kind old new)
    (hext : Extends p q) : Redeclared r q kind old new := by
  obtain ⟨t, t', hold, htype, hnew⟩ := h
  exact ⟨t, t', hold, htype, hnew.extend hext⟩

/-- The two indices that a declaration is given. -/
theorem text_redirects {i j i' j' : Index} {t : NamedType} {p₁ : Pool} (hp : Underway r p)
    (hi : r.redirect i t.name p = .ok i' p₁) (hj : r.redirect j t.descriptor p₁ = .ok j' q) :
    Underway r q ∧ q.text i' = .ok t.name ∧ q.text j' = .ok t.descriptor := by
  have hp₁ := (hp.grow (r.keeps_redirect i t.name p i' p₁ hi)).1
  have hgrows := r.keeps_redirect j t.descriptor p₁ j' q hj
  have hname := text_redirect hi hp.wellFormed hp.revises
  have hdescriptor := text_redirect hj hp₁.wellFormed hp₁.revises
  exact ⟨(hp₁.grow hgrows).1, hgrows.keeps.text hname, hdescriptor⟩

theorem redeclared_field {old new : Member} (hp : Underway r p)
    (h : r.field old p = .ok new q) : Redeclared r q .field old new := by
  simp only [field, bind_eq_ok, lift_eq_ok, pure_eq_ok] at h
  obtain ⟨name, _, ⟨hname, rfl⟩, descriptor, _, ⟨hdescriptor, rfl⟩, t, _, ⟨htype, rfl⟩, i, p₁, hi,
    j, p₂, hj, attributes, p₃, hattributes, rfl, rfl⟩ := h
  obtain ⟨-, hi', hj'⟩ := text_redirects hp hi hj
  have hkeep := (keeps_mapM r.keeps_declared _ _ _ _ hattributes).keeps
  exact ⟨⟨name, descriptor⟩, t, ⟨hname, hdescriptor⟩, htype, ⟨hkeep.text hi', hkeep.text hj'⟩⟩

theorem redeclared_method {old new : Member} {report : Option ParameterNames} (hp : Underway r p)
    (h : r.method old p = .ok (new, report) q) : Redeclared r q .method old new := by
  simp only [method, bind_eq_ok, lift_eq_ok] at h
  obtain ⟨name, _, ⟨hname, rfl⟩, descriptor, _, ⟨hdescriptor, rfl⟩, t, _, ⟨htype, rfl⟩, type, _,
    ⟨-, rfl⟩, h⟩ := h
  -- With a body or without one, the attributes come first and then the name and descriptor.
  have hrest : ∃ m used attributes p₁,
      r.methodAttributes m old.attributes used p = .ok attributes p₁ ∧
        ∃ i p₂, r.redirect old.name t.name p₁ = .ok i p₂ ∧
          ∃ j, r.redirect old.descriptor t.descriptor p₂ = .ok j q ∧
            new = ⟨old.access, i, j, attributes⟩ := by
    split at h <;> simp only [bind_eq_ok, lift_eq_ok, pure_eq_ok] at h
    all_goals
      obtain ⟨used, _, ⟨-, rfl⟩, attributes, p₁, hattributes, i, p₂, hi, j, _, hj, hnew, rfl⟩ := h
      exact ⟨_, _, attributes, p₁, hattributes, i, p₂, hi, j, hj, (Prod.mk.inj hnew).1.symm⟩
  obtain ⟨m, used, attributes, p₁, hattributes, i, p₂, hi, j, hj, rfl⟩ := hrest
  have hp₁ := (hp.grow (r.keeps_methodAttributes m _ used p attributes p₁ hattributes)).1
  obtain ⟨-, hi', hj'⟩ := text_redirects hp₁ hi hj
  exact ⟨⟨name, descriptor⟩, t, ⟨hname, hdescriptor⟩, htype, ⟨hi', hj'⟩⟩

theorem Relabelled.redeclared {c new : ClassFile} (h : Relabelled r c new) (kind : MemberKind) :
    List.Forall₂ (Redeclared r new.pool kind) (c.members kind) (new.members kind) := by
  have hmethods : List.Forall₂ (Redeclared r new.pool .method) c.methods new.methods := by
    refine h.methods.imp fun old m ⟨report, s, t, hs, hrun, _, hkeep⟩ => ?_
    exact (redeclared_method hs hrun).extend hkeep
  cases kind with
  | field =>
    refine h.fields.imp fun old f ⟨s, t, hs, hrun, _, hkeep⟩ => ?_
    exact (redeclared_field hs hrun).extend hkeep
  | method => exact hmethods
  | interfaceMethod => exact hmethods

end Relabelling

namespace ClassFile

open Relabelling

/-- References and declarations of two classes, possibly one and the same, stay linked. -/
theorem linked_of_relabel {bsX bsY : Bytes} {x y : ClassFile} {m : Mappings}
    {dx dy : Option Dictionary} {outX outY : RelabelledClass} (hx : parse bsX = .ok x)
    (hy : parse bsY = .ok y) (hX : x.relabel m dx = .ok outX) (hY : y.relabel m dy = .ok outY) :
    ∃ x' y', parse outX.bytes = .ok x' ∧ parse outY.bytes = .ok y' ∧ y'.name = .ok outY.name ∧
      ∀ (i : Index) (kind : MemberKind) (owner name descriptor : String) (k : Nat) (f : Member),
        y.name = .ok owner → x.pool.memberRef i = .ok ⟨kind, owner, name, descriptor⟩ →
        (y.members kind)[k]? = some f → f.Is y.pool ⟨name, descriptor⟩ →
        ∃ f' t, (y'.members kind)[k]? = some f' ∧ f'.Is y'.pool t ∧
          x'.pool.memberRef i = .ok ⟨kind, outY.name, t.name, t.descriptor⟩ := by
  obtain ⟨r, x', hr, -, hx', hrelabelled⟩ := relabelled_of_relabel (storable_of_parse hx) hX
  obtain ⟨s, y', hs, hname, hy', hrelabelled'⟩ := relabelled_of_relabel (storable_of_parse hy) hY
  have hthis : y'.name = .ok outY.name := by
    rw [hname, ← hs.mappings, name, hrelabelled'.thisClass]
    exact hrelabelled'.className hs.name
  refine ⟨x', y', hx', hy', hthis, ?_⟩
  intro i kind owner name descriptor k f howner href hf hdeclared
  obtain rfl := Except.ok.inj (howner.symm.trans hs.name)
  obtain ⟨hk, hget⟩ := List.getElem?_eq_some_iff.mp hf
  have hall := hrelabelled'.redeclared kind
  have hk' : k < (y'.members kind).length := by rwa [← hall.length_eq]
  obtain ⟨t, t', hold, htype, hnew⟩ := hall.get hk hk'
  rw [List.get_eq_getElem, hget, hs.source] at hold
  obtain rfl := hdeclared.unique hold
  -- The declaration and the reference are renamed by the same rule from the same names.
  obtain ⟨renamed, hrenamed, hnewRef⟩ := hrelabelled.memberRef href
  have hsame := renamed_of_memberType htype
  rw [hs.mappings] at hsame
  rw [hr.mappings] at hrenamed
  rw [hrenamed.unique hsame, ← hname] at hnewRef
  exact ⟨_, t', List.getElem?_eq_getElem hk', hnew, hnewRef⟩

end ClassFile

/-! ### A small class

The class `A` has a field `f` of its own type and refers to it.  The mappings call it `B` and the
field `g`. -/

namespace SelfReference

def bytes : Bytes :=
  [0xCA, 0xFE, 0xBA, 0xBE, 0, 0, 0, 52, 0, 7, 1, 0, 1, 65, 7, 0, 1, 1, 0, 1, 102, 1, 0, 3, 76, 65,
    59, 12, 0, 3, 0, 4, 9, 0, 2, 0, 5, 0, 0, 0, 2, 0, 0, 0, 0, 0, 1, 0, 1, 0, 3, 0, 4, 0, 0, 0, 0,
    0, 0]

def pool : Pool where
  slots := #[.unusable, .utf8 "A", .classRef 1, .utf8 "f", .utf8 "LA;", .nameAndType 3 4,
    .member .field 2 5]
  texts := {("A", 1), ("f", 3), ("LA;", 4)}
  classes := {(1, 2)}
  pairs := {((3, 4), 5)}

def classFile : ClassFile :=
  ⟨⟨52, 0⟩, pool, ⟨0⟩, 2, 0, [], [⟨⟨1⟩, 3, 4, []⟩], [], []⟩

def mappings : Mappings :=
  (Mappings.empty.nameClass "A" "B").nameField "A" "f" ⟨"g", none⟩

def relabelled : RelabelledClass where
  formerName := "A"
  name := "B"
  bytes := [0xCA, 0xFE, 0xBA, 0xBE, 0, 0, 0, 52, 0, 11, 1, 0, 1, 65, 7, 0, 7, 1, 0, 1, 102, 1, 0,
    3, 76, 65, 59, 12, 0, 3, 0, 4, 9, 0, 2, 0, 10, 1, 0, 1, 66, 1, 0, 1, 103, 1, 0, 3, 76, 66, 59,
    12, 0, 8, 0, 9, 0, 0, 0, 2, 0, 0, 0, 0, 0, 1, 0, 1, 0, 8, 0, 9, 0, 0, 0, 0, 0, 0]
  parameterNames := []

theorem parse_bytes : ClassFile.parse bytes = .ok classFile := by decide +kernel

theorem relabel_classFile : classFile.relabel mappings none = .ok relabelled := by decide +kernel

end SelfReference

namespace ClassFile

theorem linked_of_relabel_selfReference :
    parse SelfReference.bytes = .ok SelfReference.classFile ∧
      SelfReference.classFile.relabel SelfReference.mappings none = .ok SelfReference.relabelled ∧
      ∃ x' y', parse SelfReference.relabelled.bytes = .ok x' ∧
        parse SelfReference.relabelled.bytes = .ok y' ∧ y'.name = .ok "B" ∧
        ∃ f' t, y'.fields[0]? = some f' ∧ f'.Is y'.pool t ∧
          x'.pool.memberRef 6 = .ok ⟨.field, "B", t.name, t.descriptor⟩ := by
  obtain ⟨x', y', hx', hy', hname, hlinked⟩ := linked_of_relabel SelfReference.parse_bytes
    SelfReference.parse_bytes SelfReference.relabel_classFile SelfReference.relabel_classFile
  have hfield : Member.Is SelfReference.classFile.pool ⟨⟨1⟩, 3, 4, []⟩ ⟨"f", "LA;"⟩ := ⟨rfl, rfl⟩
  exact ⟨SelfReference.parse_bytes, SelfReference.relabel_classFile, x', y', hx', hy', hname,
    hlinked 6 .field "A" "f" "LA;" 0 _ rfl rfl rfl hfield⟩

end ClassFile
end ClassRelabel
