/-
Mappings as what they say.

A fact is the new name of a class, or the entry of one of its fields or methods.  Mappings say one
fact at most about a subject, and mappings that give every class a name are determined by the facts
they say.  So they come out when their facts are told in any order: `Listed.foldl_tell`.
-/
import Mathlib.Data.List.Nodup
import ClassRelabel.Proofs.Hierarchy.Result

namespace ClassRelabel

open Std (ExtTreeMap)

/-- What can be said about a class or one of its members. -/
inductive Fact where
  | className (owner new : String)
  | field (owner name : String) (entry : FieldEntry)
  | method (owner : String) (key : MethodKey) (entry : MethodEntry)
deriving DecidableEq

/-- What a fact is about. -/
inductive Subject where
  | className (owner : String)
  | field (owner name : String)
  | method (owner : String) (key : MethodKey)
deriving DecidableEq

namespace Fact

def subject : Fact → Subject
  | className owner _ => .className owner
  | field owner name _ => .field owner name
  | method owner key _ => .method owner key

def owner : Fact → String
  | className owner _ => owner
  | field owner _ _ => owner
  | method owner _ _ => owner

theorem owner_eq_of_subject_eq {f g : Fact} (h : f.subject = g.subject) : f.owner = g.owner := by
  cases f <;> cases g <;> simp_all [subject, owner]

end Fact

namespace ClassEntry

/-- The fact is among the entry, whichever class has it. -/
def Says (e : ClassEntry) : Fact → Prop
  | .className _ new => e.name = some new
  | .field _ name entry => e.fields[name]? = some entry
  | .method _ key entry => e.methods[key]? = some entry

def tell (e : ClassEntry) : Fact → ClassEntry
  | .className _ new => { e with name := some new }
  | .field _ name entry => e.insertField name entry
  | .method _ key entry => e.insertMethod key entry

variable {e e' : ClassEntry} {f g : Fact}

theorem not_says_empty (f : Fact) : ¬empty.Says f := by
  cases f <;> simp [Says, empty]

/-- Telling a fact replaces what was said about its subject and nothing else. -/
theorem says_tell (howner : g.owner = f.owner) :
    (e.tell f).Says g ↔ g = f ∨ g.subject ≠ f.subject ∧ e.Says g := by
  cases f <;> cases g <;>
    simp only [Fact.owner, tell, insertField, insertMethod, Says, Fact.subject,
      ExtTreeMap.getElem?_insert, Std.LawfulEqCmp.compare_eq_iff_eq] at howner ⊢ <;>
    grind

theorem Says.unique (hf : e.Says f) (hg : e.Says g) (h : f.subject = g.subject) : f = g := by
  cases f <;> cases g <;> simp_all [Says, Fact.subject]

theorem ext_says (owner : String) (h : ∀ f : Fact, f.owner = owner → (e.Says f ↔ e'.Says f)) :
    e = e' := by
  have hname : e.name = e'.name := Option.ext fun new => h (.className owner new) rfl
  have hfields : e.fields = e'.fields :=
    ExtTreeMap.ext_getElem? fun name => Option.ext fun entry => h (.field owner name entry) rfl
  have hmethods : e.methods = e'.methods :=
    ExtTreeMap.ext_getElem? fun key => Option.ext fun entry => h (.method owner key entry) rfl
  cases e
  cases e'
  simp_all

end ClassEntry

namespace Mappings

variable {m : Mappings} {f g : Fact} {l : List Fact} {owner : String}

def Says (m : Mappings) (f : Fact) : Prop := ∃ e, m.class? f.owner = some e ∧ e.Says f

def tell (m : Mappings) (f : Fact) : Mappings := m.update f.owner (·.tell f)

/-- Every class that is listed has a new name. -/
def Named (m : Mappings) : Prop := ∀ owner e, m.class? owner = some e → ∃ new, e.name = some new

/-- The list has what the mappings say, each fact once. -/
def Listed (m : Mappings) (l : List Fact) : Prop := l.Nodup ∧ ∀ f, f ∈ l ↔ m.Says f

theorem says_iff {e : ClassEntry} (h : m.class? f.owner = some e) : m.Says f ↔ e.Says f := by
  simp [Says, h]

theorem not_says_empty (f : Fact) : ¬empty.Says f := by
  simp [Says, class?, empty]

theorem Says.unique (hf : m.Says f) (hg : m.Says g) (h : f.subject = g.subject) : f = g := by
  obtain ⟨e, hclass, hf⟩ := hf
  rw [Fact.owner_eq_of_subject_eq h] at hclass
  exact hf.unique ((says_iff hclass).mp hg) h

theorem class?_tell : (m.tell f).class? owner =
    if owner = f.owner then some (((m.class? f.owner).getD .empty).tell f) else m.class? owner :=
  class?_update m f.owner owner _

theorem says_tell : (m.tell f).Says g ↔ g = f ∨ g.subject ≠ f.subject ∧ m.Says g := by
  by_cases howner : g.owner = f.owner
  · have hsaid : ((m.class? f.owner).getD .empty).Says g ↔ m.Says g := by
      rw [Says, howner]
      cases m.class? f.owner <;> simp [ClassEntry.not_says_empty]
    have hclass : (m.tell f).class? g.owner = some (((m.class? f.owner).getD .empty).tell f) := by
      rw [class?_tell, if_pos howner]
    rw [says_iff hclass, ClassEntry.says_tell howner, hsaid]
  · have hsubject : g.subject ≠ f.subject := fun h => howner (Fact.owner_eq_of_subject_eq h)
    have hne : g ≠ f := fun h => howner (congrArg Fact.owner h)
    rw [Says, class?_tell, if_neg howner]
    simp [Says, hsubject, hne]

/-! ## Many facts -/

theorem says_foldl_tell (hl : (l.map Fact.subject).Nodup) : (l.foldl tell m).Says g ↔
    g ∈ l ∨ g.subject ∉ l.map Fact.subject ∧ m.Says g := by
  induction l generalizing m with
  | nil => simp
  | cons f l ih =>
    obtain ⟨hf, hl⟩ := List.nodup_cons.mp hl
    rw [List.foldl_cons, ih hl, says_tell, List.mem_cons, List.map_cons, List.mem_cons, not_or]
    have hin : g = f → g.subject ∉ l.map Fact.subject := fun h => h ▸ hf
    tauto

theorem isSome_class?_foldl_tell : ((l.foldl tell m).class? owner).isSome ↔
    (∃ f ∈ l, f.owner = owner) ∨ (m.class? owner).isSome := by
  induction l generalizing m with
  | nil => simp
  | cons f l ih =>
    rw [List.foldl_cons, ih, class?_tell]
    by_cases howner : owner = f.owner
    · simp [howner]
    · simp [howner, Ne.symm howner]

/-- Facts about different subjects are what some mappings say. -/
theorem listed_foldl_tell (hl : (l.map Fact.subject).Nodup) : (l.foldl tell .empty).Listed l := by
  refine ⟨hl.of_map, fun f => ?_⟩
  rw [says_foldl_tell hl]
  simp [not_says_empty]

theorem Listed.nodup_subject (h : m.Listed l) : (l.map Fact.subject).Nodup :=
  List.Nodup.map_on (fun f hf g hg => ((h.2 f).mp hf).unique ((h.2 g).mp hg)) h.1

/-- Facts that are told in any order make the mappings that say them. -/
theorem Listed.foldl_tell (hm : m.Named) (h : m.Listed l) : l.foldl tell .empty = m := by
  have hsaid : ∀ f, (l.foldl tell .empty).Says f ↔ m.Says f := fun f => by
    rw [says_foldl_tell h.nodup_subject, h.2 f]
    simp [not_says_empty]
  -- No class is made up: one that is known in the end has a fact, so it was known before.
  have hknown : ∀ owner, ((l.foldl tell .empty).class? owner).isSome →
      (m.class? owner).isSome := by
    intro owner hsome
    rcases isSome_class?_foldl_tell.mp hsome with ⟨f, hf, rfl⟩ | hnone
    · obtain ⟨e, he, -⟩ := (h.2 f).mp hf
      rw [he, Option.isSome_some]
    · simp [class?, empty] at hnone
  refine ext_class? fun owner => ?_
  cases hclass : m.class? owner with
  | none =>
    cases hfold : (l.foldl tell .empty).class? owner with
    | none => rfl
    | some e' =>
      have hsome := hknown owner (by rw [hfold, Option.isSome_some])
      simp [hclass] at hsome
  | some e =>
    obtain ⟨new, hnew⟩ := hm owner e hclass
    obtain ⟨e', hfold, -⟩ := (hsaid (.className owner new)).mpr ⟨e, hclass, hnew⟩
    refine hfold.trans (congrArg some (ClassEntry.ext_says owner fun f howner => ?_))
    rw [← says_iff (howner ▸ hfold), ← says_iff (howner ▸ hclass), hsaid]

/-! ## Facts that are still to be told -/

/-- The facts are about different subjects, and the mappings say nothing about any of them. -/
structure Fresh (m : Mappings) (l : List Fact) : Prop where
  apart : (l.map Fact.subject).Nodup
  unsaid : ∀ f ∈ l, ∀ g, m.Says g → g.subject ≠ f.subject

theorem Listed.fresh (h : m.Listed l) : Fresh .empty l :=
  ⟨h.nodup_subject, fun _ _ g hg => absurd hg (not_says_empty g)⟩

/-- The rest is still to be told after something was told about the first subject. -/
theorem Fresh.tell (h : m.Fresh (f :: l)) (hg : g.subject = f.subject) : (m.tell g).Fresh l := by
  obtain ⟨hf, hl⟩ := List.nodup_cons.mp h.apart
  refine ⟨hl, fun f' hf' g' hg' => ?_⟩
  rcases says_tell.mp hg' with rfl | ⟨-, hsaid⟩
  · intro heq
    exact hf (hg ▸ heq ▸ List.mem_map_of_mem hf')
  · exact h.unsaid f' (List.mem_cons_of_mem f hf') g' hsaid

theorem Fresh.foldl_tell {fs : List Fact} {φ : Fact → Fact}
    (h : m.Fresh (fs ++ l)) (hφ : ∀ f, (φ f).subject = f.subject) :
    ((fs.map φ).foldl Mappings.tell m).Fresh l := by
  induction fs generalizing m with
  | nil => exact h
  | cons f fs ih => exact ih (h.tell (hφ f))

/-- A method that nothing is said about has no parameters yet. -/
theorem Fresh.nameMethod {key : MethodKey} {entry : MethodEntry}
    (h : m.Fresh (.method owner key entry :: l)) (new : String) :
    m.nameMethod owner key new = m.tell (.method owner key ⟨new, ∅⟩) := by
  have hnone : ((m.class? owner).getD .empty).methods.getD key ⟨key.name, ∅⟩ = ⟨key.name, ∅⟩ := by
    rw [ExtTreeMap.getD_eq_getD_getElem?]
    cases hclass : m.class? owner with
    | none => simp [ClassEntry.empty]
    | some e =>
      cases hkey : e.methods[key]? with
      | none => simp [hkey]
      | some found =>
        have hsaid : m.Says (.method owner key found) := ⟨e, hclass, hkey⟩
        exact (h.unsaid _ List.mem_cons_self _ hsaid rfl).elim
  refine ext_class? fun other => ?_
  rw [Mappings.nameMethod, class?_update, class?_tell]
  simp only [ClassEntry.updateMethod, hnone]
  rfl

end Mappings

/-! ## All facts in order -/

/-- Every member stands behind its class, with only members of that class in between. -/
inductive Grouped : Option String → List Fact → Prop
  | nil {above : Option String} : Grouped above []
  | className {above : Option String} {owner new : String} {l : List Fact}
      (hrest : Grouped (some owner) l) : Grouped above (.className owner new :: l)
  | field {owner name : String} {entry : FieldEntry} {l : List Fact}
      (hrest : Grouped (some owner) l) : Grouped (some owner) (.field owner name entry :: l)
  | method {owner : String} {key : MethodKey} {entry : MethodEntry} {l : List Fact}
      (hrest : Grouped (some owner) l) : Grouped (some owner) (.method owner key entry :: l)

theorem nodup_toList {α β : Type} {cmp : α → α → Ordering} [Std.TransCmp cmp]
    (t : ExtTreeMap α β cmp) : t.toList.Nodup := by
  have hkeys : (t.toList.map Prod.fst).Nodup := by
    rw [ExtTreeMap.map_fst_toList_eq_keys]
    exact ExtTreeMap.nodup_keys
  exact hkeys.of_map

namespace ClassEntry

variable {e : ClassEntry} {owner : String} {f : Fact}

def memberFacts (owner : String) (e : ClassEntry) : List Fact :=
  e.fields.toList.map (fun x => .field owner x.1 x.2) ++
    e.methods.toList.map fun x => .method owner x.1 x.2

def facts (owner : String) (e : ClassEntry) : List Fact :=
  e.name.toList.map (.className owner) ++ e.memberFacts owner

theorem mem_facts : f ∈ e.facts owner ↔ f.owner = owner ∧ e.Says f := by
  simp only [facts, memberFacts, List.mem_append, List.mem_map, Option.mem_toList, Prod.exists,
    ExtTreeMap.mem_toList_iff_getElem?_eq_some]
  cases f <;> simp [Fact.owner, Says] <;> grind

theorem nodup_facts : (e.facts owner).Nodup := by
  have hname : (e.name.toList.map (Fact.className owner)).Nodup := by
    cases e.name <;> simp
  have hfields : (e.fields.toList.map fun x => Fact.field owner x.1 x.2).Nodup :=
    (nodup_toList e.fields).map fun x y h => by simpa [Prod.ext_iff] using h
  have hmethods : (e.methods.toList.map fun x => Fact.method owner x.1 x.2).Nodup :=
    (nodup_toList e.methods).map fun x y h => by simpa [Prod.ext_iff] using h
  refine hname.append (hfields.append hmethods ?_) ?_
  · intro f hf hf'
    obtain ⟨x, -, rfl⟩ := List.mem_map.mp hf
    simp at hf'
  · intro f hf hf'
    obtain ⟨x, -, rfl⟩ := List.mem_map.mp hf
    simp [memberFacts] at hf'

theorem grouped_append {front l : List Fact} (hfront : ∀ f ∈ front, f ∈ e.memberFacts owner)
    (hl : Grouped (some owner) l) : Grouped (some owner) (front ++ l) := by
  induction front with
  | nil => exact hl
  | cons f front ih =>
    obtain ⟨hf, hrest⟩ := List.forall_mem_cons.mp hfront
    rcases List.mem_append.mp hf with hf | hf
    · obtain ⟨x, -, rfl⟩ := List.mem_map.mp hf
      exact .field (ih hrest)
    · obtain ⟨x, -, rfl⟩ := List.mem_map.mp hf
      exact .method (ih hrest)

end ClassEntry

namespace Mappings

variable {m : Mappings}

/-- What the mappings say, class by class. -/
def facts (m : Mappings) : List Fact := m.classes.toList.flatMap fun c => c.2.facts c.1

theorem listed_facts (m : Mappings) : m.Listed m.facts := by
  constructor
  · refine List.nodup_flatMap.mpr ⟨fun _ _ => ClassEntry.nodup_facts, ?_⟩
    have hkeys := ExtTreeMap.distinct_keys_toList (t := m.classes)
    refine hkeys.imp fun {c d} hne f hc hd => hne ?_
    rw [← (ClassEntry.mem_facts.mp hc).1, ← (ClassEntry.mem_facts.mp hd).1]
    exact Std.ReflCmp.compare_self
  · intro f
    simp only [facts, List.mem_flatMap, Prod.exists, ExtTreeMap.mem_toList_iff_getElem?_eq_some,
      ClassEntry.mem_facts, Says, class?]
    constructor
    · rintro ⟨owner, e, hclass, rfl, hsaid⟩
      exact ⟨e, hclass, hsaid⟩
    · rintro ⟨e, hclass, hsaid⟩
      exact ⟨f.owner, e, hclass, rfl, hsaid⟩

theorem grouped_facts (hm : m.Named) : Grouped none m.facts := by
  have hclasses : ∀ cs : List (String × ClassEntry), (∀ c ∈ cs, ∃ new, c.2.name = some new) →
      ∀ above, Grouped above (cs.flatMap fun c => c.2.facts c.1) := by
    intro cs hcs
    induction cs with
    | nil => exact fun _ => .nil
    | cons c cs ih =>
      obtain ⟨⟨new, hnew⟩, hcs⟩ := List.forall_mem_cons.mp hcs
      intro above
      rw [List.flatMap_cons, ClassEntry.facts, hnew]
      exact .className (ClassEntry.grouped_append (fun _ hf => hf) (ih hcs _))
  refine hclasses _ (fun c hc => ?_) none
  exact hm c.1 c.2 (ExtTreeMap.mem_toList_iff_getElem?_eq_some.mp hc)

end Mappings

/-! ## Leaving something out -/

def FieldEntry.withoutDescriptor (e : FieldEntry) : FieldEntry := { e with descriptor := none }

def MethodEntry.withoutParameters (e : MethodEntry) : MethodEntry := { e with parameters := ∅ }

section MapEntries

variable (φ : FieldEntry → FieldEntry) (ψ : MethodEntry → MethodEntry)

def ClassEntry.mapEntries (e : ClassEntry) : ClassEntry :=
  ⟨e.name, e.fields.map fun _ => φ, e.methods.map fun _ => ψ⟩

def Mappings.mapEntries (m : Mappings) : Mappings := ⟨m.classes.map fun _ => .mapEntries φ ψ⟩

def Fact.mapEntries : Fact → Fact
  | className owner new => className owner new
  | field owner name entry => field owner name (φ entry)
  | method owner key entry => method owner key (ψ entry)

variable {φ ψ}
variable {m : Mappings} {f : Fact} {l : List Fact}

theorem Fact.subject_mapEntries : (f.mapEntries φ ψ).subject = f.subject := by
  cases f <;> rfl

theorem Mappings.class?_mapEntries (owner : String) :
    (m.mapEntries φ ψ).class? owner = (m.class? owner).map (·.mapEntries φ ψ) := by
  simp [class?, mapEntries]

theorem ClassEntry.says_mapEntries {e : ClassEntry} {g : Fact} :
    (e.mapEntries φ ψ).Says g ↔ ∃ f : Fact, e.Says f ∧ f.mapEntries φ ψ = g := by
  constructor
  · intro h
    cases g with
    | className owner new => exact ⟨.className owner new, h, rfl⟩
    | field owner name entry =>
      obtain ⟨old, hold, rfl⟩ : ∃ old, e.fields[name]? = some old ∧ φ old = entry := by
        simpa [Says, mapEntries] using h
      exact ⟨.field owner name old, hold, rfl⟩
    | method owner key entry =>
      obtain ⟨old, hold, rfl⟩ : ∃ old, e.methods[key]? = some old ∧ ψ old = entry := by
        simpa [Says, mapEntries] using h
      exact ⟨.method owner key old, hold, rfl⟩
  · rintro ⟨f, hf, rfl⟩
    cases f with
    | className owner new => exact hf
    | field owner name entry =>
      have hentry : e.fields[name]? = some entry := hf
      simp [Says, mapEntries, Fact.mapEntries, hentry]
    | method owner key entry =>
      have hentry : e.methods[key]? = some entry := hf
      simp [Says, mapEntries, Fact.mapEntries, hentry]

namespace Mappings

theorem says_mapEntries {g : Fact} :
    (m.mapEntries φ ψ).Says g ↔ ∃ f, m.Says f ∧ f.mapEntries φ ψ = g := by
  constructor
  · rintro ⟨e', hclass', hsaid⟩
    rw [class?_mapEntries] at hclass'
    obtain ⟨e, hclass, rfl⟩ := Option.map_eq_some_iff.mp hclass'
    obtain ⟨f, hf, rfl⟩ := ClassEntry.says_mapEntries.mp hsaid
    rw [Fact.owner_eq_of_subject_eq Fact.subject_mapEntries] at hclass
    exact ⟨f, ⟨e, hclass, hf⟩, rfl⟩
  · rintro ⟨f, ⟨e, hclass, hf⟩, rfl⟩
    refine ⟨e.mapEntries φ ψ, ?_, ClassEntry.says_mapEntries.mpr ⟨f, hf, rfl⟩⟩
    rw [class?_mapEntries, Fact.owner_eq_of_subject_eq Fact.subject_mapEntries, hclass]
    rfl

theorem Named.mapEntries (h : m.Named) : (m.mapEntries φ ψ).Named := by
  intro owner e' hclass'
  rw [class?_mapEntries] at hclass'
  obtain ⟨e, hclass, rfl⟩ := Option.map_eq_some_iff.mp hclass'
  exact h owner e hclass

theorem Listed.mapEntries (h : m.Listed l) :
    (m.mapEntries φ ψ).Listed (l.map (Fact.mapEntries φ ψ)) := by
  have hsubject : (l.map (Fact.mapEntries φ ψ)).map Fact.subject = l.map Fact.subject := by
    rw [List.map_map]
    exact List.map_congr_left fun f _ => Fact.subject_mapEntries
  refine ⟨List.Nodup.of_map Fact.subject (hsubject ▸ h.nodup_subject), fun g => ?_⟩
  rw [List.mem_map, says_mapEntries]
  exact exists_congr fun f => and_congr_left fun _ => h.2 f

end Mappings
end MapEntries

/-- The mappings with no names of parameters. -/
def Mappings.withoutParameters (m : Mappings) : Mappings :=
  m.mapEntries id MethodEntry.withoutParameters

/-- The mappings with no descriptors of fields. -/
def Mappings.withoutDescriptors (m : Mappings) : Mappings :=
  m.mapEntries FieldEntry.withoutDescriptor id

end ClassRelabel
