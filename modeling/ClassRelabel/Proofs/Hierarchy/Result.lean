/-
What completion comes to.

The rule for the completed mappings leaves no choice: going through the classes after their parents,
each entry is fixed by those before it (`Completed.unique`).  So the completed mappings depend on
which classes are covered only, not on how the names are listed, and they are complete already.
-/
import ClassRelabel.Proofs.Hierarchy.Inheritance

namespace ClassRelabel

open Hierarchy
open Std (ExtTreeMap)

namespace ClassEntry

/-- What is there already is not missing. -/
theorem addMissing_addMissing (e : ClassEntry) (fields : List (String × FieldEntry))
    (methods : List (MethodKey × MethodEntry)) :
    (e.addMissing fields methods).addMissing fields methods = e.addMissing fields methods := by
  simp only [addMissing, ClassEntry.mk.injEq, true_and]
  constructor
  · refine ExtTreeMap.ext_getElem? fun k => ?_
    rw [getElem?_foldl_insertIfNew, getElem?_foldl_insertIfNew, Option.or_assoc, Option.or_self]
  · refine ExtTreeMap.ext_getElem? fun k => ?_
    rw [getElem?_foldl_insertIfNew, getElem?_foldl_insertIfNew, Option.or_assoc, Option.or_self]

end ClassEntry

namespace Mappings

variable {h : Hierarchy} {m m' : Mappings} {names : List String} {c : ClassShape} {x : MemberId}

theorem ext_class? (hsame : ∀ owner, m.class? owner = m'.class? owner) : m = m' := by
  have hclasses : m.classes = m'.classes := ExtTreeMap.ext_getElem? hsame
  cases m
  cases m'
  exact congrArg Mappings.mk hclasses

/-- A class that has what it inherits inherits nothing more. -/
theorem inheritedEntry_inheritedEntry (e? : Option ClassEntry) :
    m.inheritedEntry h c (m.inheritedEntry h c e?) = m.inheritedEntry h c e? := by
  simp only [inheritedEntry]
  split
  · rfl
  · rw [Option.getD_some, ClassEntry.addMissing_addMissing]

/-- A class inherits no name. -/
theorem name_inheritedEntry (e? : Option ClassEntry) :
    (m.inheritedEntry h c e?).bind (·.name) = e?.bind (·.name) := by
  simp only [inheritedEntry]
  split
  · rfl
  · cases e? <;> rfl

/-! ## The completed mappings are determined -/

theorem Completed.unique {m₁ m₂ : Mappings} (hac : h.Acyclic) (h₁ : Completed h names m m₁)
    (h₂ : Completed h names m m₂) : m₁ = m₂ := by
  obtain ⟨order, -, hranked, hall⟩ := ranked_supertypesFirst hac names
  -- Along the list, a class has the same entry because its parents have.
  have hsame : ∀ listed, Ranked h listed → (∀ n ∈ listed, h.Covers names n) →
      ∀ n ∈ listed, m₁.class? n = m₂.class? n := by
    intro listed hlisted
    induction hlisted with
    | nil => simp
    | @cons d rest known fresh parents _ ih =>
      intro hcovers n hn
      have hrest := ih fun n hn => hcovers n (List.mem_cons_of_mem d hn)
      rcases List.mem_cons.mp hn with rfl | hn
      · obtain ⟨shape, hclass⟩ := Option.isSome_iff_exists.mp known
        have hcovered : h.Covers names n := hcovers n List.mem_cons_self
        have hentry : m₁.inheritedEntry h shape = m₂.inheritedEntry h shape := by
          refine inheritedEntry_congr fun p hp hknown => ?_
          exact hrest p (parents p ⟨shape, hclass, hp, hknown⟩)
        rw [h₁.covered n shape hcovered hclass, h₂.covered n shape hcovered hclass, hentry]
      · exact hrest n hn
  refine ext_class? fun owner => ?_
  by_cases hcovered : h.Covers names owner
  · exact hsame order hranked (fun n => (hall n).mp) owner ((hall owner).mpr hcovered)
  · rw [h₁.others owner hcovered, h₂.others owner hcovered]

theorem covers_congr {names' : List String} (hsame : ∀ n, n ∈ names' ↔ n ∈ names) (n : String) :
    h.Covers names' n ↔ h.Covers names n := by
  constructor
  · rintro ⟨hknown, name, hname, hpath⟩
    exact ⟨hknown, name, (hsame name).mp hname, hpath⟩
  · rintro ⟨hknown, name, hname, hpath⟩
    exact ⟨hknown, name, (hsame name).mpr hname, hpath⟩

/-- The order of the names and their repetitions do not matter. -/
theorem complete_congr (hac : h.Acyclic) {names' : List String}
    (hsame : ∀ n, n ∈ names' ↔ n ∈ names) : m.complete h names' = m.complete h names := by
  have hnames' := completed_complete hac m names'
  have hnames : Completed h names m (m.complete h names') := by
    constructor
    · intro owner c hcovers hclass
      exact hnames'.covered owner c ((covers_congr hsame owner).mpr hcovers) hclass
    · intro owner hnot
      exact hnames'.others owner fun hcovers => hnot ((covers_congr hsame owner).mp hcovers)
  exact hnames.unique hac (completed_complete hac m names)

theorem Completed.complete_eq (hac : h.Acyclic) (hm : Completed h names m m') :
    m'.complete h names = m' := by
  have hself : Completed h names m' m' := by
    refine ⟨fun owner c hcovers hclass => ?_, fun owner _ => rfl⟩
    rw [hm.covered owner c hcovers hclass, inheritedEntry_inheritedEntry]
  exact (completed_complete hac m' names).unique hac hself

/-! ## What a class inherits -/

/-- The class `p` is known and declares the member so that `child` sees it, and its entry for the
member is `e`. -/
def Offers (m : Mappings) (h : Hierarchy) (child : ClassShape) (x : MemberId) (p : String)
    (e : MemberEntry) : Prop :=
  ∃ parent access, h.class? p = some parent ∧ parent.access? x = some access ∧
    x.isInitializer = false ∧ access.meets .isPrivate = false ∧
    (access.meets .isPublic = true ∨ access.meets .isProtected = true ∨
      parent.package = child.package) ∧
    m.member? p x = some e

/-- The first parent to offer an entry for the member offers `e`. -/
def FirstOffer (m : Mappings) (h : Hierarchy) (child : ClassShape) (x : MemberId)
    (e : MemberEntry) : Prop :=
  ∃ before p after, child.parents = before ++ p :: after ∧ m.Offers h child x p e ∧
    ∀ q ∈ before, ∀ e', ¬m.Offers h child x q e'

theorem passed_eq_some_iff_offers {p : String} {e : MemberEntry} :
    m.passed h c x p = some e ↔ m.Offers h c x p e := by
  rw [passed_eq_some]
  constructor
  · rintro ⟨parent, hparent, hinherits, hentry⟩
    obtain ⟨hx, access, haccess, hshows⟩ := ClassShape.inherits_iff.mp hinherits
    simp only [ClassShape.shows, Bool.and_eq_true, Bool.or_eq_true, Bool.not_eq_true',
      beq_iff_eq, or_assoc] at hshows
    exact ⟨parent, access, hparent, haccess, hx, hshows.1, hshows.2, hentry⟩
  · rintro ⟨parent, access, hparent, haccess, hx, hprivate, hseen, hentry⟩
    refine ⟨parent, hparent, ClassShape.inherits_iff.mpr ⟨hx, access, haccess, ?_⟩, hentry⟩
    simp only [ClassShape.shows, Bool.and_eq_true, Bool.or_eq_true, Bool.not_eq_true',
      beq_iff_eq, or_assoc]
    exact ⟨hprivate, hseen⟩

theorem findSome?_passed_eq_some {e : MemberEntry} :
    c.parents.findSome? (m.passed h c x) = some e ↔ m.FirstOffer h c x e := by
  have hnone : ∀ q, m.passed h c x q = none ↔ ∀ e', ¬m.Offers h c x q e' := by
    intro q
    rw [Option.eq_none_iff_forall_ne_some]
    exact forall_congr' fun e' => not_congr passed_eq_some_iff_offers
  rw [List.findSome?_eq_some_iff, FirstOffer]
  simp only [passed_eq_some_iff_offers, hnone]

/-- Completion in a hierarchy without cycles.  A class that is covered keeps its name and its own
entries and gets those that its parents offer in the end, the first parent's for each member.  Every
other class keeps its entry.  The order and the repetitions of the names do not matter, and what is
complete stays as it is. -/
theorem result_of_complete (hac : h.Acyclic) (m : Mappings) (names : List String) :
    (∀ (owner : String) (c : ClassShape), h.Covers names owner → h.class? owner = some c →
      ((m.complete h names).class? owner).bind (·.name) = (m.class? owner).bind (·.name) ∧
      ∀ (x : MemberId) (e : MemberEntry), (m.complete h names).member? owner x = some e ↔
        m.member? owner x = some e ∨
          m.member? owner x = none ∧ (m.complete h names).FirstOffer h c x e) ∧
    (∀ owner, ¬h.Covers names owner → (m.complete h names).class? owner = m.class? owner) ∧
    (∀ names' : List String, (∀ n, n ∈ names' ↔ n ∈ names) →
      m.complete h names' = m.complete h names) ∧
    (m.complete h names).complete h names = m.complete h names := by
  have hcompleted := completed_complete hac m names
  refine ⟨?_, hcompleted.others, ?_, hcompleted.complete_eq hac⟩
  · intro owner c hcovers hclass
    refine ⟨?_, fun x e => ?_⟩
    · rw [hcompleted.covered owner c hcovers hclass, name_inheritedEntry]
    · rw [member?_complete hac hcovers hclass, Option.or_eq_some_iff, findSome?_passed_eq_some]
  · intro names' hsame
    exact complete_congr hac hsame

theorem result_of_complete_chain :
    (Chain.hierarchy [("c", ⟨4⟩)]).Acyclic ∧
      Chain.mappings.complete (Chain.hierarchy [("c", ⟨4⟩)]) ["z/Leaf", "a/Base", "z/Leaf"] =
        Chain.mappings.complete (Chain.hierarchy [("c", ⟨4⟩)]) ["a/Base", "z/Leaf"] := by
  have hac : (Chain.hierarchy [("c", ⟨4⟩)]).Acyclic := Chain.acyclic_of_rank (by decide +kernel)
  refine ⟨hac, (result_of_complete hac Chain.mappings ["a/Base", "z/Leaf"]).2.2.1 _ fun n => ?_⟩
  simp only [List.mem_cons, List.not_mem_nil, or_false]
  constructor
  · rintro (h | h | h)
    · exact Or.inr h
    · exact Or.inl h
    · exact Or.inr h
  · rintro (h | h)
    · exact Or.inr (Or.inl h)
    · exact Or.inl h

end Mappings
end ClassRelabel
