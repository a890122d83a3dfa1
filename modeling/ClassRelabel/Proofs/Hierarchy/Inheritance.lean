/-
Inherited members and their names.

Entries travel down the hierarchy one parent at a time, and a class passes on only what it
declares itself.  So a class gets the entry of an ancestor exactly when a chain of parents leads
up to it on which every class in between declares the member: `renameMember_complete` says this
for a member that only one of the ancestors has an entry for.  `gap_keeps_name` is a hierarchy
where a class in between does not declare a field and its subtype is left without the new name.
-/
import ClassRelabel.Proofs.Hierarchy.Completion

namespace ClassRelabel

open Relation (ReflTransGen TransGen)

namespace Access

def isOpen (a : Access) : Bool := !a.meets .isPrivate && (a.meets .isPublic || a.meets .isProtected)

end Access

theorem ClassShape.inherits_iff {child p : ClassShape} {x : MemberId} :
    child.inherits p x = true ↔
      x.isInitializer = false ∧ ∃ a, p.access? x = some a ∧ p.shows a child = true := by
  cases x with
  | field name =>
    simp only [inherits, inheritsField, access?, MemberId.isInitializer, true_and]
    cases p.fields[name]? <;> simp
  | method key =>
    simp only [inherits, inheritsMethod, access?, MemberId.isInitializer, Bool.and_eq_true,
      Bool.not_eq_true']
    cases p.methods[key]? <;> simp

theorem ClassShape.shows_of_isOpen {p child : ClassShape} {a : Access} (ha : a.isOpen = true) :
    p.shows a child = true := by
  simp only [Access.isOpen, Bool.and_eq_true] at ha
  simp only [shows, Bool.and_eq_true]
  exact ⟨ha.1, by rw [ha.2, Bool.true_or]⟩

namespace Hierarchy

variable {h : Hierarchy} {x : MemberId} {c d p : String}

/-- The known class `p` is a parent of `c` and passes on what it has for the member. -/
def Passes (h : Hierarchy) (x : MemberId) (c p : String) : Prop :=
  ∃ child parent, h.class? c = some child ∧ h.class? p = some parent ∧ p ∈ child.parents ∧
    child.inherits parent x = true

theorem Passes.parent (hp : h.Passes x c p) : h.Parent c p := by
  obtain ⟨child, parent, hchild, hparent, hmem, -⟩ := hp
  exact ⟨child, hchild, hmem, by simp [hparent]⟩

def access? (h : Hierarchy) (c : String) (x : MemberId) : Option Access :=
  (h.class? c).bind (·.access? x)

theorem Passes.declares (hp : h.Passes x c p) : (h.access? p x).isSome := by
  obtain ⟨child, parent, -, hparent, -, hinherits⟩ := hp
  obtain ⟨-, a, ha, -⟩ := ClassShape.inherits_iff.mp hinherits
  rw [access?, hparent, Option.bind_some, ha, Option.isSome_some]

/-- A parent that declares a member as public or protected passes it on. -/
theorem passes_of_isOpen {a : Access} (hparent : h.Parent c p) (hx : x.isInitializer = false)
    (haccess : h.access? p x = some a) (ha : a.isOpen = true) : h.Passes x c p := by
  obtain ⟨child, hchild, hmem, -⟩ := hparent
  obtain ⟨parent, hparent, haccess⟩ := Option.bind_eq_some_iff.mp haccess
  exact ⟨child, parent, hchild, hparent, hmem,
    ClassShape.inherits_iff.mpr ⟨hx, a, haccess, ClassShape.shows_of_isOpen ha⟩⟩

/-- A chain of parents leads from `c` up to `d`, and every class in between declares the member. -/
inductive HandedDown (h : Hierarchy) (x : MemberId) (d : String) : String → Prop
  | child {c : String} (parent : h.Parent c d) : HandedDown h x d c
  | next {c p : String} (parent : h.Parent c p) (declares : (h.access? p x).isSome)
      (rest : HandedDown h x d p) : HandedDown h x d c

theorem HandedDown.ancestor (hdown : h.HandedDown x d c) : h.Ancestor c d := by
  induction hdown with
  | child parent => exact .single parent
  | next parent _ _ ih => exact .head parent ih

theorem HandedDown.passes (hdown : h.HandedDown x d c) (hx : x.isInitializer = false)
    (hopen : ∀ p a, p = d ∨ h.Ancestor c p ∧ h.Ancestor p d → h.access? p x = some a →
      a.isOpen = true) (hd : (h.access? d x).isSome) : ReflTransGen (h.Passes x) c d := by
  induction hdown with
  | child parent =>
    obtain ⟨a, ha⟩ := Option.isSome_iff_exists.mp hd
    exact .single (passes_of_isOpen parent hx ha (hopen d a (Or.inl rfl) ha))
  | next parent declares rest ih =>
    obtain ⟨a, ha⟩ := Option.isSome_iff_exists.mp declares
    have hbetween := hopen _ a (Or.inr ⟨.single parent, rest.ancestor⟩) ha
    refine .head (passes_of_isOpen parent hx ha hbetween) (ih fun p a hp => hopen p a ?_)
    exact hp.imp_right fun hp => ⟨.head parent hp.1, hp.2⟩

theorem eq_or_ancestor_of_passes (hchain : ReflTransGen (h.Passes x) c d) :
    d = c ∨ h.Ancestor c d := by
  have hparent : h.Passes x ≤ h.Parent := fun _ _ => Passes.parent
  exact (Relation.reflTransGen_iff_eq_or_transGen.mp hchain).imp_right (TransGen.mono hparent c d)

theorem handedDown_of_passes (hpasses : TransGen (h.Passes x) c d) : h.HandedDown x d c := by
  induction hpasses using TransGen.head_induction_on with
  | single hp => exact .child hp.parent
  | head hp _ ih => exact .next hp.parent hp.declares ih

end Hierarchy

namespace Mappings

open Hierarchy

variable {h : Hierarchy} {m : Mappings} {x : MemberId}

theorem passed_eq_some {child : ClassShape} {p : String} {e : MemberEntry} :
    m.passed h child x p = some e ↔ ∃ shape, h.class? p = some shape ∧
      child.inherits shape x = true ∧ m.member? p x = some e := by
  unfold passed
  cases hclass : h.class? p with
  | none => simp
  | some shape =>
    by_cases hinherits : child.inherits shape x = true <;> simp [hinherits]

/-- Every entry in the end was the entry of a class from which it was passed on. -/
theorem source_of_inheritAll {order : List String} {c : String} {e : MemberEntry}
    (hc : (inheritAll h m order).member? c x = some e) :
    ∃ d, ReflTransGen (h.Passes x) c d ∧ m.member? d x = some e := by
  induction order generalizing c with
  | nil => exact ⟨c, .refl, hc⟩
  | cons d order ih =>
    have hlast : (inherit h (inheritAll h m order) d).member? c x = some e := hc
    cases hclass : h.class? d with
    | none =>
      simp only [inherit, hclass] at hlast
      exact ih hlast
    | some shape =>
      rw [member?_inherit hclass] at hlast
      split at hlast
      · rename_i hcd
        subst hcd
        rcases Option.or_eq_some_iff.mp hlast with hown | ⟨-, hfound⟩
        · exact ih hown
        · obtain ⟨p, hp, hpassed⟩ := List.exists_of_findSome?_eq_some hfound
          obtain ⟨parent, hparent, hinherits, hentry⟩ := passed_eq_some.mp hpassed
          obtain ⟨d, hchain, hd⟩ := ih hentry
          exact ⟨d, .head ⟨shape, parent, hclass, hparent, hp, hinherits⟩ hchain, hd⟩
      · exact ih hlast

theorem source_of_complete {names : List String} {c : String} {e : MemberEntry}
    (hc : (m.complete h names).member? c x = some e) :
    ∃ d, ReflTransGen (h.Passes x) c d ∧ m.member? d x = some e := by
  rw [complete_eq (List.reverse_reverse _).symm] at hc
  exact source_of_inheritAll hc

/-- Where a chain of classes passes an entry on, there is an entry in the end. -/
theorem isSome_member?_complete (hac : h.Acyclic) {names : List String}
    (hall : ∀ n, (h.class? n).isSome → n ∈ names) {c d : String}
    (hchain : ReflTransGen (h.Passes x) c d) (hknown : (h.class? d).isSome)
    (hd : (m.member? d x).isSome) : ((m.complete h names).member? c x).isSome := by
  induction hchain using ReflTransGen.head_induction_on with
  | refl =>
    obtain ⟨shape, hclass⟩ := Option.isSome_iff_exists.mp hknown
    rw [member?_complete hac (covers_self (hall d hknown) hknown) hclass, Option.isSome_or, hd,
      Bool.true_or]
  | @head c p hpasses _ ih =>
    obtain ⟨child, parent, hchild, hparent, hmem, hinherits⟩ := hpasses
    obtain ⟨e, he⟩ := Option.isSome_iff_exists.mp ih
    have hpassed : (m.complete h names).passed h child x p = some e :=
      passed_eq_some.mpr ⟨parent, hparent, hinherits, he⟩
    have hfound : (child.parents.findSome? ((m.complete h names).passed h child x)).isSome :=
      List.findSome?_isSome_iff.mpr ⟨p, hmem, by rw [hpassed, Option.isSome_some]⟩
    have hcovers : h.Covers names c := by
      have hknown : (h.class? c).isSome := by rw [hchild, Option.isSome_some]
      exact covers_self (hall c hknown) hknown
    rw [member?_complete hac hcovers hchild, Option.isSome_or, hfound, Bool.or_true]

/-- Of a class and its ancestors only `d` has an entry for a member, which it declares as public or
protected like every class in between that declares it.  Then the class has the name that `d` has
if the member is handed down to it, and the name from before if it is not. -/
theorem renameMember_complete (hac : h.Acyclic) {names : List String}
    (hall : ∀ n, (h.class? n).isSome → n ∈ names) (hx : x.isInitializer = false) {c d : String}
    (hancestor : h.Ancestor c d) (hd : ∃ a, h.access? d x = some a ∧ a.isOpen = true)
    (hbetween : ∀ p a, h.Ancestor c p → h.Ancestor p d → h.access? p x = some a → a.isOpen = true)
    (hmapped : (m.member? d x).isSome)
    (honly : ∀ p, p = c ∨ h.Ancestor c p → (m.member? p x).isSome → p = d) :
    (h.HandedDown x d c →
      (m.complete h names).renameMember c x = (m.complete h names).renameMember d x) ∧
    (¬h.HandedDown x d c → (m.complete h names).renameMember c x = x.name) := by
  obtain ⟨a, ha, hopen⟩ := hd
  have hknown : (h.class? d).isSome := by
    obtain ⟨shape, hclass, -⟩ := Option.bind_eq_some_iff.mp ha
    rw [hclass, Option.isSome_some]
  -- Whatever `c` or an ancestor of it ends up with comes from `d`.
  have hsource : ∀ p e, p = c ∨ h.Ancestor c p → (m.complete h names).member? p x = some e →
      ReflTransGen (h.Passes x) p d ∧ m.member? d x = some e := fun p e hp he => by
    obtain ⟨q, hchain, hq⟩ := source_of_complete he
    have hqc : q = c ∨ h.Ancestor c q := by
      rcases eq_or_ancestor_of_passes hchain with rfl | hpq
      · exact hp
      · rcases hp with rfl | hcp
        · exact Or.inr hpq
        · exact Or.inr (hcp.trans hpq)
    obtain rfl := honly q hqc (by rw [hq, Option.isSome_some])
    exact ⟨hchain, hq⟩
  have hentry : ∀ p, ReflTransGen (h.Passes x) p d →
      ∃ e, (m.complete h names).member? p x = some e := fun p hchain =>
    Option.isSome_iff_exists.mp (isSome_member?_complete hac hall hchain hknown hmapped)
  constructor
  · intro hdown
    have hall : ∀ p b, p = d ∨ h.Ancestor c p ∧ h.Ancestor p d → h.access? p x = some b →
        b.isOpen = true := fun p b hp hb => by
      rcases hp with rfl | ⟨hcp, hpd⟩
      · rwa [Option.some.inj (hb.symm.trans ha)]
      · exact hbetween p b hcp hpd hb
    obtain ⟨e, he⟩ := hentry c (hdown.passes hx hall (by rw [ha, Option.isSome_some]))
    obtain ⟨e', he'⟩ := hentry d .refl
    have hsame := (hsource c e (Or.inl rfl) he).2.symm.trans
      (hsource d e' (Or.inr hancestor) he').2
    rw [renameMember_eq _ _ hx, renameMember_eq _ _ hx, he, he', hsame]
  · intro hnot
    cases he : (m.complete h names).member? c x with
    | none => rw [renameMember_eq _ _ hx, he, Option.map_none, Option.getD_none]
    | some e =>
      rcases Relation.reflTransGen_iff_eq_or_transGen.mp (hsource c e (Or.inl rfl) he).1 with
        rfl | hchain
      · exact absurd hancestor (hac _)
      · exact absurd (handedDown_of_passes hchain) hnot

end Mappings

/-! ## A gap in the chain

`a/Base` declares the protected field `c`, which is mapped to `counter`, and `z/Leaf` extends
`a/Middle`, which extends `a/Base`. -/

namespace Chain

open Hierarchy

/-- `middle` are the fields that the class in between declares. -/
def hierarchy (middle : List (String × Access)) : Hierarchy :=
  ((Hierarchy.empty.insert ⟨"a/Base", none, [], ⟨1⟩, {("c", ⟨4⟩)}, ∅⟩).insert
    ⟨"a/Middle", some "a/Base", [], ⟨1⟩, .ofList middle compare, ∅⟩).insert
    ⟨"z/Leaf", some "a/Middle", [], ⟨1⟩, ∅, ∅⟩

def mappings : Mappings := Mappings.empty.nameField "a/Base" "c" ⟨"counter", none⟩

/-- What every listed class satisfies holds of every known class. -/
theorem forall_class {h : Hierarchy} {P : String → ClassShape → Prop}
    (hall : ∀ e ∈ h.classes.toList, P e.1 e.2) {c : String} {shape : ClassShape}
    (hclass : h.class? c = some shape) : P c shape :=
  hall (c, shape) (Std.ExtTreeMap.mem_toList_iff_getElem?_eq_some.mpr hclass)

def rank (name : String) : Nat :=
  if name = "a/Base" then 0 else if name = "a/Middle" then 1 else 2

theorem acyclic_of_rank {h : Hierarchy}
    (hrank : ∀ e ∈ h.classes.toList, ∀ p ∈ e.2.parents, rank p < rank e.1) : h.Acyclic := by
  have hparent : ∀ c p, h.Parent c p → rank p < rank c := fun c p ⟨shape, hclass, hp, _⟩ =>
    forall_class (P := fun c shape => ∀ p ∈ shape.parents, rank p < rank c) hrank hclass p hp
  have hancestor : ∀ c p, h.Ancestor c p → rank p < rank c := fun c p hcp => by
    induction hcp with
    | single hp => exact hparent _ _ hp
    | tail _ hp ih => exact Nat.lt_trans (hparent _ _ hp) ih
  exact fun c hc => Nat.lt_irrefl _ (hancestor c c hc)

theorem eq_base_of_mapped {p : String} (hp : (mappings.member? p (.field "c")).isSome) :
    p = "a/Base" := by
  rw [mappings, Mappings.nameField, Mappings.member?_update] at hp
  split at hp
  · assumption
  · simp [Mappings.member?, Mappings.class?, Mappings.empty] at hp

theorem mem_names {h : Hierarchy} {n : String} (hn : (h.class? n).isSome) : n ∈ h.names := by
  rw [names, Std.ExtTreeMap.mem_keys, Std.ExtTreeMap.mem_iff_isSome_getElem?]
  exact hn

/-- The classes declare `c` as protected if at all. -/
theorem isOpen_of_access? {h : Hierarchy}
    (hfields : ∀ e ∈ h.classes.toList, ∀ a ∈ e.2.fields["c"]?, a = ⟨4⟩) {p : String} {a : Access}
    (ha : h.access? p (.field "c") = some a) : a.isOpen = true := by
  obtain ⟨shape, hclass, haccess⟩ := Option.bind_eq_some_iff.mp ha
  rw [forall_class (P := fun _ shape => ∀ a ∈ shape.fields["c"]?, a = ⟨4⟩) hfields hclass a haccess]
  decide

/-- A field that the class in between declares too has the new name below it. -/
theorem renameMember_chain :
    HandedDown (hierarchy [("c", ⟨4⟩)]) (.field "c") "a/Base" "z/Leaf" ∧
    (mappings.complete (hierarchy [("c", ⟨4⟩)]) (hierarchy [("c", ⟨4⟩)]).names).renameMember
        "z/Leaf" (.field "c") =
      (mappings.complete (hierarchy [("c", ⟨4⟩)]) (hierarchy [("c", ⟨4⟩)]).names).renameMember
        "a/Base" (.field "c") := by
  have hmiddle : (hierarchy [("c", ⟨4⟩)]).Parent "z/Leaf" "a/Middle" :=
    ⟨_, rfl, by decide, by decide +kernel⟩
  have hbase : (hierarchy [("c", ⟨4⟩)]).Parent "a/Middle" "a/Base" :=
    ⟨_, rfl, by decide, by decide +kernel⟩
  have hdown : HandedDown (hierarchy [("c", ⟨4⟩)]) (.field "c") "a/Base" "z/Leaf" :=
    .next hmiddle (by decide +kernel) (.child hbase)
  have hfields : ∀ e ∈ (hierarchy [("c", ⟨4⟩)]).classes.toList, ∀ a ∈ e.2.fields["c"]?, a = ⟨4⟩ := by
    decide +kernel
  have hac : (hierarchy [("c", ⟨4⟩)]).Acyclic := acyclic_of_rank (by decide +kernel)
  refine ⟨hdown, (Mappings.renameMember_complete hac (fun _ => mem_names) rfl hdown.ancestor
    ⟨⟨4⟩, by decide +kernel, by decide⟩ (fun p a _ _ => isOpen_of_access? hfields)
    (by decide +kernel) fun p _ => eq_base_of_mapped).1 hdown⟩

/-- The name of an ancestor is not the name below it where the class in between does not declare
the field. -/
theorem not_same_name :
    ¬ ∀ (h : Hierarchy) (m : Mappings) (x : MemberId) (c d : String), h.Acyclic →
      x.isInitializer = false → h.Ancestor c d →
      (∃ a, h.access? d x = some a ∧ a.isOpen = true) →
      (∀ p a, h.Ancestor c p → h.Ancestor p d → h.access? p x = some a → a.isOpen = true) →
      (m.member? d x).isSome →
      (∀ p, p = c ∨ h.Ancestor c p → (m.member? p x).isSome → p = d) →
      (m.complete h h.names).renameMember c x = (m.complete h h.names).renameMember d x := by
  intro hsame
  have hmiddle : (hierarchy []).Parent "z/Leaf" "a/Middle" :=
    ⟨_, rfl, by decide, by decide +kernel⟩
  have hbase : (hierarchy []).Parent "a/Middle" "a/Base" := ⟨_, rfl, by decide, by decide +kernel⟩
  have hfields : ∀ e ∈ (hierarchy []).classes.toList, ∀ a ∈ e.2.fields["c"]?, a = ⟨4⟩ := by
    decide +kernel
  have hac : (hierarchy []).Acyclic := acyclic_of_rank (by decide +kernel)
  have hname := hsame (hierarchy []) mappings (.field "c") "z/Leaf" "a/Base" hac rfl
    (.head hmiddle (.single hbase)) ⟨⟨4⟩, by decide +kernel, by decide⟩
    (fun p a _ _ => isOpen_of_access? hfields) (by decide +kernel) fun p _ => eq_base_of_mapped
  revert hname
  decide +kernel

end Chain
end ClassRelabel
