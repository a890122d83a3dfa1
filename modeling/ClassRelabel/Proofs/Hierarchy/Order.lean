/-
Supertypes come first.

`Ranked h order` says of a list with the last class first that no class is listed twice and that
every class is listed after its known parents.  In a hierarchy without cycles the list that
`supertypesFirst` builds is ranked and holds the known classes that were asked for and those that
are reached from them (`ranked_supertypesFirst`).

The invariant of a visit is `Visiting`: what was asked for is listed, is unknown, or is one of the
classes whose parents are being visited.  A class being visited is an ancestor of all of these, so
without cycles it is none of them.
-/
import ClassRelabel.Hierarchy.Completion
import Mathlib.Data.List.Perm.Subperm
import Mathlib.Logic.Relation

namespace ClassRelabel
namespace Hierarchy

open Relation (ReflTransGen TransGen)

variable {h : Hierarchy}

/-- The class `c` is known and has `p` as a known parent. -/
def Parent (h : Hierarchy) (c p : String) : Prop :=
  ∃ shape, h.class? c = some shape ∧ p ∈ shape.parents ∧ (h.class? p).isSome

/-- The known class `p` is reached from `c` through parents that are known. -/
abbrev Ancestor (h : Hierarchy) : String → String → Prop := TransGen h.Parent

def Acyclic (h : Hierarchy) : Prop := ∀ c, ¬h.Ancestor c c

/-- No class is listed twice, and parents are listed behind a class, with the last class first. -/
inductive Ranked (h : Hierarchy) : List String → Prop
  | nil : Ranked h []
  | cons {c : String} {order : List String} (known : (h.class? c).isSome) (fresh : c ∉ order)
      (parents : ∀ p, h.Parent c p → p ∈ order) (rest : Ranked h order) : Ranked h (c :: order)

theorem Ranked.parent_mem {order : List String} (hranked : Ranked h order) {c : String}
    (hc : c ∈ order) (p : String) (hp : h.Parent c p) : p ∈ order := by
  induction hranked with
  | nil => simp at hc
  | @cons d order _ _ parents _ ih =>
    rcases List.mem_cons.mp hc with rfl | hc
    · exact List.mem_cons_of_mem c (parents p hp)
    · exact List.mem_cons_of_mem d (ih hc)

/-- A visit while the parents of the classes on the stack are visited. -/
structure Visiting (h : Hierarchy) (stack : List String) (v : Visit) : Prop where
  ranked : Ranked h v.order
  listed : ∀ n ∈ v.seen, (h.class? n).isSome → n ∈ v.order ∨ n ∈ stack
  seen : ∀ n ∈ v.order, n ∈ v.seen
  underway : ∀ n ∈ stack, n ∈ v.seen ∧ n ∉ v.order

structure Continues (v w : Visit) : Prop where
  seen : ∀ n ∈ v.seen, n ∈ w.seen
  order : ∀ n ∈ v.order, n ∈ w.order

theorem Continues.refl (v : Visit) : Continues v v := ⟨fun _ => id, fun _ => id⟩

theorem Continues.trans {u v w : Visit} (h : Continues u v) (h' : Continues v w) :
    Continues u w :=
  ⟨fun n hn => h'.seen n (h.seen n hn), fun n hn => h'.order n (h.order n hn)⟩

/-- What a visit of `names` makes of `v`. -/
structure Visits (h : Hierarchy) (stack names : List String) (v w : Visit) : Prop where
  visiting : Visiting h stack w
  continues : Continues v w
  lists : ∀ n ∈ names, (h.class? n).isSome → n ∈ w.order

theorem visits_foldl {f : Visit → String → Visit} {stack names : List String}
    (hf : ∀ v, ∀ n ∈ names, Visiting h stack v → Visits h stack [n] v (f v n)) {v : Visit}
    (hv : Visiting h stack v) : Visits h stack names v (names.foldl f v) := by
  induction names generalizing v with
  | nil => exact ⟨hv, Continues.refl v, by simp⟩
  | cons n names ih =>
    have hfirst := hf v n List.mem_cons_self hv
    have hrest := ih (fun v n' hn' => hf v n' (List.mem_cons_of_mem n hn')) hfirst.visiting
    refine ⟨hrest.visiting, hfirst.continues.trans hrest.continues, fun n' hn' hknown => ?_⟩
    rcases List.mem_cons.mp hn' with rfl | hn'
    · exact hrest.continues.order n' (hfirst.lists n' List.mem_cons_self hknown)
    · exact hrest.lists n' hn' hknown

/-- There are no more different known classes than the hierarchy holds. -/
theorem length_le_size {stack : List String} (hnodup : stack.Nodup)
    (hknown : ∀ n ∈ stack, (h.class? n).isSome) : stack.length ≤ h.size := by
  have hsubset : stack ⊆ h.classes.keys := fun n hn => by
    rw [Std.ExtTreeMap.mem_keys, Std.ExtTreeMap.mem_iff_isSome_getElem?]
    exact hknown n hn
  have hle := (List.subperm_of_subset hnodup hsubset).length_le
  rwa [Std.ExtTreeMap.length_keys] at hle

/-- The stack of a visit: known classes of which the visited one is an ancestor, and all that the
fuel allows for. -/
structure Below (h : Hierarchy) (fuel : Nat) (stack : List String) (name : String) : Prop where
  nodup : stack.Nodup
  known : ∀ n ∈ stack, (h.class? n).isSome
  ancestor : (h.class? name).isSome → ∀ n ∈ stack, h.Ancestor n name
  fuel : h.size < fuel + stack.length

def Visit.ask (v : Visit) (name : String) : Visit := { v with seen := v.seen.insert name }

theorem mem_ask {v : Visit} {name n : String} :
    n ∈ (v.ask name).seen ↔ name = n ∨ n ∈ v.seen := by
  rw [Visit.ask, Std.ExtTreeSet.mem_insert, Std.LawfulEqCmp.compare_eq_iff_eq]

theorem continues_ask (v : Visit) (name : String) : Continues v (v.ask name) :=
  ⟨fun _ hn => mem_ask.mpr (Or.inr hn), fun _ => id⟩

theorem visits_unknown {stack : List String} {name : String} {v : Visit}
    (hclass : h.class? name = none) (hv : Visiting h stack v) :
    Visits h stack [name] v (v.ask name) := by
  have hunknown : ¬(h.class? name).isSome := by simp [hclass]
  have hnew := continues_ask v name
  refine ⟨⟨hv.ranked, fun n hn hknown => ?_, fun n hn => hnew.seen n (hv.seen n hn),
    fun n hn => ⟨hnew.seen n (hv.underway n hn).1, (hv.underway n hn).2⟩⟩, hnew,
    fun n hn hknown => ?_⟩
  · rcases mem_ask.mp hn with rfl | hn
    · exact absurd hknown hunknown
    · exact hv.listed n hn hknown
  · rw [List.mem_singleton.mp hn] at hknown
    exact absurd hknown hunknown

/-- A known class is listed after its parents were visited. -/
theorem visits_known {f : Visit → String → Visit} {stack : List String} {name : String}
    {shape : ClassShape} {v w : Visit} (hclass : h.class? name = some shape)
    (hseen : name ∉ v.seen) (hstack : name ∉ stack) (hv : Visiting h stack v)
    (hf : ∀ v, ∀ p ∈ shape.parents, Visiting h (name :: stack) v →
      Visits h (name :: stack) [p] v (f v p)) (hw : shape.parents.foldl f (v.ask name) = w) :
    Visits h stack [name] v ⟨w.seen, name :: w.order⟩ := by
  have hasked := continues_ask v name
  have hself : name ∈ (v.ask name).seen := mem_ask.mpr (Or.inl rfl)
  have hstart : Visiting h (name :: stack) (v.ask name) := by
    refine ⟨hv.ranked, fun n hn hknown => ?_, fun n hn => hasked.seen n (hv.seen n hn),
      fun n hn => ?_⟩
    · rcases mem_ask.mp hn with rfl | hn
      · exact Or.inr List.mem_cons_self
      · exact (hv.listed n hn hknown).imp_right (List.mem_cons_of_mem name)
    · rcases List.mem_cons.mp hn with rfl | hn
      · exact ⟨hself, fun hmem => hseen (hv.seen n hmem)⟩
      · exact ⟨hasked.seen n (hv.underway n hn).1, (hv.underway n hn).2⟩
  have hparents := visits_foldl hf hstart
  rw [hw] at hparents
  obtain ⟨hvisiting, hcontinues, hlists⟩ := hparents
  have hall := hasked.trans hcontinues
  refine ⟨⟨?_, fun n hn hknown => ?_, fun n hn => ?_, fun n hn => ?_⟩,
    ⟨hall.seen, fun n hn => List.mem_cons_of_mem name (hall.order n hn)⟩, fun n hn _ => ?_⟩
  · refine .cons (by simp [hclass]) (hvisiting.underway name List.mem_cons_self).2
      (fun p hp => ?_) hvisiting.ranked
    obtain ⟨shape', hshape', hp, hknown⟩ := hp
    rw [hclass] at hshape'
    rw [← Option.some.inj hshape'] at hp
    exact hlists p hp hknown
  · rcases hvisiting.listed n hn hknown with hmem | hmem
    · exact Or.inl (List.mem_cons_of_mem name hmem)
    · rcases List.mem_cons.mp hmem with rfl | hmem
      · exact Or.inl List.mem_cons_self
      · exact Or.inr hmem
  · rcases List.mem_cons.mp hn with rfl | hn
    · exact hcontinues.seen n hself
    · exact hvisiting.seen n hn
  · have hunder := hvisiting.underway n (List.mem_cons_of_mem name hn)
    refine ⟨hunder.1, fun hmem => ?_⟩
    rcases List.mem_cons.mp hmem with rfl | hmem
    · exact hstack hn
    · exact hunder.2 hmem
  · rw [List.mem_singleton.mp hn]
    exact List.mem_cons_self

/-- The parents of a class are visited below it. -/
theorem Below.parent {fuel : Nat} {stack : List String} {name p : String} {shape : ClassShape}
    (hbelow : Below h (fuel + 1) stack name) (hstack : name ∉ stack)
    (hclass : h.class? name = some shape) (hp : p ∈ shape.parents) :
    Below h fuel (name :: stack) p := by
  have hknown : (h.class? name).isSome := by simp [hclass]
  refine ⟨List.nodup_cons.mpr ⟨hstack, hbelow.nodup⟩, ?_, fun hpknown n hn => ?_, ?_⟩
  · rw [List.forall_mem_cons]
    exact ⟨hknown, hbelow.known⟩
  · have hparent : h.Parent name p := ⟨shape, hclass, hp, hpknown⟩
    rcases List.mem_cons.mp hn with rfl | hn
    · exact .single hparent
    · exact (hbelow.ancestor hknown n hn).tail hparent
  · have hfuel := hbelow.fuel
    rw [List.length_cons]
    omega

theorem visits_visit (hac : h.Acyclic) {fuel : Nat} {stack : List String} {name : String}
    {v : Visit} (hbelow : Below h fuel stack name) (hv : Visiting h stack v) :
    Visits h stack [name] v (visit h fuel v name) := by
  induction fuel generalizing stack name v with
  | zero =>
    have hle := length_le_size hbelow.nodup hbelow.known
    have hfuel := hbelow.fuel
    omega
  | succ fuel ih =>
    have hstack : (h.class? name).isSome → name ∉ stack := fun hknown hmem =>
      hac name (hbelow.ancestor hknown name hmem)
    rw [visit]
    by_cases hseen : name ∈ v.seen
    · rw [if_pos (Std.ExtTreeSet.contains_iff_mem.mpr hseen)]
      refine ⟨hv, Continues.refl v, fun n hn hknown => ?_⟩
      rw [List.mem_singleton.mp hn] at hknown ⊢
      exact (hv.listed name hseen hknown).resolve_right (hstack hknown)
    · rw [if_neg fun hc => hseen (Std.ExtTreeSet.contains_iff_mem.mp hc)]
      cases hclass : h.class? name with
      | none => exact visits_unknown hclass hv
      | some shape =>
        have hnotmem := hstack (by simp [hclass])
        exact visits_known hclass hseen hnotmem hv
          (fun v p hp hv => ih (hbelow.parent hnotmem hclass hp) hv) rfl

/-! ## What is listed -/

/-- The known class `n` is one of the names or is reached from one of them through known classes. -/
def Covers (h : Hierarchy) (names : List String) (n : String) : Prop :=
  (h.class? n).isSome ∧ ∃ name ∈ names, ReflTransGen h.Parent name n

theorem isSome_of_reflTransGen {p n : String} (hpath : ReflTransGen h.Parent p n)
    (hn : (h.class? n).isSome) : (h.class? p).isSome := by
  cases hpath using ReflTransGen.head_induction_on with
  | refl => exact hn
  | head hparent _ =>
    obtain ⟨shape, hclass, -⟩ := hparent
    rw [hclass, Option.isSome_some]

theorem covers_self {names : List String} {n : String} (hn : n ∈ names)
    (hknown : (h.class? n).isSome) : h.Covers names n :=
  ⟨hknown, n, hn, .refl⟩

/-- What a visit of the parents lists is covered by the class. -/
theorem covers_of_parents {name n : String} {shape : ClassShape}
    (hclass : h.class? name = some shape) (hn : h.Covers shape.parents n) :
    h.Covers [name] n := by
  obtain ⟨hknown, p, hp, hpath⟩ := hn
  have hparent : h.Parent name p := ⟨shape, hclass, hp, isSome_of_reflTransGen hpath hknown⟩
  exact ⟨hknown, name, List.mem_singleton_self name, .head hparent hpath⟩

theorem covers_of_mem_foldl {f : Visit → String → Visit} {names : List String}
    (hf : ∀ v, ∀ name ∈ names, ∀ n ∈ (f v name).order, n ∈ v.order ∨ h.Covers [name] n)
    {v : Visit} {n : String} (hn : n ∈ (names.foldl f v).order) :
    n ∈ v.order ∨ h.Covers names n := by
  induction names generalizing v with
  | nil => exact Or.inl hn
  | cons name names ih =>
    have hrest := ih (fun v later hlater => hf v later (List.mem_cons_of_mem name hlater)) hn
    rcases hrest with hfirst | ⟨hknown, later, hlater, hpath⟩
    · rcases hf v name List.mem_cons_self n hfirst with hold | ⟨hknown, start, hstart, hpath⟩
      · exact Or.inl hold
      · rw [List.mem_singleton.mp hstart] at hpath
        exact Or.inr ⟨hknown, name, List.mem_cons_self, hpath⟩
    · exact Or.inr ⟨hknown, later, List.mem_cons_of_mem name hlater, hpath⟩

/-- A visit lists nothing that it was not asked for. -/
theorem covers_of_mem_visit {fuel : Nat} {v : Visit} {name n : String}
    (hn : n ∈ (visit h fuel v name).order) : n ∈ v.order ∨ h.Covers [name] n := by
  induction fuel generalizing v name n with
  | zero => exact Or.inl hn
  | succ fuel ih =>
    rw [visit] at hn
    split at hn
    · exact Or.inl hn
    · split at hn
      · exact Or.inl hn
      · rename_i shape hclass
        have hknown : (h.class? name).isSome := by rw [hclass, Option.isSome_some]
        rcases List.mem_cons.mp hn with rfl | hn
        · exact Or.inr (covers_self (List.mem_singleton_self n) hknown)
        · have hparents := covers_of_mem_foldl (fun v p _ n hp => ih hp) hn
          exact hparents.imp_right (covers_of_parents hclass)

/-- Without cycles, exactly the classes that are covered are listed, after their known parents. -/
theorem ranked_supertypesFirst (hac : h.Acyclic) (names : List String) :
    ∃ order, h.supertypesFirst names = order.reverse ∧ Ranked h order ∧
      ∀ n, n ∈ order ↔ h.Covers names n := by
  have hstart : Visiting h [] ⟨∅, []⟩ :=
    ⟨.nil, by simp, by simp, by simp⟩
  have hbelow : ∀ n, Below h (h.size + 2) [] n := fun n =>
    ⟨by simp, by simp, by simp, by simp⟩
  have hvisits := visits_foldl (fun v n (_ : n ∈ names) hv => visits_visit hac (hbelow n) hv) hstart
  refine ⟨_, rfl, hvisits.visiting.ranked, fun n => ⟨fun hn => ?_, fun hn => ?_⟩⟩
  · have hlisted := covers_of_mem_foldl (fun v name _ n hn => covers_of_mem_visit hn) hn
    exact hlisted.resolve_left (by simp)
  · obtain ⟨hknown, name, hname, hpath⟩ := hn
    have hfirst := hvisits.lists name hname (isSome_of_reflTransGen hpath hknown)
    clear hknown
    induction hpath with
    | refl => exact hfirst
    | tail _ hparent ih => exact hvisits.visiting.ranked.parent_mem ih _ hparent

end Hierarchy
end ClassRelabel
