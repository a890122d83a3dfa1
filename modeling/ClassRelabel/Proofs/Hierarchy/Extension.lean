/-
What completion adds, whatever the hierarchy.

A hierarchy is a table that may hold any shape under any name: classes can be their own ancestors,
and parents can be missing.  Completion ends all the same, because a class is asked for once
(`Completes` is the recursion without a bound on its depth).  It takes nothing away and names no
class (`Mappings.Extends`), and what it adds are copies of entries that ancestors had before.  A
class on a cycle is read while its own parents are being completed, but an entry is never copied
from anywhere else than from an entry (`source_of_complete`).
-/
import ClassRelabel.Proofs.Hierarchy.Result
import ClassRelabel.Proofs.Naming.Class

namespace ClassRelabel

open Hierarchy
open Relation (ReflTransGen TransGen)
open Std (ExtTreeSet)

/-! ## The end of the recursion -/

namespace Hierarchy

variable {h : Hierarchy}

/-- The known classes that were not asked for yet. -/
def unseen (h : Hierarchy) (seen : ExtTreeSet String compare) : List String :=
  h.names.filter fun n => !seen.contains n

theorem mem_names_iff {n : String} : n ∈ h.names ↔ (h.class? n).isSome := by
  rw [names, Std.ExtTreeMap.mem_keys, Std.ExtTreeMap.mem_iff_isSome_getElem?]
  rfl

theorem mem_unseen {seen : ExtTreeSet String compare} {n : String} :
    n ∈ h.unseen seen ↔ (h.class? n).isSome ∧ n ∉ seen := by
  rw [unseen, List.mem_filter, mem_names_iff, Bool.not_eq_true', ← Bool.not_eq_true,
    ExtTreeSet.contains_iff_mem]

theorem length_unseen_le_size (seen : ExtTreeSet String compare) :
    (h.unseen seen).length ≤ h.size := by
  have hle := List.length_filter_le (fun n => !seen.contains n) h.names
  rwa [names, Std.ExtTreeMap.length_keys] at hle

theorem nodup_names (h : Hierarchy) : h.names.Nodup :=
  Std.ExtTreeMap.nodup_keys

theorem length_unseen_mono {seen seen' : ExtTreeSet String compare} (hle : ∀ n ∈ seen, n ∈ seen') :
    (h.unseen seen').length ≤ (h.unseen seen).length := by
  have hsubset : h.unseen seen' ⊆ h.unseen seen := fun n hn => by
    obtain ⟨hknown, hnot⟩ := mem_unseen.mp hn
    exact mem_unseen.mpr ⟨hknown, fun hmem => hnot (hle n hmem)⟩
  exact (List.subperm_of_subset (h.nodup_names.filter _) hsubset).length_le

/-- Asking for a known class leaves one class less. -/
theorem length_unseen_ask {v : Visit} {name : String} (hknown : (h.class? name).isSome)
    (hnew : name ∉ v.seen) : (h.unseen (v.ask name).seen).length < (h.unseen v.seen).length := by
  have hsubset : name :: h.unseen (v.ask name).seen ⊆ h.unseen v.seen := by
    rw [List.cons_subset]
    refine ⟨mem_unseen.mpr ⟨hknown, hnew⟩, fun n hn => ?_⟩
    obtain ⟨hn, hnot⟩ := mem_unseen.mp hn
    exact mem_unseen.mpr ⟨hn, fun hmem => hnot ((continues_ask v name).seen n hmem)⟩
  have hnodup : (name :: h.unseen (v.ask name).seen).Nodup := by
    refine List.nodup_cons.mpr ⟨fun hmem => ?_, h.nodup_names.filter _⟩
    exact (mem_unseen.mp hmem).2 (mem_ask.mpr (Or.inl rfl))
  have hle := (List.subperm_of_subset hnodup hsubset).length_le
  rwa [List.length_cons] at hle

theorem continues_foldl {f : Visit → String → Visit} (hf : ∀ v n, Continues v (f v n))
    (names : List String) (v : Visit) : Continues v (names.foldl f v) := by
  induction names generalizing v with
  | nil => exact .refl v
  | cons n names ih => exact (hf v n).trans (ih (f v n))

theorem continues_visit (fuel : Nat) (v : Visit) (name : String) :
    Continues v (visit h fuel v name) := by
  induction fuel generalizing v name with
  | zero => exact .refl v
  | succ fuel ih =>
    rw [visit]
    split
    · exact .refl v
    · split
      · exact continues_ask v name
      · rename_i shape _
        have hparents := continues_foldl ih shape.parents (v.ask name)
        have hall := (continues_ask v name).trans hparents
        exact ⟨hall.seen, fun n hn => List.mem_cons_of_mem name (hall.order n hn)⟩

end Hierarchy

namespace Mappings

variable {h : Hierarchy} {m m' : Mappings}

/-- Completion under way: the classes asked for so far, and the mappings as they are. -/
structure Progress where
  seen : ExtTreeSet String compare
  mappings : Mappings

/-- Completing the classes of a list one after another.  A class that is known and was not asked
for before gets what it inherits once its parents are completed, however deep that leads. -/
inductive Completes (h : Hierarchy) : List String → Progress → Progress → Prop
  | nil (s : Progress) : Completes h [] s s
  | again {name : String} {names : List String} {s t : Progress} (seen : name ∈ s.seen)
      (rest : Completes h names s t) : Completes h (name :: names) s t
  | unknown {name : String} {names : List String} {s t : Progress} (fresh : name ∉ s.seen)
      (unknown : h.class? name = none)
      (rest : Completes h names ⟨s.seen.insert name, s.mappings⟩ t) :
      Completes h (name :: names) s t
  | known {name : String} {names : List String} {s t u : Progress} {c : ClassShape}
      (fresh : name ∉ s.seen) (known : h.class? name = some c)
      (parents : Completes h c.parents ⟨s.seen.insert name, s.mappings⟩ u)
      (rest : Completes h names ⟨u.seen, inherit h u.mappings name⟩ t) :
      Completes h (name :: names) s t

theorem Completes.unique {names : List String} {s t t' : Progress} (hc : Completes h names s t)
    (hc' : Completes h names s t') : t = t' := by
  induction hc generalizing t' with
  | nil s =>
    cases hc'
    rfl
  | again seen _ ih =>
    cases hc' with
    | again _ rest => exact ih rest
    | unknown fresh => exact absurd seen fresh
    | known fresh => exact absurd seen fresh
  | unknown fresh unknown _ ih =>
    cases hc' with
    | again seen => exact absurd seen fresh
    | unknown _ _ rest => exact ih rest
    | known _ known =>
      rw [unknown] at known
      simp at known
  | known fresh known _ _ ihparents ih =>
    cases hc' with
    | again seen => exact absurd seen fresh
    | unknown _ unknown =>
      rw [unknown] at known
      simp at known
    | known _ known' parents rest =>
      obtain rfl := Option.some.inj (known.symm.trans known')
      obtain rfl := ihparents parents
      exact ih rest

theorem Completes.cons {name : String} {names : List String} {s t u : Progress}
    (hfirst : Completes h [name] s t) (hrest : Completes h names t u) :
    Completes h (name :: names) s u := by
  cases hfirst with
  | again seen rest =>
    cases rest
    exact .again seen hrest
  | unknown fresh unknown rest =>
    cases rest
    exact .unknown fresh unknown hrest
  | known fresh known parents rest =>
    cases rest
    exact .known fresh known parents hrest

/-- How far completion is when a visit is. -/
def progress (h : Hierarchy) (m : Mappings) (v : Visit) : Progress :=
  ⟨v.seen, inheritAll h m v.order⟩

theorem completes_foldl {f : Visit → String → Visit} {bound : Nat}
    (hf : ∀ v n, (h.unseen v.seen).length < bound →
      Completes h [n] (progress h m v) (progress h m (f v n)))
    (hcontinues : ∀ v n, Continues v (f v n)) (names : List String) {v : Visit}
    (hv : (h.unseen v.seen).length < bound) :
    Completes h names (progress h m v) (progress h m (names.foldl f v)) := by
  induction names generalizing v with
  | nil => exact .nil _
  | cons n names ih =>
    have hle := length_unseen_mono (h := h) (hcontinues v n).seen
    exact (hf v n hv).cons (ih (Nat.lt_of_le_of_lt hle hv))

/-- A visit with fuel for every known class that is left completes the class. -/
theorem completes_visit {fuel : Nat} {v : Visit} (name : String)
    (hfuel : (h.unseen v.seen).length < fuel) :
    Completes h [name] (progress h m v) (progress h m (visit h fuel v name)) := by
  induction fuel generalizing v name with
  | zero => exact absurd hfuel (Nat.not_lt_zero _)
  | succ fuel ih =>
    rw [visit]
    by_cases hseen : name ∈ v.seen
    · rw [if_pos (ExtTreeSet.contains_iff_mem.mpr hseen)]
      exact .again hseen (.nil _)
    · rw [if_neg fun hc => hseen (ExtTreeSet.contains_iff_mem.mp hc)]
      cases hclass : h.class? name with
      | none => exact .unknown hseen hclass (.nil _)
      | some c =>
        have hless : (h.unseen (v.ask name).seen).length < fuel := by
          have hask := length_unseen_ask (h := h) (by rw [hclass, Option.isSome_some]) hseen
          omega
        have hparents := completes_foldl (fun v n hv => ih n hv) (continues_visit fuel)
          c.parents hless
        exact .known hseen hclass hparents (.nil _)

/-- Completion ends, with one result. -/
theorem completes_complete (h : Hierarchy) (m : Mappings) (names : List String) :
    ∃ seen, ∀ t, Completes h names ⟨∅, m⟩ t ↔ t = ⟨seen, m.complete h names⟩ := by
  let v := names.foldl (visit h (h.size + 2)) ⟨∅, []⟩
  have hbound : (h.unseen (∅ : ExtTreeSet String compare)).length < h.size + 2 := by
    have hle := h.length_unseen_le_size ∅
    omega
  have hends : Completes h names ⟨∅, m⟩ (progress h m v) :=
    completes_foldl (v := ⟨∅, []⟩) (fun v n hv => completes_visit n hv)
      (continues_visit (h.size + 2)) names hbound
  have hresult : progress h m v = ⟨v.seen, m.complete h names⟩ := by
    have horder : h.supertypesFirst names = v.order.reverse := rfl
    rw [progress, complete_eq horder]
  refine ⟨v.seen, fun t => ⟨fun ht => ?_, fun ht => ?_⟩⟩
  · rw [← hresult]
    exact ht.unique hends
  · rw [ht, ← hresult]
    exact hends

/-! ## Nothing is lost -/

/-- All that `m` lists is listed by `m'`, members with the same entries, and no class has another
new name of its own, or one where it had none. -/
structure Extends (m m' : Mappings) : Prop where
  listed : ∀ owner, (m.class? owner).isSome → (m'.class? owner).isSome
  className : ∀ owner, m'.className? owner = m.className? owner
  member : ∀ owner x e, m.member? owner x = some e → m'.member? owner x = some e

theorem Extends.refl (m : Mappings) : Extends m m :=
  ⟨fun _ => id, fun _ => rfl, fun _ _ _ => id⟩

theorem Extends.trans {m'' : Mappings} (hm : Extends m m') (hm' : Extends m' m'') :
    Extends m m'' :=
  ⟨fun owner hlisted => hm'.listed owner (hm.listed owner hlisted),
    fun owner => (hm'.className owner).trans (hm.className owner),
    fun owner x e he => hm'.member owner x e (hm.member owner x e he)⟩

/-- What a class inherits comes on top of what it has. -/
theorem extends_inherit (h : Hierarchy) (m : Mappings) (name : String) :
    Extends m (inherit h m name) := by
  cases hclass : h.class? name with
  | none =>
    rw [inherit, hclass]
    exact .refl m
  | some c =>
    refine ⟨fun owner hlisted => ?_, fun owner => ?_, fun owner x e he => ?_⟩
    · rw [class?_inherit hclass]
      split
      · rename_i howner
        subst howner
        simp only [inheritedEntry]
        split
        · exact hlisted
        · rfl
      · exact hlisted
    · rw [className?, class?_inherit hclass]
      split
      · rename_i howner
        subst howner
        exact name_inheritedEntry (m.class? owner)
      · rfl
    · rw [member?_inherit hclass]
      split
      · rename_i howner
        subst howner
        rw [he, Option.some_or]
      · exact he

theorem extends_complete (h : Hierarchy) (m : Mappings) (names : List String) :
    Extends m (m.complete h names) := by
  rw [complete]
  induction h.supertypesFirst names generalizing m with
  | nil => exact .refl m
  | cons name rest ih => exact (extends_inherit h m name).trans (ih (inherit h m name))

/-! ## Where additions come from -/

/-- The class `owner` has a parent that declares the member for it to see. -/
def Shown (h : Hierarchy) (owner : String) (x : MemberId) : Prop :=
  ∃ child p parent access, h.class? owner = some child ∧ p ∈ child.parents ∧
    h.class? p = some parent ∧ parent.access? x = some access ∧
    access.meets .isPrivate = false ∧
    (access.meets .isPublic = true ∨ access.meets .isProtected = true ∨
      parent.package = child.package)

theorem shown_of_passes {owner p : String} {x : MemberId} (hp : h.Passes x owner p) :
    x.isInitializer = false ∧ Shown h owner x := by
  obtain ⟨child, parent, hchild, hparent, hmem, hinherits⟩ := hp
  obtain ⟨hx, access, haccess, hshows⟩ := ClassShape.inherits_iff.mp hinherits
  simp only [ClassShape.shows, Bool.and_eq_true, Bool.or_eq_true, Bool.not_eq_true',
    beq_iff_eq, or_assoc] at hshows
  exact ⟨hx, child, p, parent, access, hchild, hmem, hparent, haccess, hshows.1, hshows.2⟩

theorem ancestor_of_passes {owner p d : String} {x : MemberId} (hp : h.Passes x owner p)
    (hchain : ReflTransGen (h.Passes x) p d) : h.Ancestor owner d := by
  rcases eq_or_ancestor_of_passes hchain with rfl | hancestor
  · exact .single hp.parent
  · exact .head hp.parent hancestor

/-- Completion ends with one result.  This extends the mappings, so that classes keep their new
names, and each entry that is new to a class was the entry of an ancestor, for a member that is no
initializer and that one of its parents declares for it to see. -/
theorem extension_of_complete (h : Hierarchy) (m : Mappings) (names : List String) :
    (∃ seen, ∀ t, Completes h names ⟨∅, m⟩ t ↔ t = ⟨seen, m.complete h names⟩) ∧
    Extends m (m.complete h names) ∧
    (∀ name, (m.complete h names).renameClass name = m.renameClass name) ∧
    (∀ owner x e, m.member? owner x = none → (m.complete h names).member? owner x = some e →
      x.isInitializer = false ∧ Shown h owner x ∧
        ∃ source, h.Ancestor owner source ∧ m.member? source x = some e) := by
  have hextends := extends_complete h m names
  refine ⟨completes_complete h m names, hextends, renameClass_congr hextends.className, ?_⟩
  intro owner x e hnone he
  obtain ⟨source, hchain, hsource⟩ := source_of_complete he
  cases hchain using ReflTransGen.head_induction_on with
  | refl =>
    rw [hnone] at hsource
    simp at hsource
  | head hp hrest =>
    obtain ⟨hx, hshown⟩ := shown_of_passes hp
    exact ⟨hx, hshown, source, ancestor_of_passes hp hrest, hsource⟩

end Mappings

/-! ## A cycle

Each of two classes extends the other, and one has a parent that is missing. -/

namespace Cycle

def hierarchy : Hierarchy :=
  (Hierarchy.empty.insert ⟨"a/A", some "a/B", ["x/Missing"], ⟨1⟩, {("f", ⟨4⟩)}, ∅⟩).insert
    ⟨"a/B", some "a/A", [], ⟨1⟩, {("f", ⟨4⟩)}, ∅⟩

def mappings : Mappings := Mappings.empty.nameField "a/A" "f" ⟨"count", none⟩

/-- The class that is read while it waits for its parents passes its entry on. -/
theorem extension_of_complete_cycle :
    hierarchy.Ancestor "a/A" "a/A" ∧
    (mappings.complete hierarchy ["a/A"]).member? "a/B" (.field "f") =
      some (.field ⟨"count", none⟩) ∧
    ∃ source, hierarchy.Ancestor "a/B" source ∧
      mappings.member? source (.field "f") = some (.field ⟨"count", none⟩) := by
  have hup : hierarchy.Parent "a/A" "a/B" := ⟨_, rfl, by decide, by decide +kernel⟩
  have hdown : hierarchy.Parent "a/B" "a/A" := ⟨_, rfl, by decide, by decide +kernel⟩
  have hadded : (mappings.complete hierarchy ["a/A"]).member? "a/B" (.field "f") =
      some (.field ⟨"count", none⟩) := by decide +kernel
  obtain ⟨-, -, -, hsource⟩ := Mappings.extension_of_complete hierarchy mappings ["a/A"]
  exact ⟨.head hup (.single hdown), hadded,
    (hsource "a/B" (.field "f") _ (by decide +kernel) hadded).2.2⟩

end Cycle
end ClassRelabel
