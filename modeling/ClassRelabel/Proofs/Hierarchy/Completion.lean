/-
What completed mappings call a member.

`Completed` is the rule for the completed mappings: a class that is covered has what it inherits
from the entries that its parents have in the end, and no other class is touched.

Fields and methods are inherited by one rule, so both are members here: `Mappings.member?` is the
entry of a member of a class.  `member?_complete` says of the completed mappings that a class has
its own entry, and else the one of its first parent that passes one on.
-/
import ClassRelabel.Naming.Member
import ClassRelabel.Proofs.Hierarchy.Order
import ClassRelabel.Proofs.Mapping
import ClassRelabel.Proofs.TreeMap

namespace ClassRelabel

open Hierarchy
open Std (ExtTreeMap)

/-! ## Members -/

/-- A field by its name or a method by its name and descriptor. -/
inductive MemberId where
  | field (name : String)
  | method (key : MethodKey)
deriving DecidableEq, Repr

inductive MemberEntry where
  | field (entry : FieldEntry)
  | method (entry : MethodEntry)
deriving DecidableEq

namespace MemberId

def name : MemberId → String
  | field name => name
  | method key => key.name

/-- Constructors and class initializers are methods that are never renamed. -/
def isInitializer : MemberId → Bool
  | field _ => false
  | method key => key.isInitializer

end MemberId

def MemberEntry.name : MemberEntry → String
  | field entry => entry.name
  | method entry => entry.name

def ClassEntry.member? (e : ClassEntry) : MemberId → Option MemberEntry
  | .field name => e.fields[name]?.map .field
  | .method key => e.methods[key]?.map .method

def ClassShape.access? (c : ClassShape) : MemberId → Option Access
  | .field name => c.fields[name]?
  | .method key => c.methods[key]?

def ClassShape.inherits (child p : ClassShape) : MemberId → Bool
  | .field name => child.inheritsField p name
  | .method key => child.inheritsMethod p key

namespace Mappings

/-- The entry of a member of a class, if it has one of its own. -/
def member? (m : Mappings) (owner : String) (x : MemberId) : Option MemberEntry :=
  (m.class? owner).bind (·.member? x)

def renameMember (m : Mappings) (owner : String) : MemberId → String
  | .field name => m.renameField owner name
  | .method key => m.renameMethod owner key

theorem renameMember_eq (m : Mappings) (owner : String) {x : MemberId}
    (hx : x.isInitializer = false) :
    m.renameMember owner x = ((m.member? owner x).map MemberEntry.name).getD x.name := by
  cases x with
  | field name =>
    rw [renameMember, renameField, member?]
    cases hclass : m.class? owner with
    | none => simp [MemberId.name]
    | some e => cases hfield : e.fields[name]? <;> simp [ClassEntry.member?, hfield, MemberEntry.name,
        MemberId.name]
  | method key =>
    have hkey : ¬key.isInitializer = true := by simpa [MemberId.isInitializer] using hx
    rw [renameMember, renameMethod, if_neg hkey, method?, member?]
    cases hclass : m.class? owner with
    | none => simp [MemberId.name]
    | some e => cases hmethod : e.methods[key]? <;> simp [ClassEntry.member?, hmethod, MemberEntry.name,
        MemberId.name]

/-- The entry that a parent of the class `child` passes on to it. -/
def passed (m : Mappings) (h : Hierarchy) (child : ClassShape) (x : MemberId) (parent : String) :
    Option MemberEntry :=
  match h.class? parent with
  | some shape => if child.inherits shape x then m.member? parent x else none
  | none => none

/-! ## One class -/

section Inherit

variable {m : Mappings} {h : Hierarchy} {c : ClassShape}

theorem find?_inheritedFields (name parent : String) :
    ((m.inheritedFields h c parent).find? (·.1 = name)).map (MemberEntry.field ∘ Prod.snd) =
      m.passed h c (.field name) parent := by
  rw [inheritedFields, passed, member?]
  cases hshape : h.class? parent with
  | none => rfl
  | some shape =>
    cases hclass : m.class? parent with
    | none => simp
    | some e =>
      rw [← Option.map_map, find?_filter_toList e.fields (c.inheritsField shape)]
      simp only [ClassShape.inherits, Option.bind_some, ClassEntry.member?]
      by_cases htest : c.inheritsField shape name = true <;> simp [htest]

theorem find?_inheritedMethods (key : MethodKey) (parent : String) :
    ((m.inheritedMethods h c parent).find? (·.1 = key)).map (MemberEntry.method ∘ Prod.snd) =
      m.passed h c (.method key) parent := by
  rw [inheritedMethods, passed, member?]
  cases hshape : h.class? parent with
  | none => rfl
  | some shape =>
    cases hclass : m.class? parent with
    | none => simp
    | some e =>
      rw [← Option.map_map, find?_filter_toList e.methods (c.inheritsMethod shape)]
      simp only [ClassShape.inherits, Option.bind_some, ClassEntry.member?]
      by_cases htest : c.inheritsMethod shape key = true <;> simp [htest]

/-- Of the entries of several parents, the first parent's is found. -/
theorem find?_flatMap {α β : Type} {f : String → List α} {test : α → Bool} {g : α → β}
    (parents : List String) {found : String → Option β}
    (hf : ∀ p, ((f p).find? test).map g = found p) :
    ((parents.flatMap f).find? test).map g = parents.findSome? found := by
  induction parents with
  | nil => rfl
  | cons p parents ih =>
    rw [List.flatMap_cons, List.find?_append, Option.map_or, hf, ih, List.findSome?_cons]
    cases found p <;> rfl

theorem member?_addMissing (e : ClassEntry) (fields : List (String × FieldEntry))
    (methods : List (MethodKey × MethodEntry)) (x : MemberId) :
    (e.addMissing fields methods).member? x = (e.member? x).or (match x with
      | .field name => (fields.find? (·.1 = name)).map (MemberEntry.field ∘ Prod.snd)
      | .method key => (methods.find? (·.1 = key)).map (MemberEntry.method ∘ Prod.snd)) := by
  cases x with
  | field name =>
    simp only [ClassEntry.member?, ClassEntry.addMissing]
    rw [getElem?_foldl_insertIfNew, Option.map_or, Option.map_map]
  | method key =>
    simp only [ClassEntry.member?, ClassEntry.addMissing]
    rw [getElem?_foldl_insertIfNew, Option.map_or, Option.map_map]

theorem member?_update (m : Mappings) (name owner : String) (f : ClassEntry → ClassEntry)
    (x : MemberId) : (m.update name f).member? owner x =
      if owner = name then (f ((m.class? name).getD .empty)).member? x else m.member? owner x := by
  rw [member?, class?_update]
  by_cases howner : owner = name
  · rw [if_pos howner, if_pos howner, Option.bind_some]
  · rw [if_neg howner, if_neg howner, member?]

theorem member?_getD (e? : Option ClassEntry) (x : MemberId) :
    (e?.getD .empty).member? x = e?.bind (·.member? x) := by
  cases e? with
  | none => cases x <;> simp [ClassEntry.member?, ClassEntry.empty]
  | some e => rfl

/-- The entry of a class with what it inherits.  If that is nothing, there may be no entry. -/
def inheritedEntry (m : Mappings) (h : Hierarchy) (c : ClassShape) (e? : Option ClassEntry) :
    Option ClassEntry :=
  let fields := c.parents.flatMap (m.inheritedFields h c)
  let methods := c.parents.flatMap (m.inheritedMethods h c)
  if fields.isEmpty && methods.isEmpty then e?
  else some ((e?.getD .empty).addMissing fields methods)

/-- A class gets what it inherits, and other classes keep their entries. -/
theorem class?_inherit {name : String} (hclass : h.class? name = some c) (owner : String) :
    (inherit h m name).class? owner =
      if owner = name then m.inheritedEntry h c (m.class? name) else m.class? owner := by
  simp only [inherit, hclass, inheritedEntry]
  split
  · by_cases howner : owner = name
    · rw [if_pos howner, howner]
    · rw [if_neg howner]
  · rw [class?_update]

/-- What a class inherits is added to its own members. -/
theorem member?_inheritedEntry (e? : Option ClassEntry) (x : MemberId) :
    (m.inheritedEntry h c e?).bind (·.member? x) =
      (e?.bind (·.member? x)).or (c.parents.findSome? (m.passed h c x)) := by
  have hfields : ∀ field, ((c.parents.flatMap (m.inheritedFields h c)).find? (·.1 = field)).map
      (MemberEntry.field ∘ Prod.snd) = c.parents.findSome? (m.passed h c (.field field)) :=
    fun field => find?_flatMap c.parents (find?_inheritedFields field)
  have hmethods : ∀ key, ((c.parents.flatMap (m.inheritedMethods h c)).find? (·.1 = key)).map
      (MemberEntry.method ∘ Prod.snd) = c.parents.findSome? (m.passed h c (.method key)) :=
    fun key => find?_flatMap c.parents (find?_inheritedMethods key)
  simp only [inheritedEntry]
  split
  · rename_i hempty
    rw [Bool.and_eq_true, List.isEmpty_iff, List.isEmpty_iff] at hempty
    have hnone : c.parents.findSome? (m.passed h c x) = none := by
      cases x with
      | field field =>
        rw [← hfields, hempty.1]
        rfl
      | method key =>
        rw [← hmethods, hempty.2]
        rfl
    rw [hnone, Option.or_none]
  · rw [Option.bind_some, member?_addMissing, member?_getD]
    cases x with
    | field field => simp only [hfields]
    | method key => simp only [hmethods]

theorem member?_inherit {name : String} (hclass : h.class? name = some c) (owner : String)
    (x : MemberId) : (inherit h m name).member? owner x =
      if owner = name then (m.member? name x).or (c.parents.findSome? (m.passed h c x))
      else m.member? owner x := by
  rw [member?, class?_inherit hclass]
  by_cases howner : owner = name
  · rw [if_pos howner, if_pos howner, member?_inheritedEntry, member?]
  · rw [if_neg howner, if_neg howner, member?]

/-- Only the entries of known parents matter for what a class inherits. -/
theorem inheritedEntry_congr {m' : Mappings} (hsame : ∀ p ∈ c.parents, (h.class? p).isSome →
    m.class? p = m'.class? p) : m.inheritedEntry h c = m'.inheritedEntry h c := by
  have hfields : c.parents.flatMap (m.inheritedFields h c) =
      c.parents.flatMap (m'.inheritedFields h c) := by
    refine List.flatMap_congr fun p hp => ?_
    unfold inheritedFields
    cases hclass : h.class? p with
    | none => rfl
    | some shape => rw [hsame p hp (by rw [hclass, Option.isSome_some])]
  have hmethods : c.parents.flatMap (m.inheritedMethods h c) =
      c.parents.flatMap (m'.inheritedMethods h c) := by
    refine List.flatMap_congr fun p hp => ?_
    unfold inheritedMethods
    cases hclass : h.class? p with
    | none => rfl
    | some shape => rw [hsame p hp (by rw [hclass, Option.isSome_some])]
  funext e?
  rw [inheritedEntry, inheritedEntry, hfields, hmethods]

end Inherit

/-! ## All classes -/

/-- The mappings after the listed classes got what they inherit, the last class first. -/
def inheritAll (h : Hierarchy) (m : Mappings) (order : List String) : Mappings :=
  order.foldr (fun name m => inherit h m name) m

theorem complete_eq {h : Hierarchy} {names order : List String}
    (horder : h.supertypesFirst names = order.reverse) (m : Mappings) :
    m.complete h names = inheritAll h m order := by
  rw [complete, horder, List.foldl_reverse]
  rfl

variable {h : Hierarchy} {m : Mappings} {order : List String}

theorem class?_inheritAll_of_notMem (hranked : Ranked h order) {owner : String}
    (howner : owner ∉ order) : (inheritAll h m order).class? owner = m.class? owner := by
  induction hranked with
  | nil => rfl
  | @cons c order known _ _ _ ih =>
    obtain ⟨shape, hclass⟩ := Option.isSome_iff_exists.mp known
    rw [List.mem_cons, not_or] at howner
    show (inherit h (inheritAll h m order) c).class? owner = _
    rw [class?_inherit hclass, if_neg howner.1, ih howner.2]

/-- In the end a class has its own entry with what it inherits from the entries that its parents
have in the end. -/
theorem class?_inheritAll (hranked : Ranked h order) {owner : String} (howner : owner ∈ order)
    {c : ClassShape} (hclass : h.class? owner = some c) :
    (inheritAll h m order).class? owner =
      (inheritAll h m order).inheritedEntry h c (m.class? owner) := by
  induction hranked with
  | nil => simp at howner
  | @cons d order known fresh parents rest ih =>
    obtain ⟨shape, hshape⟩ := Option.isSome_iff_exists.mp known
    -- Below the class that comes last nothing changes any more.
    have hlast : ∀ p ∈ order, (inheritAll h m (d :: order)).class? p =
        (inheritAll h m order).class? p := by
      intro p hp
      have hne : p ≠ d := fun hpd => fresh (hpd ▸ hp)
      show (inherit h (inheritAll h m order) d).class? p = _
      rw [class?_inherit hshape, if_neg hne]
    have hentry : (∀ p, h.Parent owner p → p ∈ order) →
        (inheritAll h m (d :: order)).inheritedEntry h c =
          (inheritAll h m order).inheritedEntry h c := by
      intro hall
      refine inheritedEntry_congr fun p hp hknown => ?_
      exact hlast p (hall p ⟨c, hclass, hp, hknown⟩)
    rcases List.mem_cons.mp howner with rfl | hmem
    · obtain rfl := Option.some.inj (hshape.symm.trans hclass)
      rw [hentry parents]
      show (inherit h (inheritAll h m order) owner).class? owner = _
      rw [class?_inherit hshape, if_pos rfl, class?_inheritAll_of_notMem rest fresh]
    · rw [hlast owner hmem, hentry (rest.parent_mem hmem), ih hmem]

/-! ## The completed mappings -/

/-- What `m` is completed to: covered classes have what they inherit from the entries that their
parents have in the end, and the others have what they had. -/
structure Completed (h : Hierarchy) (names : List String) (m m' : Mappings) : Prop where
  covered : ∀ (owner : String) (c : ClassShape), h.Covers names owner → h.class? owner = some c →
    m'.class? owner = m'.inheritedEntry h c (m.class? owner)
  others : ∀ owner, ¬h.Covers names owner → m'.class? owner = m.class? owner

theorem completed_complete (hac : h.Acyclic) (m : Mappings) (names : List String) :
    Completed h names m (m.complete h names) := by
  obtain ⟨order, horder, hranked, hall⟩ := ranked_supertypesFirst hac names
  rw [complete_eq horder]
  constructor
  · intro owner c hcovers hclass
    exact class?_inheritAll hranked ((hall owner).mpr hcovers) hclass
  · intro owner hnot
    exact class?_inheritAll_of_notMem hranked fun hmem => hnot ((hall owner).mp hmem)

/-- A class has its own entry for a member, and else the one of its first parent that passes one
on. -/
theorem member?_complete (hac : h.Acyclic) {names : List String} {owner : String}
    (howner : h.Covers names owner) {c : ClassShape} (hclass : h.class? owner = some c)
    (x : MemberId) : (m.complete h names).member? owner x =
      (m.member? owner x).or (c.parents.findSome? ((m.complete h names).passed h c x)) := by
  have hentry := (completed_complete hac m names).covered owner c howner hclass
  rw [member?, hentry, member?_inheritedEntry, member?]

end Mappings
end ClassRelabel
