/-
The rule for new names of classes.

A class follows the longest part of its name that has a new name and names the class itself or one
around it: `Follows` is this rule, `follows_renameChars` says that the search from the last `$`
backwards ends with it, and `Follows.unique` that it leaves no choice.  Entries for members alone
never count, because the rule speaks of new names only.

The name of an array is a descriptor.  The names inside descriptors are no names of arrays, so
renaming them is the same function again (`renameDescriptor_eq`).
-/
import ClassRelabel.Naming.Class
import ClassRelabel.Proofs.Descriptor.Renaming
import ClassRelabel.Proofs.Mapping

namespace ClassRelabel

/-! ## Classes around a class -/

/-- What nested classes add to the name of the class around them: segments that are neither empty
nor hold a `$`, each with a `$` in front. -/
inductive Nesting : List Char → Prop
  | nil : Nesting []
  | segment {rest inner : List Char} (h : Nesting rest) (hne : inner ≠ []) (hinner : '$' ∉ inner) :
      Nesting (rest ++ '$' :: inner)

/-- The class `outer` is the class `name` itself or a class around it, and `rest` is the rest of
the name. -/
structure Encloses (name outer rest : List Char) : Prop where
  eq_append : name = outer ++ rest
  nesting : Nesting rest
  named : rest ≠ [] → outer ≠ []

namespace Encloses

variable {name outer rest : List Char}

theorem refl (name : List Char) : Encloses name name [] :=
  ⟨(List.append_nil name).symm, .nil, fun h => absurd rfl h⟩

theorem length_le (h : Encloses name outer rest) : outer.length ≤ name.length := by
  rw [h.eq_append, List.length_append]
  exact Nat.le_add_right _ _

/-- The segment nested deepest can be taken off. -/
theorem cases_last (h : Encloses name outer rest) : rest = [] ∧ outer = name ∨
    ∃ around inner before, Text.splitLast? '$' name = some (around, inner) ∧ around ≠ [] ∧
      inner ≠ [] ∧ Encloses around outer before ∧ rest = before ++ '$' :: inner := by
  obtain ⟨rfl, hnesting, hnamed⟩ := h
  cases hnesting with
  | nil => exact .inl ⟨rfl, (List.append_nil outer).symm⟩
  | @segment before inner hbefore hne hinner =>
    have houter : outer ≠ [] := hnamed (by simp)
    refine .inr ⟨outer ++ before, inner, before, ?_, by simp [houter], hne,
      ⟨rfl, hbefore, fun _ => houter⟩, rfl⟩
    exact Text.splitLast?_eq_some.mpr ⟨by rw [List.append_assoc], hinner⟩

theorem snoc {inner : List Char} (h : Encloses name outer rest) (hname : name ≠ [])
    (hne : inner ≠ []) (hinner : '$' ∉ inner) :
    Encloses (name ++ '$' :: inner) outer (rest ++ '$' :: inner) := by
  refine ⟨by rw [h.eq_append, List.append_assoc], .segment h.nesting hne hinner, fun _ => ?_⟩
  by_cases hrest : rest = []
  · rintro rfl
    exact hname (by rw [h.eq_append, hrest]; rfl)
  · exact h.named hrest

end Encloses

namespace Mappings

/-- The class has a new name, and not only members with one. -/
def Renames (m : Mappings) (name new : String) : Prop :=
  ∃ e, m.class? name = some e ∧ e.name = some new

/-- The new name of a class that is no array. -/
inductive Follows (m : Mappings) (name : List Char) : List Char → Prop
  | renamed {outer rest : List Char} {new : String} (houter : Encloses name outer rest)
      (hnew : m.Renames (String.ofList outer) new)
      (longest : ∀ outer' rest' new', Encloses name outer' rest' →
        m.Renames (String.ofList outer') new' → outer'.length ≤ outer.length) :
      Follows m name (new.toList ++ rest)
  | kept (h : ∀ outer rest new, Encloses name outer rest → ¬m.Renames (String.ofList outer) new) :
      Follows m name name

variable {m m' : Mappings} {name : List Char}

theorem className?_eq_some {name new : String} :
    m.className? name = some new ↔ m.Renames name new :=
  Option.bind_eq_some_iff

theorem Renames.unique {name new new' : String} (h : m.Renames name new)
    (h' : m.Renames name new') : new = new' :=
  Option.some.inj ((className?_eq_some.mpr h).symm.trans (className?_eq_some.mpr h'))

theorem not_renames {name new : String} (h : m.className? name = none) : ¬m.Renames name new :=
  fun hnew => by
    rw [className?_eq_some.mpr hnew] at h
    simp at h

theorem Follows.unique {new new' : List Char} (h : m.Follows name new) (h' : m.Follows name new') :
    new = new' := by
  cases h with
  | @renamed p rest r hp hr hlongest =>
    cases h' with
    | @renamed p' rest' r' hp' hr' hlongest' =>
      have hlength : p.length = p'.length :=
        Nat.le_antisymm (hlongest' p rest r hp hr) (hlongest p' rest' r' hp' hr')
      obtain ⟨rfl, rfl⟩ := List.append_inj (hp.eq_append.symm.trans hp'.eq_append) hlength
      rw [hr.unique hr']
    | kept hnone => exact absurd hr (hnone p rest r hp)
  | kept hnone =>
    cases h' with
    | renamed hp hr _ => exact absurd hr (hnone _ _ _ hp)
    | kept => rfl

/-- A class without a new name of its own follows the class around it. -/
theorem Follows.snoc {new inner : List Char} (h : m.Follows name new) (hname : name ≠ [])
    (hne : inner ≠ []) (hinner : '$' ∉ inner)
    (hown : m.className? (String.ofList (name ++ '$' :: inner)) = none) :
    m.Follows (name ++ '$' :: inner) (new ++ '$' :: inner) := by
  -- What encloses the longer name and is renamed is not the class itself.
  have hback : ∀ outer rest r, Encloses (name ++ '$' :: inner) outer rest →
      m.Renames (String.ofList outer) r → ∃ before, Encloses name outer before := by
    intro outer rest r houter hr
    rcases houter.cases_last with ⟨-, rfl⟩ | ⟨around, inner', before, hsplit, -, -, hbefore, -⟩
    · exact absurd hr (not_renames hown)
    · rw [Text.splitLast?_eq_some.mpr ⟨rfl, hinner⟩] at hsplit
      obtain ⟨rfl, rfl⟩ := Prod.mk.inj (Option.some.inj hsplit)
      exact ⟨before, hbefore⟩
  cases h with
  | renamed hp hr hlongest =>
    rw [List.append_assoc]
    refine .renamed (hp.snoc hname hne hinner) hr fun outer' rest' r' houter' hr' => ?_
    obtain ⟨before, hbefore⟩ := hback outer' rest' r' houter' hr'
    exact hlongest outer' before r' hbefore hr'
  | kept hnone =>
    refine .kept fun outer rest r houter hr => ?_
    obtain ⟨before, hbefore⟩ := hback outer rest r houter hr
    exact hnone outer before r hbefore hr

/-- A class without a new name that is nested in no other class keeps its name. -/
theorem follows_self (hown : m.className? (String.ofList name) = none)
    (htop : ∀ around inner, Text.splitLast? '$' name = some (around, inner) →
      around = [] ∨ inner = []) : m.Follows name name := by
  refine .kept fun outer rest new houter => ?_
  rcases houter.cases_last with ⟨-, rfl⟩ | ⟨around, inner, _, hsplit, haround, hinner, -, -⟩
  · exact not_renames hown
  · rcases htop around inner hsplit with h | h
    · exact absurd h haround
    · exact absurd h hinner

theorem follows_renameChars (m : Mappings) (name : List Char) :
    m.Follows name (m.renameChars name) := by
  fun_induction renameChars m name with
  | case1 name new hnew =>
    rw [← List.append_nil new.toList]
    exact .renamed (.refl name) (className?_eq_some.mp hnew) fun _ _ _ houter _ => houter.length_le
  | case2 name hown hsplit =>
    refine follows_self hown fun around inner h => ?_
    rw [hsplit] at h
    simp at h
  | case3 name hown outer inner hsplit hempty =>
    refine follows_self hown fun around inner' h => ?_
    obtain ⟨rfl, rfl⟩ := Prod.mk.inj (Option.some.inj (hsplit.symm.trans h))
    simpa using hempty
  | case4 name hown outer inner hsplit hempty _ ih =>
    obtain ⟨rfl, hinner⟩ := Text.splitLast?_eq_some.mp hsplit
    have hnonempty : outer ≠ [] ∧ inner ≠ [] := by simpa using hempty
    exact ih.snoc hnonempty.1 hnonempty.2 hinner hown

theorem renameChars_eq_iff {new : List Char} : m.renameChars name = new ↔ m.Follows name new :=
  ⟨fun h => h ▸ follows_renameChars m name, (follows_renameChars m name).unique⟩

/-- Entries for members alone change no rule. -/
theorem Follows.congr {new : List Char} (hnames : ∀ owner, m'.className? owner = m.className? owner)
    (h : m.Follows name new) : m'.Follows name new := by
  have hrenames : ∀ owner new, m'.Renames owner new ↔ m.Renames owner new := fun owner new => by
    rw [← className?_eq_some, ← className?_eq_some, hnames]
  cases h with
  | renamed houter hr hlongest =>
    exact .renamed houter ((hrenames _ _).mpr hr) fun outer' rest' r' houter' hr' =>
      hlongest outer' rest' r' houter' ((hrenames _ _).mp hr')
  | kept hnone =>
    exact .kept fun outer rest r houter hr => hnone outer rest r houter ((hrenames _ _).mp hr)

/-! ## Names that descriptors can hold -/

/-- All new names of classes are of one kind. -/
def NewNames (m : Mappings) (P : String → Prop) : Prop :=
  ∀ name new, m.Renames name new → P new

theorem newNames_empty (P : String → Prop) : empty.NewNames P := by
  rintro name new ⟨e, he, -⟩
  simp [empty, class?] at he

theorem NewNames.nameClass {P : String → Prop} (hm : m.NewNames P) (owner : String) {r : String}
    (hr : P r) : (m.nameClass owner r).NewNames P := by
  rintro name new ⟨e, he, hnew⟩
  rw [Mappings.nameClass, class?_update] at he
  split at he
  · obtain rfl := Option.some.inj he
    obtain rfl := Option.some.inj hnew
    exact hr
  · exact hm name new ⟨e, he, hnew⟩

/-- A new name is not empty and holds no character that neither the old name nor the new names of
the mappings hold. -/
theorem Follows.spelled {ok : Char → Prop} {new : List Char} (h : m.Follows name new)
    (hm : m.NewNames fun r => r.toList ≠ [] ∧ ∀ c ∈ r.toList, ok c)
    (hname : name ≠ [] ∧ ∀ c ∈ name, ok c) : new ≠ [] ∧ ∀ c ∈ new, ok c := by
  cases h with
  | renamed houter hr _ =>
    obtain ⟨hne, hchars⟩ := hm _ _ hr
    refine ⟨by simp [hne], fun c hc => ?_⟩
    rcases List.mem_append.mp hc with hc | hc
    · exact hchars c hc
    · exact hname.2 c (by rw [houter.eq_append]; exact List.mem_append_right _ hc)
  | kept => exact hname

theorem toList_renamePlain (m : Mappings) (name : String) :
    (m.renamePlain name).toList = m.renameChars name.toList := String.toList_ofList

/-- The name of a class that is no array. -/
theorem renameClass_of_head? {name : String} (h : name.toList.head? ≠ some '[') :
    m.renameClass name = m.renamePlain name := if_neg h

theorem head?_of_isInternalName {name : String} (h : IsInternalName name) :
    name.toList.head? ≠ some '[' := fun hhead =>
  h.2 '[' (List.mem_of_head? hhead) (by decide)

theorem spelled_renameClass {ok : Char → Prop} {name : String} (h : IsInternalName name)
    (hm : m.NewNames fun r => r.toList ≠ [] ∧ ∀ c ∈ r.toList, ok c)
    (hname : ∀ c ∈ name.toList, ok c) :
    (m.renameClass name).toList ≠ [] ∧ ∀ c ∈ (m.renameClass name).toList, ok c := by
  rw [renameClass_of_head? (head?_of_isInternalName h), toList_renamePlain]
  exact (follows_renameChars m name.toList).spelled hm ⟨h.1, hname⟩

theorem isInternalName_renameClass (hm : m.NewNames IsInternalName) {name : String}
    (h : IsInternalName name) : IsInternalName (m.renameClass name) :=
  spelled_renameClass h hm h.2

/-! ## Descriptors and arrays -/

/-- New names depend on the new names of the mappings and on nothing else in them. -/
theorem renameClass_congr (hnames : ∀ owner, m'.className? owner = m.className? owner)
    (name : String) : m'.renameClass name = m.renameClass name := by
  have hplain : m'.renamePlain = m.renamePlain := funext fun name => by
    have hfollows := (follows_renameChars m name.toList).congr hnames
    rw [renamePlain, renamePlain, renameChars_eq_iff.mpr hfollows]
  rw [renameClass, renameClass, renameDescriptor, renameDescriptor, hplain]

theorem renameClass_of_isInternalName {name : String} (h : IsInternalName name) :
    m.renameClass name = m.renamePlain name :=
  renameClass_of_head? (head?_of_isInternalName h)

/-- A descriptor is renamed class by class. -/
theorem renameDescriptor_eq (m : Mappings) (descriptor : String) :
    m.renameDescriptor descriptor =
      (FieldType.parse descriptor).map fun t => toString (t.mapClasses m.renameClass) := by
  cases h : FieldType.parse descriptor with
  | error e => rw [renameDescriptor, h]; rfl
  | ok t =>
    have hsame : t.mapClasses m.renameClass = t.mapClasses m.renamePlain :=
      FieldType.mapClasses_congr (fun _ => renameClass_of_isInternalName)
        (.inl (FieldType.parse_eq_ok.mp h).1)
    rw [renameDescriptor, h, Except.map, hsame]
    rfl

theorem renameMethodType_eq (m : Mappings) (descriptor : String) :
    m.renameMethodType descriptor =
      (MethodType.parse descriptor).map fun t => toString (t.mapClasses m.renameClass) := by
  cases h : MethodType.parse descriptor with
  | error e => rw [renameMethodType, h]; rfl
  | ok t =>
    have hsame : t.mapClasses m.renameClass = t.mapClasses m.renamePlain :=
      MethodType.mapClasses_congr (fun _ => renameClass_of_isInternalName)
        (MethodType.parse_eq_ok.mp h).1
    rw [renameMethodType, h, Except.map, hsame]
    rfl

/-- The name of an array is renamed as a descriptor if it is one. -/
theorem renameClass_of_array {name : String} (h : name.toList.head? = some '[') :
    (FieldText name.toList → m.renameDescriptor name = .ok (m.renameClass name)) ∧
      (¬FieldText name.toList → m.renameClass name = name) := by
  refine ⟨fun htext => ?_, fun htext => ?_⟩
  · obtain ⟨t, ht⟩ := (FieldType.readsExactly_parse.accepted name).mpr htext
    have hnew : m.renameDescriptor name = .ok (toString (t.mapClasses m.renameClass)) := by
      rw [renameDescriptor_eq, ht]
      rfl
    have hclass : m.renameClass name = toString (t.mapClasses m.renameClass) := by
      rw [renameClass, if_pos h, hnew]
    rw [hnew, ← hclass]
  · have hrefused : m.renameDescriptor name = .error (.descriptor name) := by
      rw [renameDescriptor_eq, FieldType.readsExactly_parse.refused name htext]
      rfl
    rw [renameClass, if_pos h, hrefused]

/-! ## Names of classes and arrays -/

/-- A class takes its new name from itself or the class around it with the longest name.  A class
without one keeps its name, and the name of an array is renamed as the descriptor it is.  Entries
for members alone change nothing. -/
theorem renameClass_rule (m : Mappings) (name : String) :
    (name.toList.head? ≠ some '[' →
      ∀ new, m.renameClass name = new ↔ m.Follows name.toList new.toList) ∧
    (name.toList.head? = some '[' →
      (FieldText name.toList → m.renameDescriptor name = .ok (m.renameClass name)) ∧
      (¬FieldText name.toList → m.renameClass name = name)) ∧
    (∀ descriptor, m.renameDescriptor descriptor =
      (FieldType.parse descriptor).map fun t => toString (t.mapClasses m.renameClass)) ∧
    ∀ m' : Mappings, (∀ name new, m'.Renames name new ↔ m.Renames name new) →
      m'.renameClass name = m.renameClass name := by
  refine ⟨fun hplain new => ?_, renameClass_of_array, m.renameDescriptor_eq, fun m' hnames => ?_⟩
  · rw [renameClass_of_head? hplain, ← renameChars_eq_iff, ← toList_renamePlain, String.toList_inj]
  · refine renameClass_congr (fun owner => Option.ext fun new => ?_) name
    rw [className?_eq_some, className?_eq_some, hnames]

/-- The class around `a$$b` would be `a$`, with nothing in between. -/
example : (empty.nameClass "a" "net/Outer").renameClass "a$$b" = "a$$b" := by decide +kernel

end Mappings
end ClassRelabel
