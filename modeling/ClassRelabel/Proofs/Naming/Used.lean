/-
A name that is claimed was free.

The search for a counter drops every taken name that it meets, which loses nothing: numbered names
with different counters are different, so the dropped ones do not come again.  `Chosen` says which
name is claimed for a wish, and `deduce_eq_ok_iff` when a parameter gets one and for which wish.
-/
import Mathlib.Data.List.Nodup
import Mathlib.Data.List.Perm.Subperm
import ClassRelabel.Naming.Parameter
import ClassRelabel.Proofs.Effect
import ClassRelabel.Proofs.Text.Decimal

namespace ClassRelabel
namespace UsedNames

variable {u : UsedNames} {name other base : String}

/-- The name that is chosen for the wish `base`: the wish itself if it is free, and otherwise the
wish with the least counter with which it is.  No counter is greater than the number of names. -/
inductive Chosen (u : UsedNames) (base : String) : String → Prop
  | wish (free : u.contains base = false) : Chosen u base base
  | counted {k : Nat} (taken : u.contains base = true) (pos : 1 ≤ k)
      (free : u.contains (numbered base k) = false)
      (least : ∀ j, 1 ≤ j → j < k → u.contains (numbered base j) = true) (bound : k ≤ u.size) :
      Chosen u base (numbered base k)

theorem contains_reserve :
    (u.reserve name).contains other = true ↔ other = name ∨ u.contains other = true := by
  unfold reserve
  split
  · rename_i h
    constructor
    · exact Or.inr
    · rintro (rfl | h')
      · exact h
      · exact h'
  · simp [contains]

theorem contains_foldl_reserve {names : List String} :
    (names.foldl reserve u).contains other = true ↔ other ∈ names ∨ u.contains other = true := by
  induction names generalizing u with
  | nil => simp
  | cons name names ih =>
    rw [List.foldl_cons, ih, contains_reserve, List.mem_cons]
    constructor
    · rintro (h | h | h)
      · exact Or.inl (Or.inr h)
      · exact Or.inl (Or.inl h)
      · exact Or.inr h
    · rintro ((h | h) | h)
      · exact Or.inr (Or.inl h)
      · exact Or.inl h
      · exact Or.inr (Or.inr h)

theorem toList_numbered (base : String) (k : Nat) :
    (numbered base k).toList = base.toList ++ Nat.toDigits 10 k := by
  rw [numbered, String.toList_append, Nat.toString_eq_ofList_toDigits, String.toList_ofList]

theorem numbered_ne (base : String) (k : Nat) : numbered base k ≠ base := by
  intro h
  have hdigits := congrArg String.toList h
  rw [toList_numbered] at hdigits
  exact Nat.toDigits_ne_nil (List.append_right_eq_self.mp hdigits)

theorem numbered_injective {i j : Nat} (h : numbered base i = numbered base j) : i = j := by
  have hdigits := congrArg String.toList ((String.append_right_inj base).mp h)
  have hvalues := congrArg (fun digits => Nat.ofDigitChars 10 digits 0) hdigits
  simpa [Nat.toString_eq_ofList_toDigits] using hvalues

theorem le_freeCounter (base : String) (taken : List String) (counter : Nat) :
    counter ≤ freeCounter base taken counter := by
  fun_induction freeCounter base taken counter with
  | case1 taken counter _ ih => exact Nat.le_of_succ_le ih
  | case2 => exact Nat.le_refl _

theorem numbered_freeCounter_notMem (base : String) (taken : List String) (counter : Nat) :
    numbered base (freeCounter base taken counter) ∉ taken := by
  fun_induction freeCounter base taken counter with
  | case1 taken counter htaken ih =>
    have hle := le_freeCounter base (taken.erase (numbered base counter)) (counter + 1)
    have hne : numbered base
        (freeCounter base (taken.erase (numbered base counter)) (counter + 1)) ≠
        numbered base counter := fun h => by
      have heq := numbered_injective h
      omega
    exact fun hmem => ih ((List.mem_erase_of_ne hne).mpr hmem)
  | case2 taken counter hfree => exact hfree

/-- Names with a smaller counter than the free one are taken. -/
theorem mem_of_lt_freeCounter {taken : List String} {counter j : Nat} (hle : counter ≤ j)
    (hlt : j < freeCounter base taken counter) : numbered base j ∈ taken := by
  fun_induction freeCounter base taken counter with
  | case1 taken counter htaken ih =>
    rcases Nat.eq_or_lt_of_le hle with rfl | hlater
    · exact htaken
    · exact List.mem_of_mem_erase (ih hlater hlt)
  | case2 => omega

/-- The wish and the names with smaller counters are all different, and all are taken. -/
theorem freeCounter_le_length {taken : List String} (hbase : base ∈ taken) :
    freeCounter base taken 1 ≤ taken.length := by
  have hpos := le_freeCounter base taken 1
  have hnodup :
      (base :: (List.range' 1 (freeCounter base taken 1 - 1)).map (numbered base)).Nodup := by
    refine List.nodup_cons.mpr ⟨fun hmem => ?_, ?_⟩
    · obtain ⟨k, -, hk⟩ := List.mem_map.mp hmem
      exact numbered_ne base k hk
    · exact List.Nodup.map (fun _ _ => numbered_injective) (List.nodup_range' ..)
  have hsubset :
      base :: (List.range' 1 (freeCounter base taken 1 - 1)).map (numbered base) ⊆ taken := by
    refine List.cons_subset.mpr ⟨hbase, fun other hother => ?_⟩
    obtain ⟨j, hj, rfl⟩ := List.mem_map.mp hother
    rw [List.mem_range'_1] at hj
    exact mem_of_lt_freeCounter hj.1 (by omega)
  have hlength := (List.subperm_of_subset hnodup hsubset).length_le
  rw [List.length_cons, List.length_map, List.length_range'] at hlength
  omega

theorem chosen_freeName (u : UsedNames) (base : String) : u.Chosen base (u.freeName base) := by
  have hmem : ∀ name, u.contains name = true ↔ name ∈ u.names := fun _ => List.contains_iff_mem
  unfold freeName
  split
  · rename_i htaken
    refine .counted htaken (le_freeCounter base u.names 1) ?_ (fun j hj hlt => ?_) ?_
    · simpa [contains] using numbered_freeCounter_notMem base u.names 1
    · exact (hmem _).mpr (mem_of_lt_freeCounter hj hlt)
    · exact freeCounter_le_length ((hmem base).mp htaken)
  · rename_i hfree
    exact .wish (by simpa using hfree)

theorem Chosen.free (h : u.Chosen base name) : u.contains name = false := by
  cases h with
  | wish hfree => exact hfree
  | counted _ _ hfree _ _ => exact hfree

theorem contains_freeName (u : UsedNames) (base : String) : u.contains (u.freeName base) = false :=
  (u.chosen_freeName base).free

/-- The claimed name is new, and nothing else becomes taken. -/
theorem contains_claim : (u.claim base).2.contains other = true ↔
    other = (u.claim base).1 ∨ u.contains other = true :=
  contains_reserve

end UsedNames

/-- The name that a parameter of a type is wished to have. -/
def Dictionary.wish (d : Dictionary) (t : FieldType) : String :=
  Text.lower (d.apply t.suggestion t.element.token)

/-- A name that a parameter can have: one that is not empty, begins with no snowman and is no
keyword other than the name of a receiver. -/
structure IsParameterName (name : String) : Prop where
  nonempty : name ≠ ""
  head : name.toList.head? ≠ some Parameter.snowman
  keyword : name ∈ keywords → name = receiverName

theorem isReserved_eq_false {name : String} :
    isReserved name = false ↔ (name ∈ keywords → name = receiverName) := by
  simp only [isReserved, Bool.and_eq_false_iff, bne_eq_false_iff_eq, List.contains_eq_mem,
    decide_eq_false_iff_not]
  tauto

/-- No keyword ends with a digit, so a counter makes no keyword. -/
theorem IsParameterName.numbered {base : String} (h : IsParameterName base) (k : Nat) :
    IsParameterName (UsedNames.numbered base k) := by
  have hbase : base.toList ≠ [] := fun hnil => h.nonempty (String.toList_eq_nil_iff.mp hnil)
  refine ⟨fun hempty => ?_, ?_, fun hkeyword => ?_⟩
  · have hchars := congrArg String.toList hempty
    rw [UsedNames.toList_numbered] at hchars
    simp [hbase] at hchars
  · rw [UsedNames.toList_numbered, List.head?_append_of_ne_nil _ hbase]
    exact h.head
  · have hdigits := Nat.toDigits_ne_nil (n := k) (b := 10)
    have hletters : (keywords.all fun word => word.toList.all fun c => !c.isDigit) = true := by
      decide
    have hlast := List.all_eq_true.mp (List.all_eq_true.mp hletters _ hkeyword)
      ((Nat.toDigits 10 k).getLast hdigits) (by
        rw [UsedNames.toList_numbered]
        exact List.mem_append_right _ (List.getLast_mem hdigits))
    rw [Text.isDigit_of_mem_toDigits _ (List.getLast_mem hdigits)] at hlast
    simp at hlast

namespace Parameter

theorem check_eq_ok {p : Parameter} {name : String} :
    p.check name = .ok () ↔ name.toList.head? ≠ some snowman ∧ isReserved name = false := by
  unfold check
  split
  · rename_i h
    simp [h]
  · rename_i h
    cases hreserved : isReserved name <;> simp [h]

theorem isParameterName_iff (p : Parameter) {name : String} :
    IsParameterName name ↔ name ≠ "" ∧ p.check name = .ok () := by
  rw [check_eq_ok, isReserved_eq_false]
  exact ⟨fun h => ⟨h.nonempty, h.head, h.keyword⟩, fun h => ⟨h.1, h.2.1, h.2.2⟩⟩

theorem deduce_of_receiver {p : Parameter} {d : Dictionary} {rawName type : String}
    {used : UsedNames} (h : rawName.toLower = receiverName) :
    p.deduce d rawName type used = .ok rawName used := by
  rw [deduce, if_pos h]
  rfl

theorem deduce_of_parse {p : Parameter} {d : Dictionary} {rawName type : String}
    {used : UsedNames} {t : FieldType} (h : rawName.toLower ≠ receiverName)
    (ht : FieldType.parse type = .ok t) :
    p.deduce d rawName type used =
      if d.wish t = "" then .error (.emptyName p.slot p.method) used
      else match p.check (d.wish t) with
        | .ok () => .ok (used.claim (d.wish t)).1 (used.claim (d.wish t)).2
        | .error e => .error e used := by
  rw [deduce, if_neg h, ht]
  show (if (d.wish t).isEmpty = true then _ else _ : NamesM String) used = _
  simp only [String.isEmpty_iff]
  by_cases hempty : d.wish t = ""
  · rw [if_pos hempty, if_pos hempty]
    rfl
  · rw [if_neg hempty, if_neg hempty]
    show ((liftM (p.check (d.wish t)) : NamesM Unit) >>= fun _ =>
      modifyGet fun u => u.claim (d.wish t)) used = _
    cases p.check (d.wish t) <;> rfl

theorem deduce_of_bad_type {p : Parameter} {d : Dictionary} {rawName type : String}
    {used : UsedNames} {e : Fault} (h : rawName.toLower ≠ receiverName)
    (ht : FieldType.parse type = .error e) : p.deduce d rawName type used = .error e used := by
  rw [deduce, if_neg h, ht]
  rfl

/-- A name is deduced in two ways: that of a receiver is kept and takes nothing, and any other is
claimed for the wish, if a parameter can be called that. -/
theorem deduce_eq_ok_iff {p : Parameter} {d : Dictionary} {rawName type name : String}
    {used used' : UsedNames} : p.deduce d rawName type used = .ok name used' ↔
      (rawName.toLower = receiverName ∧ name = rawName ∧ used' = used) ∨
        (rawName.toLower ≠ receiverName ∧ ∃ t, FieldType.parse type = .ok t ∧
          IsParameterName (d.wish t) ∧ used.claim (d.wish t) = (name, used')) := by
  by_cases hreceiver : rawName.toLower = receiverName
  · rw [deduce_of_receiver hreceiver, EStateM.Result.ok.injEq]
    simp [hreceiver, eq_comm]
  · simp only [hreceiver, false_and, false_or, ne_eq, not_false_eq_true, true_and]
    cases ht : FieldType.parse type with
    | error e => simp [deduce_of_bad_type hreceiver ht]
    | ok t =>
      rw [deduce_of_parse hreceiver ht]
      simp only [Except.ok.injEq, exists_eq_left', p.isParameterName_iff]
      split
      · rename_i hempty
        simp [hempty]
      · rename_i hne
        cases hcheck : p.check (d.wish t) <;> simp [hne, Prod.ext_iff]

/-- A deduction that fails takes nothing: every reason to fail comes before the claim. -/
theorem deduce_eq_error {p : Parameter} {d : Dictionary} {rawName type : String}
    {used used' : UsedNames} {e : Fault} (h : p.deduce d rawName type used = .error e used') :
    used' = used := by
  by_cases hreceiver : rawName.toLower = receiverName
  · simp [deduce_of_receiver hreceiver] at h
  cases ht : FieldType.parse type with
  | error e' =>
    rw [deduce_of_bad_type hreceiver ht] at h
    exact (EStateM.Result.error.inj h).2.symm
  | ok t =>
    rw [deduce_of_parse hreceiver ht] at h
    split at h
    · exact (EStateM.Result.error.inj h).2.symm
    · split at h
      · simp at h
      · exact (EStateM.Result.error.inj h).2.symm

/-- A name that is deduced keeps the name of a receiver and takes nothing, or it is new and is
taken. -/
theorem deduce_eq_ok {p : Parameter} {d : Dictionary} {rawName type name : String}
    {used used' : UsedNames} (h : p.deduce d rawName type used = .ok name used') :
    (rawName.toLower = receiverName ∧ name = rawName ∧ used' = used) ∨
      (rawName.toLower ≠ receiverName ∧ used.contains name = false ∧
        ∀ other, used'.contains other = true ↔ other = name ∨ used.contains other = true) := by
  refine (deduce_eq_ok_iff.mp h).imp_right fun ⟨hne, t, _, _, hclaim⟩ => ?_
  obtain ⟨rfl, rfl⟩ := Prod.mk.inj hclaim
  exact ⟨hne, used.contains_freeName _, fun _ => UsedNames.contains_claim⟩

end Parameter

namespace NamesM

variable {α : Type} {x : NamesM α} {used used' : UsedNames} {a : α}

theorem outcome_eq_ok : x.outcome used = .ok (a, used') ↔ x used = .ok a used' := by
  unfold outcome
  cases x used <;> simp

theorem eq_of_leaves (h : EStateM.Leaves a x) {made : α × UsedNames}
    (hmade : x.outcome used = .ok made) : made = (a, used) := by
  have hrun := outcome_eq_ok.mp hmade
  rw [Prod.ext_iff]
  exact ⟨h.returns _ _ _ hrun, (h.keeps _ _ _ hrun).symm⟩

end NamesM

end ClassRelabel
