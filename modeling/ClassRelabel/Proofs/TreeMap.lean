/-
Tables that entries are added to.

An entry that is only added where none is leaves those that are there: the first for a key wins, in
one step and along a list.
-/
import Std.Data.ExtTreeMap

namespace ClassRelabel

open Std (ExtTreeMap TransCmp LawfulEqCmp)

variable {α β : Type} {cmp : α → α → Ordering} [TransCmp cmp] [LawfulEqCmp cmp] [DecidableEq α]

/-- An entry that is there stays, whatever is added. -/
theorem getElem?_insertIfNew (t : ExtTreeMap α β cmp) (k a : α) (v : β) :
    (t.insertIfNew k v)[a]? = t[a]?.or (if k = a then some v else none) := by
  rw [ExtTreeMap.getElem?_insertIfNew]
  by_cases hk : k = a
  · subst hk
    cases ht : t[k]? with
    | none =>
      have hnot : k ∉ t := by simp [ExtTreeMap.mem_iff_isSome_getElem?, ht]
      simp [hnot]
    | some w =>
      have hmem : k ∈ t := by simp [ExtTreeMap.mem_iff_isSome_getElem?, ht]
      simp [hmem]
  · simp [hk]

/-- Of the entries that are added for a key, the first is found, if none was there. -/
theorem getElem?_foldl_insertIfNew (l : List (α × β)) (t : ExtTreeMap α β cmp) (k : α) :
    (l.foldl (fun t f => t.insertIfNew f.1 f.2) t)[k]? =
      t[k]?.or ((l.find? (·.1 = k)).map Prod.snd) := by
  induction l generalizing t with
  | nil => simp
  | cons f l ih =>
    rw [List.foldl_cons, ih, getElem?_insertIfNew, Option.or_assoc, List.find?_cons]
    by_cases hk : f.1 = k
    · simp [hk]
    · simp [hk]

/-- The entry that is found among those that a test of the key lets through. -/
theorem find?_filter_toList (t : ExtTreeMap α β cmp) (test : α → Bool) (k : α) :
    ((t.toList.filter fun f => test f.1).find? (·.1 = k)).map Prod.snd =
      if test k then t[k]? else none := by
  cases hfind : (t.toList.filter fun f => test f.1).find? (·.1 = k) with
  | none =>
    rw [List.find?_eq_none] at hfind
    split
    · rename_i htest
      cases hk : t[k]? with
      | none => rfl
      | some e =>
        have hmem : (k, e) ∈ t.toList := ExtTreeMap.mem_toList_iff_getElem?_eq_some.mpr hk
        have hnot := hfind (k, e) (List.mem_filter.mpr ⟨hmem, htest⟩)
        simp at hnot
    · rfl
  | some f =>
    have hkey : f.1 = k := by simpa using List.find?_some hfind
    obtain ⟨hmem, htest⟩ := List.mem_filter.mp (List.mem_of_find?_eq_some hfind)
    subst hkey
    rw [if_pos htest, Option.map_some]
    exact (ExtTreeMap.mem_toList_iff_getElem?_eq_some.mp hmem).symm

end ClassRelabel
