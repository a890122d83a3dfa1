/-
Cutting a text at the first or the last of a character.

A cut is determined by what stands on one side of the character: no other one before the first,
no other one after the last.
-/
import ClassRelabel.Text.Split

namespace ClassRelabel
namespace Text

variable {sep : Char} {cs before after : List Char}

theorem all_ne (h : sep ∉ cs) : ∀ c ∈ cs, (c != sep) = true := fun _ hc =>
  bne_iff_ne.mpr fun heq => h (heq ▸ hc)

/-- What is read up to a character is what stands in front of its first occurrence. -/
theorem takeWhile_append (h : sep ∉ before) (after : List Char) :
    (before ++ sep :: after).takeWhile (· != sep) = before := by
  rw [List.takeWhile_append_of_pos (all_ne h)]
  simp

theorem dropWhile_append (h : sep ∉ before) (after : List Char) :
    (before ++ sep :: after).dropWhile (· != sep) = sep :: after := by
  rw [List.dropWhile_append_of_pos (all_ne h)]
  simp

theorem splitFirst?_append (h : sep ∉ before) :
    splitFirst? sep (before ++ sep :: after) = some (before, after) := by
  rw [splitFirst?, takeWhile_append h, dropWhile_append h]

theorem splitFirst?_of_notMem (h : sep ∉ cs) : splitFirst? sep cs = none := by
  have hdrop : (cs ++ []).dropWhile (· != sep) = [].dropWhile (· != sep) :=
    List.dropWhile_append_of_pos (all_ne h)
  rw [List.append_nil, List.dropWhile_nil] at hdrop
  rw [splitFirst?, hdrop]

theorem splitFirst?_eq_none : splitFirst? sep cs = none ↔ sep ∉ cs := by
  refine ⟨fun h hmem => ?_, splitFirst?_of_notMem⟩
  obtain ⟨first, rest, rfl, hfirst⟩ := List.eq_append_cons_of_mem hmem
  rw [splitFirst?_append hfirst] at h
  simp at h

theorem splitFirst?_eq_some :
    splitFirst? sep cs = some (before, after) ↔ cs = before ++ sep :: after ∧ sep ∉ before := by
  constructor
  · intro h
    by_cases hmem : sep ∈ cs
    · obtain ⟨first, rest, rfl, hfirst⟩ := List.eq_append_cons_of_mem hmem
      rw [splitFirst?_append hfirst] at h
      obtain ⟨rfl, rfl⟩ := Prod.mk.inj (Option.some.inj h)
      exact ⟨rfl, hfirst⟩
    · rw [splitFirst?_of_notMem hmem] at h
      simp at h
  · rintro ⟨rfl, hbefore⟩
    exact splitFirst?_append hbefore

/-- What a search for a character stops at is the character. -/
theorem eq_append_of_dropWhile {c : Char} (h : cs.dropWhile (· != sep) = c :: after) :
    cs = cs.takeWhile (· != sep) ++ sep :: after := by
  have hsplit : splitFirst? sep cs = some (cs.takeWhile (· != sep), after) := by rw [splitFirst?, h]
  exact (splitFirst?_eq_some.mp hsplit).1

theorem splitLast?_eq_none : splitLast? sep cs = none ↔ sep ∉ cs := by
  rw [splitLast?, Option.map_eq_none_iff, splitFirst?_eq_none, List.mem_reverse]

theorem splitLast?_eq_some :
    splitLast? sep cs = some (before, after) ↔ cs = before ++ sep :: after ∧ sep ∉ after := by
  have hcut : cs = before ++ sep :: after ↔ cs.reverse = after.reverse ++ sep :: before.reverse := by
    rw [← List.reverse_inj]
    simp
  have hmem : sep ∉ after ↔ sep ∉ after.reverse := by rw [List.mem_reverse]
  rw [hcut, hmem, ← splitFirst?_eq_some, splitLast?, Option.map_eq_some_iff]
  constructor
  · rintro ⟨⟨a, b⟩, h, heq⟩
    obtain ⟨rfl, rfl⟩ := Prod.mk.inj heq
    rw [h, List.reverse_reverse, List.reverse_reverse]
  · intro h
    exact ⟨_, h, by simp⟩

/-- What follows the last of a character, or all of the text. -/
theorem afterLast_append (h : sep ∉ after) : afterLast sep (before ++ sep :: after) = after := by
  rw [afterLast, splitLast?_eq_some.mpr ⟨rfl, h⟩]

theorem afterLast_of_notMem (h : sep ∉ cs) : afterLast sep cs = cs := by
  rw [afterLast, splitLast?_eq_none.mpr h]

end Text
end ClassRelabel
