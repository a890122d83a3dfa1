/-
A signature has one spelling.

Every reader takes exactly the characters that its tree is spelled by, so a signature that is parsed
and spelled again is the same text (`toString_of_parse`).  The three readers of references call each
other with less fuel, and the induction is on the fuel.
-/
import ClassRelabel.Proofs.Signature.Spelling

namespace ClassRelabel
namespace Signature

theorem toChars_of_name? {cs rest : List Char} {name : String} (h : name? cs = some (name, rest)) :
    cs = name.toList ++ rest := by
  unfold name? at h
  dsimp only at h
  split at h
  · simp at h
  · split at h
    · simp at h
    · obtain ⟨rfl, rfl⟩ := Prod.mk.inj (Option.some.inj h)
      rw [String.toList_ofList, List.takeWhile_append_dropWhile]

/-! ## References -/

mutual

theorem toChars_of_reference? : ∀ (fuel : Nat) {cs rest : List Char} {t : Reference},
    reference? fuel cs = some (t, rest) → cs = t.toChars ++ rest
  | 0, _, _, _, h => by simp [reference?] at h
  | fuel + 1, cs, rest, t, h => by
    unfold reference? at h
    split at h
    · simp at h
    · rename_i hfuel
      cases hfuel
      obtain ⟨⟨name, after⟩, hname, h⟩ := Option.bind_eq_some_iff.mp h
      obtain ⟨⟨suffixes, rest'⟩, hsuffixes, h⟩ := Option.bind_eq_some_iff.mp h
      obtain ⟨rfl, rfl⟩ := Prod.mk.inj (Option.some.inj h)
      simp only [Reference.toChars, List.cons_append, List.append_assoc, List.nil_append]
      rw [toChars_of_name? hname, toChars_of_suffixes? fuel hsuffixes]
    · split at h
      · rename_i hdrop
        obtain ⟨rfl, rfl⟩ := Prod.mk.inj (Option.some.inj h)
        simp only [Reference.toChars, String.toList_ofList, List.cons_append, List.append_assoc,
          List.nil_append]
        rw [← Text.eq_append_of_dropWhile hdrop]
      · simp at h
    · rename_i hfuel
      cases hfuel
      split at h
      · obtain ⟨rfl, rfl⟩ := Prod.mk.inj (Option.some.inj h)
        rfl
      · obtain ⟨⟨element, rest'⟩, helement, h⟩ := Option.bind_eq_some_iff.mp h
        obtain ⟨rfl, rfl⟩ := Prod.mk.inj (Option.some.inj h)
        rw [Reference.toChars, List.cons_append, ← toChars_of_reference? fuel helement]
    · simp at h

theorem toChars_of_suffixes? : ∀ (fuel : Nat) {cs rest : List Char} {ss : List Suffix},
    suffixes? fuel cs = some (ss, rest) → cs = suffixesToChars ss ++ ';' :: rest
  | 0, _, _, _, h => by simp [suffixes?] at h
  | fuel + 1, cs, rest, ss, h => by
    unfold suffixes? at h
    split at h
    · simp at h
    · obtain ⟨rfl, rfl⟩ := Prod.mk.inj (Option.some.inj h)
      rfl
    · rename_i hfuel
      cases hfuel
      obtain ⟨⟨list, after⟩, hlist, h⟩ := Option.bind_eq_some_iff.mp h
      obtain ⟨⟨suffixes, rest'⟩, hsuffixes, h⟩ := Option.bind_eq_some_iff.mp h
      obtain ⟨rfl, rfl⟩ := Prod.mk.inj (Option.some.inj h)
      simp only [suffixesToChars, Suffix.toChars, List.cons_append, List.append_assoc,
        List.nil_append]
      rw [toChars_of_arguments? fuel hlist, toChars_of_suffixes? fuel hsuffixes]
    · rename_i hfuel
      cases hfuel
      obtain ⟨⟨name, after⟩, hname, h⟩ := Option.bind_eq_some_iff.mp h
      obtain ⟨⟨suffixes, rest'⟩, hsuffixes, h⟩ := Option.bind_eq_some_iff.mp h
      obtain ⟨rfl, rfl⟩ := Prod.mk.inj (Option.some.inj h)
      simp only [suffixesToChars, Suffix.toChars, List.cons_append, List.append_assoc]
      rw [toChars_of_name? hname, toChars_of_suffixes? fuel hsuffixes]
    · simp at h

theorem toChars_of_arguments? : ∀ (fuel : Nat) {cs rest : List Char} {as : List Argument},
    arguments? fuel cs = some (as, rest) → cs = argumentsToChars as ++ '>' :: rest
  | 0, _, _, _, h => by simp [arguments?] at h
  | fuel + 1, cs, rest, as, h => by
    unfold arguments? at h
    split at h
    · simp at h
    · obtain ⟨rfl, rfl⟩ := Prod.mk.inj (Option.some.inj h)
      rfl
    · rename_i hfuel
      cases hfuel
      obtain ⟨⟨list, rest'⟩, hlist, h⟩ := Option.bind_eq_some_iff.mp h
      obtain ⟨rfl, rfl⟩ := Prod.mk.inj (Option.some.inj h)
      rw [toChars_of_arguments? fuel hlist]
      rfl
    · rename_i hfuel
      cases hfuel
      obtain ⟨⟨bound, after⟩, hbound, h⟩ := Option.bind_eq_some_iff.mp h
      obtain ⟨⟨list, rest'⟩, hlist, h⟩ := Option.bind_eq_some_iff.mp h
      obtain ⟨rfl, rfl⟩ := Prod.mk.inj (Option.some.inj h)
      simp only [argumentsToChars, Argument.toChars, List.cons_append, List.append_assoc]
      rw [toChars_of_reference? fuel hbound, toChars_of_arguments? fuel hlist]
    · rename_i hfuel
      cases hfuel
      obtain ⟨⟨bound, after⟩, hbound, h⟩ := Option.bind_eq_some_iff.mp h
      obtain ⟨⟨list, rest'⟩, hlist, h⟩ := Option.bind_eq_some_iff.mp h
      obtain ⟨rfl, rfl⟩ := Prod.mk.inj (Option.some.inj h)
      simp only [argumentsToChars, Argument.toChars, List.cons_append, List.append_assoc]
      rw [toChars_of_reference? fuel hbound, toChars_of_arguments? fuel hlist]
    · rename_i hfuel _ _ _ _
      cases hfuel
      obtain ⟨⟨type, after⟩, htype, h⟩ := Option.bind_eq_some_iff.mp h
      obtain ⟨⟨list, rest'⟩, hlist, h⟩ := Option.bind_eq_some_iff.mp h
      obtain ⟨rfl, rfl⟩ := Prod.mk.inj (Option.some.inj h)
      rw [argumentsToChars, Argument.toChars, List.append_assoc, ← toChars_of_arguments? fuel hlist,
        ← toChars_of_reference? fuel htype]

end

/-! ## Type parameters -/

theorem toChars_of_bound? {cs rest : List Char} {bound : Option Reference}
    (h : bound? cs = some (bound, rest)) : cs = (bound.map Reference.toChars).getD [] ++ rest := by
  unfold bound? at h
  split at h
  · simp at h
  · split at h
    · obtain ⟨⟨t, rest'⟩, ht, h⟩ := Option.map_eq_some_iff.mp h
      obtain ⟨rfl, rfl⟩ := Prod.mk.inj h
      exact toChars_of_reference? _ ht
    · obtain ⟨rfl, rfl⟩ := Prod.mk.inj (Option.some.inj h)
      rfl

theorem toChars_of_bounds? {fuel : Nat} {cs rest : List Char} {bounds : List (Option Reference)}
    (h : bounds? fuel cs = some (bounds, rest)) : cs = bounds.flatMap boundToChars ++ rest := by
  induction fuel generalizing cs bounds with
  | zero => simp [bounds?] at h
  | succ fuel ih =>
    unfold bounds? at h
    split at h
    · simp at h
    · simp at h
    · rename_i hfuel
      cases hfuel
      obtain ⟨⟨bound, after⟩, hbound, h⟩ := Option.bind_eq_some_iff.mp h
      obtain ⟨⟨others, rest'⟩, hothers, h⟩ := Option.bind_eq_some_iff.mp h
      obtain ⟨rfl, rfl⟩ := Prod.mk.inj (Option.some.inj h)
      rw [List.flatMap_cons, boundToChars, List.append_assoc, List.cons_append, ← ih hothers,
        ← toChars_of_bound? hbound]
    · obtain ⟨rfl, rfl⟩ := Prod.mk.inj (Option.some.inj h)
      rfl

theorem toChars_of_parameters? {fuel : Nat} {cs rest : List Char} {list : List Parameter}
    (h : parameters? fuel cs = some (list, rest)) :
    cs = list.flatMap Parameter.toChars ++ '>' :: rest := by
  induction fuel generalizing cs list with
  | zero => simp [parameters?] at h
  | succ fuel ih =>
    unfold parameters? at h
    split at h
    · simp at h
    · simp at h
    · obtain ⟨rfl, rfl⟩ := Prod.mk.inj (Option.some.inj h)
      rfl
    · rename_i hfuel _ _
      cases hfuel
      split at h
      · simp at h
      · rename_i hdrop
        obtain ⟨⟨first, after⟩, hfirst, h⟩ := Option.bind_eq_some_iff.mp h
        obtain ⟨⟨others, after'⟩, hothers, h⟩ := Option.bind_eq_some_iff.mp h
        obtain ⟨⟨more, rest'⟩, hmore, h⟩ := Option.bind_eq_some_iff.mp h
        obtain ⟨rfl, rfl⟩ := Prod.mk.inj (Option.some.inj h)
        simp only [List.flatMap_cons, Parameter.toChars, boundToChars, String.toList_ofList,
          List.append_assoc, List.cons_append]
        rw [← ih hmore, ← toChars_of_bounds? hothers, ← toChars_of_bound? hfirst,
          ← Text.eq_append_of_dropWhile hdrop]

/-! ## Signatures -/

theorem toChars_of_items? {fuel : Nat} {cs : List Char} {items : List Item}
    (h : items? fuel cs = some items) : cs = items.flatMap Item.toChars := by
  induction fuel generalizing cs items with
  | zero =>
    cases cs with
    | nil =>
      obtain rfl := Option.some.inj h
      rfl
    | cons => simp [items?] at h
  | succ fuel ih =>
    unfold items? at h
    split at h
    · obtain rfl := Option.some.inj h
      rfl
    · simp at h
    · rename_i hfuel
      cases hfuel
      split at h
      · obtain ⟨others, hothers, rfl⟩ := Option.map_eq_some_iff.mp h
        rw [List.flatMap_cons, ← ih hothers]
        rfl
      · obtain ⟨⟨type, rest⟩, htype, h⟩ := Option.bind_eq_some_iff.mp h
        obtain ⟨others, hothers, h⟩ := Option.bind_eq_some_iff.mp h
        obtain rfl := Option.some.inj h
        rw [List.flatMap_cons, ← ih hothers, Item.toChars, ← toChars_of_reference? _ htype]

theorem toChars_of_ofChars? {cs : List Char} {s : Signature} (h : ofChars? cs = some s) :
    s.toChars = cs := by
  unfold ofChars? at h
  split at h
  · simp at h
  · obtain ⟨⟨parameters, rest⟩, hparameters, h⟩ := Option.bind_eq_some_iff.mp h
    obtain ⟨items, hitems, h⟩ := Option.bind_eq_some_iff.mp h
    obtain rfl := Option.some.inj h
    simp only [toChars, parametersToChars, List.cons_append, List.append_assoc, List.nil_append]
    rw [toChars_of_parameters? hparameters, toChars_of_items? hitems]
  · obtain ⟨items, hitems, h⟩ := Option.bind_eq_some_iff.mp h
    obtain rfl := Option.some.inj h
    exact (toChars_of_items? hitems).symm

/-- A signature that is parsed is spelled as it was. -/
theorem toString_of_parse {text : String} {s : Signature} (h : parse text = .ok s) :
    toString s = text := by
  unfold parse at h
  split at h
  · rename_i s' hchars
    obtain rfl := Except.ok.inj h
    show String.ofList s'.toChars = text
    rw [toChars_of_ofChars? hchars, String.ofList_toList]
  · simp at h

end Signature
end ClassRelabel
