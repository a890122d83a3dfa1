/-
A descriptor has one spelling.

The type that is read off the front of a text is spelled by exactly the characters that were taken,
so a descriptor that is parsed and spelled again is the same text.
-/
import ClassRelabel.Descriptor
import ClassRelabel.Proofs.Effect
import ClassRelabel.Proofs.Text.Split

namespace ClassRelabel

theorem Primitive.code_of_ofCode? {c : Char} {p : Primitive} (h : ofCode? c = some p) :
    p.code = c := by
  unfold ofCode? at h
  split at h <;> cases h <;> rfl

theorem Element.toChars_of_ofFront? {cs rest : List Char} {e : Element}
    (h : ofFront? cs = some (e, rest)) : cs = e.toChars ++ rest := by
  unfold ofFront? at h
  split at h
  · simp at h
  · split at h
    · rename_i cs _ _ hdrop
      dsimp only at h
      split at h
      · obtain ⟨rfl, rfl⟩ := Prod.mk.inj (Option.some.inj h)
        simp only [toChars, String.toList_ofList, List.cons_append, List.append_assoc,
          List.nil_append]
        rw [← Text.eq_append_of_dropWhile hdrop]
      · simp at h
    · simp at h
  · obtain ⟨p, hp, h⟩ := Option.map_eq_some_iff.mp h
    obtain ⟨rfl, rfl⟩ := Prod.mk.inj h
    rw [toChars, Primitive.code_of_ofCode? hp, List.singleton_append]

namespace FieldType

/-- The brackets in front of a descriptor. -/
theorem takeWhile_bracket (cs : List Char) :
    cs.takeWhile (· == '[') = List.replicate (cs.takeWhile (· == '[')).length '[' :=
  List.eq_replicate_of_mem fun c hc => by
    simpa using List.all_eq_true.mp List.all_takeWhile c hc

theorem toChars_of_ofFront? {cs rest : List Char} {t : FieldType}
    (h : ofFront? cs = some (t, rest)) : cs = t.toChars ++ rest := by
  simp only [ofFront?, Option.bind_eq_bind, Option.bind_eq_some_iff] at h
  obtain ⟨⟨e, after⟩, he, h⟩ := h
  have hcs : cs = cs.takeWhile (· == '[') ++ (e.toChars ++ after) := by
    rw [← Element.toChars_of_ofFront? he, List.takeWhile_append_dropWhile]
  rw [takeWhile_bracket] at hcs
  dsimp only at h
  split at h
  · rename_i hzero
    obtain ⟨rfl, rfl⟩ := Prod.mk.inj (Option.some.inj h)
    rwa [hzero] at hcs
  · split at h
    · simp at h
    · split at h
      · rename_i hlt
        obtain ⟨rfl, rfl⟩ := Prod.mk.inj (Option.some.inj h)
        have hn : (UInt8.ofNat (cs.takeWhile (· == '[')).length).toNat =
            (cs.takeWhile (· == '[')).length := by
          rw [UInt8.toNat_ofNat']
          omega
        rw [toChars, hn, List.append_assoc]
        exact hcs
      · simp at h

theorem toString_of_parseResult {s : String} {t : FieldType} (h : parseResult s = .ok t) :
    toString t = s := by
  unfold parseResult at h
  split at h
  · rename_i t' hfront
    obtain rfl := Except.ok.inj h
    have hchars := toChars_of_ofFront? hfront
    rw [List.append_nil] at hchars
    show String.ofList t'.toChars = s
    rw [← hchars, String.ofList_toList]
  · simp at h

theorem toString_of_parse {s : String} {t : FieldType} (h : parse s = .ok t) : toString t = s := by
  obtain ⟨t', ht, h⟩ := Except.bind_eq_ok.mp h
  split at h
  · simp at h
  · obtain rfl := Except.ok.inj h
    exact toString_of_parseResult ht

end FieldType

namespace MethodType

theorem toChars_of_parameters? {cs rest : List Char} {ts : List FieldType}
    (h : parameters? cs = some (ts, rest)) : cs = ts.flatMap FieldType.toChars ++ ')' :: rest := by
  fun_induction parameters? cs generalizing ts with
  | case1 after =>
    obtain ⟨rfl, rfl⟩ := Prod.mk.inj (Option.some.inj h)
    rfl
  | case2 => simp at h
  | case3 => simp at h
  | case4 cs _ t after hfront _ _ ih =>
    obtain ⟨⟨others, rest'⟩, hothers, h⟩ := Option.map_eq_some_iff.mp h
    obtain ⟨rfl, rfl⟩ := Prod.mk.inj h
    rw [List.flatMap_cons, List.append_assoc, ← ih hothers, ← FieldType.toChars_of_ofFront? hfront]

/-- What a descriptor of a method is read from. -/
theorem exists_of_ofChars? {cs : List Char} {m : MethodType} (h : ofChars? cs = some m) :
    ∃ inner rest, cs = '(' :: inner ∧ parameters? inner = some (m.parameters, rest) ∧
      FieldType.ofFront? rest = some (m.result, []) := by
  unfold ofChars? at h
  split at h
  · rename_i inner
    obtain ⟨⟨parameters, rest⟩, hparameters, h⟩ := Option.bind_eq_some_iff.mp h
    obtain ⟨⟨result, after⟩, hresult, h⟩ := Option.bind_eq_some_iff.mp h
    split at h
    · rename_i hafter
      obtain ⟨rfl, rfl⟩ := Prod.mk.inj hafter
      obtain rfl := Option.some.inj h
      exact ⟨inner, rest, rfl, hparameters, hresult⟩
    · simp at h
  · simp at h

theorem toChars_of_ofChars? {cs : List Char} {m : MethodType} (h : ofChars? cs = some m) :
    m.toChars = cs := by
  obtain ⟨inner, rest, rfl, hparameters, hresult⟩ := exists_of_ofChars? h
  have hrest := FieldType.toChars_of_ofFront? hresult
  rw [List.append_nil] at hrest
  rw [toChars_of_parameters? hparameters, hrest]
  rfl

theorem toString_of_parse {s : String} {m : MethodType} (h : parse s = .ok m) :
    toString m = s := by
  unfold parse at h
  split at h
  · rename_i m' hchars
    obtain rfl := Except.ok.inj h
    show String.ofList m'.toChars = s
    rw [toChars_of_ofChars? hchars, String.ofList_toList]
  · simp at h

end MethodType
end ClassRelabel
