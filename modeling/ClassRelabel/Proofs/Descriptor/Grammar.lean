/-
The grammar of descriptors.

`FieldText`, `ResultText` and `MethodText` say which texts are descriptors, and `Valid` which types
have one.  A valid type is read back from its spelling, also with more text behind it, because its
own characters show where it ends: no name of a class holds the semicolon that closes it, and no
type begins with the parenthesis that closes the parameters.

`ReadsExactly` is what one asks of a reader of such a grammar, and `readsExactly_descriptors` says
it of the three readers.
-/
import ClassRelabel.Proofs.Descriptor.Spelling

namespace ClassRelabel

/-! ## Texts -/

/-- A name of a class as a descriptor can hold it. -/
def IsInternalName (name : String) : Prop :=
  name.toList ≠ [] ∧ ∀ c ∈ name.toList, c ∉ [';', '.', '[']

-- The characters are looked through one by one; there are too many to try all of them.
instance : DecidablePred IsInternalName := fun _ =>
  @instDecidableAnd _ _ inferInstance (List.decidableBAll _ _)

inductive ElementText : List Char → Prop
  | primitive {c : Char} (h : c ∈ ['Z', 'C', 'B', 'S', 'I', 'J', 'F', 'D']) : ElementText [c]
  | object {name : String} (h : IsInternalName name) : ElementText ('L' :: name.toList ++ [';'])

inductive FieldText : List Char → Prop
  | brackets {n : Nat} {element : List Char} (hn : n ≤ 255) (h : ElementText element) :
      FieldText (List.replicate n '[' ++ element)

inductive ResultText : List Char → Prop
  | void : ResultText ['V']
  | field {cs : List Char} (h : FieldText cs) : ResultText cs

inductive MethodText : List Char → Prop
  | parameters {parameters : List (List Char)} {result : List Char}
      (hparameters : ∀ p ∈ parameters, FieldText p) (hresult : ResultText result) :
      MethodText ('(' :: parameters.flatten ++ ')' :: result)

/-! ## Types -/

def Element.Valid : Element → Prop
  | .primitive type => type ≠ .void
  | .object name => IsInternalName name

namespace FieldType

/-- The type of a field or a parameter.  As a type with dimensions it is an array of its element,
which is none. -/
def Valid (t : FieldType) : Prop := t.element.Valid

def void : FieldType := ⟨.primitive .void, 0⟩

def ValidResult (t : FieldType) : Prop := t.Valid ∨ t = void

end FieldType

structure MethodType.Valid (m : MethodType) : Prop where
  parameters : ∀ t ∈ m.parameters, t.Valid
  result : m.result.ValidResult

/-- A reader accepts the texts of a grammar and reads them as the trees of the grammar that they
spell.  What it refuses it gives back in the fault. -/
structure ReadsExactly {α : Type} [ToString α] (parse : String → Except Fault α)
    (IsText : List Char → Prop) (IsTree : α → Prop) : Prop where
  accepted : ∀ s, (∃ t, parse s = .ok t) ↔ IsText s.toList
  spelled : ∀ s t, parse s = .ok t → IsTree t ∧ toString t = s
  read : ∀ t, IsTree t → parse (toString t) = .ok t
  refused : ∀ s, ¬IsText s.toList → parse s = .error (.descriptor s)

/-! ## Elements -/

namespace Element

/-- What a class name or the letter of any primitive, `V` included, spells. -/
def Readable (e : Element) : Prop := e.Valid ∨ e = .primitive .void

variable {e : Element} {cs rest : List Char}

theorem ofFront?_toChars (h : e.Readable) (rest : List Char) :
    ofFront? (e.toChars ++ rest) = some (e, rest) := by
  cases e with
  | primitive type => cases type <;> rfl
  | object name =>
    obtain ⟨hne, hchars⟩ : IsInternalName name := by simpa [Readable, Valid] using h
    have hsemicolon : ';' ∉ name.toList := fun hmem => hchars ';' hmem (by decide)
    have hname : isClassName name.toList = true := by
      rw [isClassName, Bool.and_eq_true, List.all_eq_true]
      refine ⟨by simpa using hne, fun c hc => ?_⟩
      have hc := hchars c hc
      simp only [List.mem_cons, List.not_mem_nil, or_false, not_or] at hc
      simp [hc]
    simp only [toChars, List.cons_append, List.append_assoc, List.nil_append, ofFront?,
      Text.takeWhile_append hsemicolon, Text.dropWhile_append hsemicolon, hname, if_true,
      String.ofList_toList]

theorem readable_of_ofFront? (h : ofFront? cs = some (e, rest)) : e.Readable := by
  unfold ofFront? at h
  split at h
  · simp at h
  · rename_i cs
    split at h
    · dsimp only at h
      split at h
      · rename_i hname
        obtain ⟨rfl, -⟩ := Prod.mk.inj (Option.some.inj h)
        rw [isClassName, Bool.and_eq_true, List.all_eq_true] at hname
        refine .inl ⟨by simpa using hname.1, fun c hc => ?_⟩
        rw [String.toList_ofList] at hc
        have hsemicolon : (c != ';') = true := List.all_eq_true.mp List.all_takeWhile c hc
        simpa [and_assoc] using And.intro hsemicolon (hname.2 c hc)
      · simp at h
    · simp at h
  · obtain ⟨p, -, h⟩ := Option.map_eq_some_iff.mp h
    obtain ⟨rfl, -⟩ := Prod.mk.inj h
    by_cases hvoid : p = .void
    · exact .inr (by rw [hvoid])
    · exact .inl hvoid

/-- No bracket and no parenthesis begins an element. -/
theorem toChars_eq_cons (e : Element) : ∃ c cs, e.toChars = c :: cs ∧ c ≠ '[' ∧ c ≠ ')' := by
  cases e with
  | primitive type => cases type <;> exact ⟨_, _, rfl, by decide, by decide⟩
  | object name => exact ⟨'L', _, rfl, by decide, by decide⟩

theorem text_iff : ElementText cs ↔ ∃ e : Element, e.Valid ∧ e.toChars = cs := by
  constructor
  · rintro (⟨h⟩ | ⟨h⟩)
    · rename_i c
      obtain ⟨p, hp, rfl⟩ : ∃ p : Primitive, p ≠ .void ∧ p.code = c := by
        simp only [List.mem_cons, List.not_mem_nil, or_false] at h
        rcases h with rfl | rfl | rfl | rfl | rfl | rfl | rfl | rfl
        · exact ⟨.boolean, by decide, rfl⟩
        · exact ⟨.char, by decide, rfl⟩
        · exact ⟨.byte, by decide, rfl⟩
        · exact ⟨.short, by decide, rfl⟩
        · exact ⟨.int, by decide, rfl⟩
        · exact ⟨.long, by decide, rfl⟩
        · exact ⟨.float, by decide, rfl⟩
        · exact ⟨.double, by decide, rfl⟩
      exact ⟨.primitive p, hp, rfl⟩
    · exact ⟨.object _, h, rfl⟩
  · rintro ⟨e, he, rfl⟩
    cases e with
    | primitive type =>
      refine .primitive ?_
      cases type <;> first | decide | exact absurd rfl he
    | object name => exact .object he

end Element

/-! ## Types of fields and results -/

namespace FieldType

variable {t : FieldType} {cs rest : List Char}

theorem toChars_eq_cons (t : FieldType) : ∃ c cs, t.toChars = c :: cs ∧ c ≠ ')' := by
  obtain ⟨c, cs, helement, -, hc⟩ := t.element.toChars_eq_cons
  rw [toChars, helement]
  cases t.dimensions.toNat with
  | zero => exact ⟨c, cs, rfl, hc⟩
  | succ n => exact ⟨'[', _, rfl, by decide⟩

/-- The brackets in front end where the element begins. -/
theorem span_brackets (n : Nat) (e : Element) (rest : List Char) :
    ((List.replicate n '[' ++ (e.toChars ++ rest)).takeWhile (· == '[')).length = n ∧
      (List.replicate n '[' ++ (e.toChars ++ rest)).dropWhile (· == '[') = e.toChars ++ rest := by
  have hbrackets : ∀ c ∈ List.replicate n '[', (c == '[') = true := by simp
  obtain ⟨c, cs, helement, hc, -⟩ := e.toChars_eq_cons
  rw [helement, List.takeWhile_append_of_pos hbrackets, List.dropWhile_append_of_pos hbrackets]
  simp [hc]

theorem readable_element (h : t.ValidResult) : t.element.Readable :=
  h.imp id fun ht => by rw [ht]; rfl

theorem ofFront?_toChars (h : t.ValidResult) (rest : List Char) :
    ofFront? (t.toChars ++ rest) = some (t, rest) := by
  have helement := Element.ofFront?_toChars (readable_element h) rest
  obtain ⟨hlength, hdrop⟩ := span_brackets t.dimensions.toNat t.element rest
  obtain ⟨element, dimensions⟩ := t
  simp only [ofFront?, toChars, List.append_assoc, hlength, hdrop, helement, Option.bind_eq_bind,
    Option.bind_some]
  by_cases hzero : dimensions.toNat = 0
  · have hdimensions : dimensions = 0 := UInt8.toNat_inj.mp hzero
    rw [if_pos hzero, hdimensions]
    rfl
  · have hvoid : element ≠ .primitive .void := by
      rintro rfl
      rcases h with h | h
      · exact h rfl
      · exact hzero (by rw [(FieldType.mk.inj h).2]; rfl)
    have hlt : dimensions.toNat < 256 := dimensions.toNat_lt
    rw [if_neg hzero, if_neg hvoid, if_pos hlt, UInt8.ofNat_toNat]
    rfl

theorem validResult_of_ofFront? (h : ofFront? cs = some (t, rest)) : t.ValidResult := by
  simp only [ofFront?, Option.bind_eq_bind, Option.bind_eq_some_iff] at h
  obtain ⟨⟨e, after⟩, he, h⟩ := h
  have hreadable := Element.readable_of_ofFront? he
  dsimp only at h
  split at h
  · obtain ⟨rfl, -⟩ := Prod.mk.inj (Option.some.inj h)
    exact hreadable.imp id fun hvoid => by rw [hvoid]; rfl
  · split at h
    · simp at h
    · rename_i hvoid
      split at h
      · obtain ⟨rfl, -⟩ := Prod.mk.inj (Option.some.inj h)
        exact .inl (hreadable.resolve_right hvoid)
      · simp at h

theorem isVoid_iff (h : t.ValidResult) : t.isVoid = false ↔ t.Valid := by
  constructor
  · intro hvoid
    refine h.resolve_right ?_
    rintro rfl
    exact absurd hvoid (by decide)
  · intro hvalid
    have hne : t.element ≠ .primitive .void := fun he => by
      rw [Valid, he] at hvalid
      exact hvalid rfl
    simp [isVoid, hne]

theorem text_iff : FieldText cs ↔ ∃ t : FieldType, t.Valid ∧ t.toChars = cs := by
  constructor
  · rintro ⟨hn, h⟩
    rename_i n element
    obtain ⟨e, he, rfl⟩ := Element.text_iff.mp h
    refine ⟨⟨e, UInt8.ofNat n⟩, he, ?_⟩
    rw [toChars, UInt8.toNat_ofNat', Nat.mod_eq_of_lt (by omega)]
  · rintro ⟨t, ht, rfl⟩
    have hlt := t.dimensions.toNat_lt
    exact .brackets (by omega) (Element.text_iff.mpr ⟨t.element, ht, rfl⟩)

theorem resultText_iff : ResultText cs ↔ ∃ t : FieldType, t.ValidResult ∧ t.toChars = cs := by
  constructor
  · rintro (_ | h)
    · exact ⟨void, .inr rfl, rfl⟩
    · obtain ⟨t, ht, rfl⟩ := text_iff.mp h
      exact ⟨t, .inl ht, rfl⟩
  · rintro ⟨t, ht | rfl, rfl⟩
    · exact .field (text_iff.mpr ⟨t, ht, rfl⟩)
    · exact .void

theorem toList_toString (t : FieldType) : (toString t).toList = t.toChars := String.toList_ofList

theorem parseResult_eq_ok {s : String} :
    parseResult s = .ok t ↔ t.ValidResult ∧ toString t = s := by
  constructor
  · intro h
    refine ⟨?_, toString_of_parseResult h⟩
    unfold parseResult at h
    split at h
    · rename_i hfront
      rw [← Except.ok.inj h]
      exact validResult_of_ofFront? hfront
    · simp at h
  · rintro ⟨ht, rfl⟩
    have hfront := ofFront?_toChars ht []
    rw [List.append_nil, ← toList_toString] at hfront
    rw [parseResult, hfront]

theorem parse_eq_ok {s : String} : parse s = .ok t ↔ t.Valid ∧ toString t = s := by
  rw [parse, Except.bind_eq_ok]
  constructor
  · rintro ⟨t', ht', h⟩
    split at h
    · simp at h
    · rename_i hvoid
      obtain rfl := Except.ok.inj h
      obtain ⟨hvalid, hs⟩ := parseResult_eq_ok.mp ht'
      exact ⟨(isVoid_iff hvalid).mp (by simpa using hvoid), hs⟩
  · rintro ⟨hvalid, hs⟩
    refine ⟨t, parseResult_eq_ok.mpr ⟨.inl hvalid, hs⟩, ?_⟩
    rw [(isVoid_iff (.inl hvalid)).mpr hvalid]
    rfl

theorem parseResult_eq_error {s : String} {e : Fault} (h : parseResult s = .error e) :
    e = .descriptor s := by
  unfold parseResult at h
  split at h
  · simp at h
  · exact (Except.error.inj h).symm

theorem parse_eq_error {s : String} {e : Fault} (h : parse s = .error e) : e = .descriptor s := by
  unfold parse at h
  cases hresult : parseResult s with
  | error e' =>
    rw [hresult] at h
    obtain rfl := Except.error.inj h
    exact parseResult_eq_error hresult
  | ok t =>
    simp only [hresult, bind, Except.bind] at h
    split at h
    · exact (Except.error.inj h).symm
    · simp at h

end FieldType

/-! ## Types of methods -/

namespace MethodType

variable {m : MethodType} {cs rest : List Char} {ts : List FieldType}

/-- In front of a type there is a parameter to read. -/
theorem parameters?_append {t : FieldType} (ht : t.Valid) (rest : List Char) :
    parameters? (t.toChars ++ rest) =
      (parameters? rest).map fun (ts, after) => (t :: ts, after) := by
  have hfront := FieldType.ofFront?_toChars (.inl ht) rest
  have hvoid := (FieldType.isVoid_iff (.inl ht)).mpr ht
  obtain ⟨c, cs, hcs, hc⟩ := t.toChars_eq_cons
  rw [hcs, List.cons_append] at hfront ⊢
  rw [parameters?.eq_def]
  split
  · rename_i heq
    exact absurd (List.cons.inj heq).1 hc
  · split
    · rename_i hnone
      rw [hfront] at hnone
      simp at hnone
    · rename_i hsome
      obtain ⟨rfl, rfl⟩ := Prod.mk.inj (Option.some.inj (hfront.symm.trans hsome))
      rw [hvoid]
      rfl

theorem parameters?_toChars (h : ∀ t ∈ ts, t.Valid) (rest : List Char) :
    parameters? (ts.flatMap FieldType.toChars ++ ')' :: rest) = some (ts, rest) := by
  induction ts with
  | nil => rw [List.flatMap_nil, List.nil_append, parameters?]
  | cons t ts ih =>
    obtain ⟨ht, hts⟩ := List.forall_mem_cons.mp h
    rw [List.flatMap_cons, List.append_assoc, parameters?_append ht, ih hts]
    rfl

theorem valid_of_parameters? (h : parameters? cs = some (ts, rest)) : ∀ t ∈ ts, t.Valid := by
  fun_induction parameters? cs generalizing ts rest with
  | case1 =>
    obtain ⟨rfl, -⟩ := Prod.mk.inj (Option.some.inj h)
    simp
  | case2 => simp at h
  | case3 => simp at h
  | case4 cs _ t after hfront hvoid _ ih =>
    obtain ⟨⟨ts', rest'⟩, htail, heq⟩ := Option.map_eq_some_iff.mp h
    obtain ⟨rfl, rfl⟩ := Prod.mk.inj heq
    have ht := (FieldType.isVoid_iff (FieldType.validResult_of_ofFront? hfront)).mp
      (by simpa using hvoid)
    exact List.forall_mem_cons.mpr ⟨ht, ih htail⟩

theorem ofChars?_toChars (h : m.Valid) : ofChars? m.toChars = some m := by
  have hparameters := parameters?_toChars h.parameters m.result.toChars
  have hresult := FieldType.ofFront?_toChars h.result []
  rw [List.append_nil] at hresult
  simp only [toChars, List.cons_append, ofChars?, hparameters, hresult, Option.bind_eq_bind,
    Option.bind_some]

theorem valid_of_ofChars? (h : ofChars? cs = some m) : m.Valid := by
  obtain ⟨_, _, -, hparameters, hresult⟩ := exists_of_ofChars? h
  exact ⟨valid_of_parameters? hparameters, FieldType.validResult_of_ofFront? hresult⟩

/-- Texts of parameters are spelled by types. -/
theorem exists_parameters {texts : List (List Char)} (h : ∀ p ∈ texts, FieldText p) :
    ∃ ts : List FieldType, (∀ t ∈ ts, t.Valid) ∧ ts.map FieldType.toChars = texts := by
  induction texts with
  | nil => exact ⟨[], by simp, rfl⟩
  | cons first others ih =>
    obtain ⟨hfirst, hothers⟩ := List.forall_mem_cons.mp h
    obtain ⟨t, ht, rfl⟩ := FieldType.text_iff.mp hfirst
    obtain ⟨ts, hts, rfl⟩ := ih hothers
    exact ⟨t :: ts, List.forall_mem_cons.mpr ⟨ht, hts⟩, rfl⟩

theorem text_iff : MethodText cs ↔ ∃ m : MethodType, m.Valid ∧ m.toChars = cs := by
  constructor
  · rintro ⟨hparameters, hresult⟩
    obtain ⟨parameters, hvalid, rfl⟩ := exists_parameters hparameters
    obtain ⟨result, hvalid', rfl⟩ := FieldType.resultText_iff.mp hresult
    exact ⟨⟨parameters, result⟩, ⟨hvalid, hvalid'⟩, by rw [toChars, List.flatMap_def]⟩
  · rintro ⟨m, ⟨hparameters, hresult⟩, rfl⟩
    rw [toChars, List.flatMap_def]
    refine .parameters ?_ (FieldType.resultText_iff.mpr ⟨m.result, hresult, rfl⟩)
    exact List.forall_mem_map.mpr fun t ht => FieldType.text_iff.mpr ⟨t, hparameters t ht, rfl⟩

theorem toList_toString (m : MethodType) : (toString m).toList = m.toChars := String.toList_ofList

theorem parse_eq_ok {s : String} : parse s = .ok m ↔ m.Valid ∧ toString m = s := by
  constructor
  · intro h
    refine ⟨?_, toString_of_parse h⟩
    unfold parse at h
    split at h
    · rename_i hchars
      rw [← Except.ok.inj h]
      exact valid_of_ofChars? hchars
    · simp at h
  · rintro ⟨hm, rfl⟩
    rw [parse, toList_toString, ofChars?_toChars hm]

theorem parse_eq_error {s : String} {e : Fault} (h : parse s = .error e) : e = .descriptor s := by
  unfold parse at h
  split at h
  · simp at h
  · exact (Except.error.inj h).symm

end MethodType

/-! ## The three readers -/

/-- A reader that succeeds on the spellings of trees alone is exact for the grammar of these
spellings. -/
theorem readsExactly_of_eq_ok {α : Type} [ToString α] {parse : String → Except Fault α}
    {IsText : List Char → Prop} {IsTree : α → Prop}
    (hok : ∀ s t, parse s = .ok t ↔ IsTree t ∧ toString t = s)
    (herror : ∀ s e, parse s = .error e → e = .descriptor s)
    (htext : ∀ cs, IsText cs ↔ ∃ t, IsTree t ∧ (toString t).toList = cs) :
    ReadsExactly parse IsText IsTree := by
  have haccepted : ∀ s, (∃ t, parse s = .ok t) ↔ IsText s.toList := fun s => by
    rw [htext]
    exact exists_congr fun t => by rw [hok, String.toList_inj]
  refine ⟨haccepted, fun s t => (hok s t).mp, fun t ht => (hok _ t).mpr ⟨ht, rfl⟩, fun s hs => ?_⟩
  cases h : parse s with
  | ok t => exact absurd ((haccepted s).mp ⟨t, h⟩) hs
  | error e => rw [herror s e h]

theorem FieldType.readsExactly_parse : ReadsExactly parse FieldText Valid :=
  readsExactly_of_eq_ok (fun _ _ => parse_eq_ok) (fun _ _ => parse_eq_error) fun _ => by
    simp only [toList_toString, text_iff]

theorem FieldType.readsExactly_parseResult : ReadsExactly parseResult ResultText ValidResult :=
  readsExactly_of_eq_ok (fun _ _ => parseResult_eq_ok) (fun _ _ => parseResult_eq_error) fun _ => by
    simp only [toList_toString, resultText_iff]

theorem MethodType.readsExactly_parse : ReadsExactly parse MethodText Valid :=
  readsExactly_of_eq_ok (fun _ _ => parse_eq_ok) (fun _ _ => parse_eq_error) fun _ => by
    simp only [toList_toString, text_iff]

/-- Descriptors of fields, of results and of methods are read exactly. -/
theorem readsExactly_descriptors :
    ReadsExactly FieldType.parse FieldText FieldType.Valid ∧
    ReadsExactly FieldType.parseResult ResultText FieldType.ValidResult ∧
    ReadsExactly MethodType.parse MethodText MethodType.Valid :=
  ⟨FieldType.readsExactly_parse, FieldType.readsExactly_parseResult, MethodType.readsExactly_parse⟩

end ClassRelabel
