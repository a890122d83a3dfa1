/-
Signatures are read as the trees they spell.

The readers stop at certain characters: a name ends where a bracket, a dot or a semicolon stands,
and a bound is there if a type begins behind the colon.  A tree is `Valid` when its names hold no
character that ends them and no bound is left out where the text behind it could be taken for one.
The fuel of the readers counts what is left to read, so each statement bounds it by the length of
the spelling, and `parse_toString` puts them together.
-/
import ClassRelabel.Proofs.Text.Split
import ClassRelabel.Signature

namespace ClassRelabel
namespace Signature

/-! ## Valid trees -/

/-- A segment of a class name: some characters, none of which ends it. -/
def IsSegment (name : String) : Prop :=
  name.toList ≠ [] ∧ ∀ c ∈ name.toList, endsName c = false

mutual

def Reference.Valid : Reference → Prop
  | .object name suffixes => IsSegment name ∧ ValidSuffixes suffixes
  | .variable name => ';' ∉ name.toList
  | .primitives code => isPrimitive code = true
  | .array element => element.Valid

def ValidSuffixes : List Suffix → Prop
  | [] => True
  | .arguments list :: rest => ValidArguments list ∧ ValidSuffixes rest
  | .nested name :: rest => IsSegment name ∧ ValidSuffixes rest

def ValidArguments : List Argument → Prop
  | [] => True
  | .any :: rest => ValidArguments rest
  | .upper bound :: rest => bound.Valid ∧ ValidArguments rest
  | .lower bound :: rest => bound.Valid ∧ ValidArguments rest
  | .exact type :: rest => type.Valid ∧ ValidArguments rest

end

/-- Only the first bound may be left out, and only in front of another one. -/
structure Parameter.Valid (p : Parameter) : Prop where
  name_ne_nil : p.name.toList ≠ []
  name : ':' ∉ p.name.toList ∧ '>' ∉ p.name.toList
  first : ∀ t, p.first = some t → t.Valid
  others : ∀ bound ∈ p.others, ∃ t, bound = some t ∧ t.Valid
  followed : p.first = none → p.others ≠ []

def Item.Valid : Item → Prop
  | .mark c => isMark c = true
  | .type t => t.Valid

structure Valid (s : Signature) : Prop where
  parameters : ∀ list, s.parameters = some list → ∀ p ∈ list, p.Valid
  items : ∀ i ∈ s.items, i.Valid
  nonempty : s.parameters = none → s.items ≠ []

/-! ## Names -/

theorem name?_append {name : String} {c : Char} (hname : IsSegment name) (hc : endsName c = true)
    (rest : List Char) : name? (name.toList ++ c :: rest) = some (name, c :: rest) := by
  have hall : ∀ c ∈ name.toList, (!endsName c) = true := fun c hc => by simp [hname.2 c hc]
  unfold name?
  rw [List.takeWhile_append_of_pos hall, List.dropWhile_append_of_pos hall]
  simp [hc, hname.1]

/-! ## References -/

theorem toChars_eq_cons : ∀ t : Reference,
    ∃ c cs, t.toChars = c :: cs ∧ startsReference (c :: cs) = true
  | .object _ _ => ⟨'L', _, rfl, rfl⟩
  | .variable _ => ⟨'T', _, rfl, rfl⟩
  | .primitives _ => ⟨'[', _, rfl, rfl⟩
  | .array _ => ⟨'[', _, rfl, rfl⟩

/-- A segment ends where the suffixes behind it begin. -/
theorem name?_suffixes {name : String} (hname : IsSegment name) (ss : List Suffix)
    (rest : List Char) : name? (name.toList ++ (suffixesToChars ss ++ ';' :: rest)) =
      some (name, suffixesToChars ss ++ ';' :: rest) := by
  match ss with
  | [] => exact name?_append hname rfl _
  | .arguments _ :: _ => exact name?_append hname rfl _
  | .nested _ :: _ => exact name?_append hname rfl _

theorem startsReference_append (t : Reference) (rest : List Char) :
    startsReference (t.toChars ++ rest) = true := by
  obtain ⟨c, cs, ht, hstarts⟩ := toChars_eq_cons t
  rw [ht]
  exact hstarts

theorem eq_of_startsReference {c : Char} {cs : List Char} (h : startsReference (c :: cs) = true) :
    c = 'L' ∨ c = 'T' ∨ c = '[' := by
  simpa [startsReference, or_assoc] using h

/-- A character with which a type begins is neither a mark nor the code of a primitive. -/
theorem isMark_of_startsReference {c : Char} {cs : List Char}
    (h : startsReference (c :: cs) = true) : isMark c = false := by
  rcases eq_of_startsReference h with rfl | rfl | rfl <;> decide

theorem isPrimitive_of_startsReference {c : Char} {cs : List Char}
    (h : startsReference (c :: cs) = true) : isPrimitive c = false := by
  rcases eq_of_startsReference h with rfl | rfl | rfl <;> decide

/-- A type argument that begins like a type is no wildcard. -/
theorem arguments?_of_startsReference {cs : List Char} (h : startsReference cs = true)
    (fuel : Nat) : arguments? (fuel + 1) cs = (do
      let (type, rest) ← reference? fuel cs
      let (list, rest) ← arguments? fuel rest
      return (.exact type :: list, rest)) := by
  cases cs with
  | nil => simp [startsReference] at h
  | cons c cs =>
    rcases eq_of_startsReference h with rfl | rfl | rfl <;> rw [arguments?] <;> simp

theorem reference?_array {cs : List Char} (h : startsReference cs = true) (fuel : Nat) :
    reference? (fuel + 1) ('[' :: cs) = (do
      let (element, rest) ← reference? fuel cs
      return (.array element, rest)) := by
  cases cs with
  | nil => simp [startsReference] at h
  | cons c cs => rw [reference?, isPrimitive_of_startsReference h]; rfl

mutual

/-- As much fuel as there are characters is enough to read a reference back. -/
theorem reference?_toChars : ∀ (t : Reference) (fuel : Nat) (rest : List Char), t.Valid →
    t.toChars.length ≤ fuel → reference? fuel (t.toChars ++ rest) = some (t, rest)
  | .object name suffixes, 0, _, _, hfuel => by simp [Reference.toChars] at hfuel
  | .variable name, 0, _, _, hfuel => by simp [Reference.toChars] at hfuel
  | .primitives code, 0, _, _, hfuel => by simp [Reference.toChars] at hfuel
  | .array element, 0, _, _, hfuel => by simp [Reference.toChars] at hfuel
  | .object name suffixes, fuel + 1, rest, hvalid, hfuel => by
    obtain ⟨hname, hsuffixes⟩ := hvalid
    simp only [Reference.toChars, List.length_cons, List.length_append, List.cons_append,
      List.length_nil] at hfuel
    have hrest := suffixes?_toChars suffixes fuel rest hsuffixes (by omega)
    simp only [Reference.toChars, List.cons_append, List.append_assoc, List.nil_append, reference?,
      name?_suffixes hname, hrest, Option.bind_eq_bind, Option.bind_some, Option.pure_def]
  | .variable name, fuel + 1, rest, hvalid, _ => by
    have hname : ';' ∉ name.toList := hvalid
    simp only [Reference.toChars, List.cons_append, List.append_assoc, List.nil_append, reference?,
      Text.takeWhile_append hname, Text.dropWhile_append hname, String.ofList_toList]
  | .primitives code, fuel + 1, rest, hvalid, _ => by
    have hcode : isPrimitive code = true := hvalid
    simp only [Reference.toChars, List.cons_append, List.nil_append, reference?, hcode, if_true]
  | .array element, fuel + 1, rest, hvalid, hfuel => by
    simp only [Reference.toChars, List.length_cons, Nat.add_le_add_iff_right] at hfuel
    rw [Reference.toChars, List.cons_append, reference?_array (startsReference_append element rest),
      reference?_toChars element fuel rest hvalid hfuel]
    rfl

theorem suffixes?_toChars : ∀ (ss : List Suffix) (fuel : Nat) (rest : List Char),
    ValidSuffixes ss → (suffixesToChars ss).length + 1 ≤ fuel →
    suffixes? fuel (suffixesToChars ss ++ ';' :: rest) = some (ss, rest)
  | _, 0, _, _, hfuel => by omega
  | [], fuel + 1, rest, _, _ => rfl
  | .arguments list :: ss, fuel + 1, rest, hvalid, hfuel => by
    obtain ⟨hlist, hss⟩ := hvalid
    simp only [suffixesToChars, Suffix.toChars, List.length_cons, List.length_append,
      List.length_nil] at hfuel
    have harguments := arguments?_toChars list fuel (suffixesToChars ss ++ ';' :: rest) hlist (by omega)
    have hrest := suffixes?_toChars ss fuel rest hss (by omega)
    simp only [suffixesToChars, Suffix.toChars, List.cons_append, List.append_assoc,
      List.nil_append, suffixes?, harguments, hrest, Option.bind_eq_bind, Option.bind_some,
      Option.pure_def]
  | .nested name :: ss, fuel + 1, rest, hvalid, hfuel => by
    obtain ⟨hname, hss⟩ := hvalid
    simp only [suffixesToChars, Suffix.toChars, List.length_cons, List.length_append] at hfuel
    have hrest := suffixes?_toChars ss fuel rest hss (by omega)
    simp only [suffixesToChars, Suffix.toChars, List.cons_append, List.append_assoc, suffixes?,
      name?_suffixes hname, hrest, Option.bind_eq_bind, Option.bind_some, Option.pure_def]

theorem arguments?_toChars : ∀ (as : List Argument) (fuel : Nat) (rest : List Char),
    ValidArguments as → (argumentsToChars as).length + 1 ≤ fuel →
    arguments? fuel (argumentsToChars as ++ '>' :: rest) = some (as, rest)
  | _, 0, _, _, hfuel => by omega
  | [], fuel + 1, rest, _, _ => rfl
  | .any :: as, fuel + 1, rest, hvalid, hfuel => by
    simp only [argumentsToChars, Argument.toChars, List.length_append, List.length_cons,
      List.length_nil] at hfuel
    have hrest := arguments?_toChars as fuel rest hvalid (by omega)
    simp only [argumentsToChars, Argument.toChars, List.cons_append, List.nil_append, arguments?,
      hrest, Option.bind_eq_bind, Option.bind_some, Option.pure_def]
  | .upper bound :: as, fuel + 1, rest, hvalid, hfuel => by
    simp only [argumentsToChars, Argument.toChars, List.length_append, List.length_cons] at hfuel
    have hbound := reference?_toChars bound fuel (argumentsToChars as ++ '>' :: rest) hvalid.1
      (by omega)
    have hrest := arguments?_toChars as fuel rest hvalid.2 (by omega)
    simp only [argumentsToChars, Argument.toChars, List.cons_append, List.append_assoc, arguments?,
      hbound, hrest, Option.bind_eq_bind, Option.bind_some, Option.pure_def]
  | .lower bound :: as, fuel + 1, rest, hvalid, hfuel => by
    simp only [argumentsToChars, Argument.toChars, List.length_append, List.length_cons] at hfuel
    have hbound := reference?_toChars bound fuel (argumentsToChars as ++ '>' :: rest) hvalid.1
      (by omega)
    have hrest := arguments?_toChars as fuel rest hvalid.2 (by omega)
    simp only [argumentsToChars, Argument.toChars, List.cons_append, List.append_assoc, arguments?,
      hbound, hrest, Option.bind_eq_bind, Option.bind_some, Option.pure_def]
  | .exact type :: as, fuel + 1, rest, hvalid, hfuel => by
    simp only [argumentsToChars, Argument.toChars, List.length_append] at hfuel
    have htype := reference?_toChars type fuel (argumentsToChars as ++ '>' :: rest) hvalid.1
      (by omega)
    have hpos : 0 < type.toChars.length := by
      obtain ⟨c, cs, htype, -⟩ := toChars_eq_cons type
      rw [htype, List.length_cons]
      omega
    have hrest := arguments?_toChars as fuel rest hvalid.2 (by omega)
    rw [argumentsToChars, Argument.toChars, List.append_assoc,
      arguments?_of_startsReference (startsReference_append type _), htype]
    simp only [hrest, Option.bind_eq_bind, Option.bind_some, Option.pure_def]

end

/-! ## Type parameters -/

theorem bound?_toChars {t : Reference} (ht : t.Valid) (rest : List Char) :
    bound? (t.toChars ++ rest) = some (some t, rest) := by
  have hstarts := startsReference_append t rest
  have hne : (t.toChars ++ rest).isEmpty = false := by
    obtain ⟨c, cs, hcs, -⟩ := toChars_eq_cons t
    rw [hcs]
    rfl
  have hread := reference?_toChars t ((t.toChars ++ rest).length + 1) rest ht (by
    rw [List.length_append]
    omega)
  unfold bound?
  rw [hne, hstarts, hread]
  rfl

/-- Bounds that are all there end in front of any character but a colon. -/
theorem bounds?_toChars {bounds : List (Option Reference)} {c : Char} {rest : List Char}
    {fuel : Nat} (hbounds : ∀ bound ∈ bounds, ∃ t, bound = some t ∧ t.Valid) (hc : c ≠ ':')
    (hfuel : (bounds.flatMap boundToChars).length + 1 ≤ fuel) :
    bounds? fuel (bounds.flatMap boundToChars ++ c :: rest) = some (bounds, c :: rest) := by
  induction bounds generalizing fuel with
  | nil =>
    obtain ⟨fuel, rfl⟩ : ∃ n, fuel = n + 1 := ⟨fuel - 1, by simp at hfuel; omega⟩
    rw [List.flatMap_nil, List.nil_append, bounds?]
    · simp
    · simpa using hc
  | cons bound bounds ih =>
    obtain ⟨fuel, rfl⟩ : ∃ n, fuel = n + 1 := ⟨fuel - 1, by omega⟩
    obtain ⟨⟨t, rfl, ht⟩, hrest⟩ := List.forall_mem_cons.mp hbounds
    simp only [List.flatMap_cons, boundToChars, Option.map_some, Option.getD_some,
      List.length_append, List.length_cons] at hfuel
    have hrest : bounds? fuel (bounds.flatMap boundToChars ++ c :: rest) = some (bounds, c :: rest) :=
      ih hrest (by omega)
    simp only [List.flatMap_cons, boundToChars, Option.map_some, Option.getD_some,
      List.cons_append, List.append_assoc, bounds?, bound?_toChars ht, hrest, Option.bind_eq_bind,
      Option.bind_some, Option.pure_def]

/-- Bounds end in front of the next type parameter and in front of the closing bracket. -/
theorem parameters_eq_cons {list : List Parameter} (h : ∀ p ∈ list, p.Valid) (rest : List Char) :
    ∃ c cs, list.flatMap Parameter.toChars ++ '>' :: rest = c :: cs ∧ c ≠ ':' := by
  cases list with
  | nil => exact ⟨'>', rest, rfl, by decide⟩
  | cons p list =>
    have hp := h p List.mem_cons_self
    obtain ⟨c, cs, hname⟩ := List.exists_cons_of_ne_nil hp.name_ne_nil
    have hc : c ≠ ':' := by
      rintro rfl
      exact hp.name.1 (by rw [hname]; exact List.mem_cons_self)
    simp only [List.flatMap_cons, Parameter.toChars, hname, List.cons_append, List.cons.injEq]
    exact ⟨c, _, ⟨rfl, rfl⟩, hc⟩

/-- The first bound may be left out, because another one follows it. -/
theorem bound?_first {p : Parameter} (hp : p.Valid) (rest : List Char) :
    bound? ((p.first.map Reference.toChars).getD [] ++ (p.others.flatMap boundToChars ++ rest)) =
      some (p.first, p.others.flatMap boundToChars ++ rest) := by
  cases hfirst : p.first with
  | some t => exact bound?_toChars (hp.first t hfirst) _
  | none =>
    obtain ⟨bound, others, hothers⟩ := List.exists_cons_of_ne_nil (hp.followed hfirst)
    rw [hothers, List.flatMap_cons, boundToChars]
    rfl

/-- A type parameter is read by its name, which no bracket and no colon begins. -/
theorem parameters?_name {name : String} (hne : name.toList ≠ [])
    (hname : ':' ∉ name.toList ∧ '>' ∉ name.toList) (fuel : Nat) (rest : List Char) :
    parameters? (fuel + 1) (name.toList ++ ':' :: rest) = (do
      let (first, rest) ← bound? rest
      let (others, rest) ← bounds? fuel rest
      let (parameters, rest) ← parameters? fuel rest
      return (⟨name, first, others⟩ :: parameters, rest)) := by
  have htake := Text.takeWhile_append hname.1 rest
  have hdrop := Text.dropWhile_append hname.1 rest
  obtain ⟨c, cs, hcs⟩ := List.exists_cons_of_ne_nil hne
  have hc : c ≠ '>' := by
    rintro rfl
    exact hname.2 (by rw [hcs]; exact List.mem_cons_self)
  have hlist : name = String.ofList (c :: cs) := by rw [← hcs, String.ofList_toList]
  rw [hcs, List.cons_append] at htake hdrop ⊢
  rw [parameters?]
  · simp only [htake, hdrop, hlist]
  · simp
  · simp [hc]

theorem parameters?_toChars {list : List Parameter} {fuel : Nat} (h : ∀ p ∈ list, p.Valid)
    (hfuel : (list.flatMap Parameter.toChars).length + 1 ≤ fuel) (rest : List Char) :
    parameters? fuel (list.flatMap Parameter.toChars ++ '>' :: rest) = some (list, rest) := by
  induction list generalizing fuel with
  | nil =>
    obtain ⟨fuel, rfl⟩ : ∃ n, fuel = n + 1 := ⟨fuel - 1, by omega⟩
    rfl
  | cons p list ih =>
    obtain ⟨fuel, rfl⟩ : ∃ n, fuel = n + 1 := ⟨fuel - 1, by omega⟩
    obtain ⟨hp, hlist⟩ := List.forall_mem_cons.mp h
    obtain ⟨c, cs, hcs, hc⟩ := parameters_eq_cons hlist rest
    simp only [List.flatMap_cons, Parameter.toChars, boundToChars, List.length_append,
      List.length_cons] at hfuel
    have hfirst := bound?_first hp (list.flatMap Parameter.toChars ++ '>' :: rest)
    have hothers : bounds? fuel (p.others.flatMap boundToChars ++ c :: cs) =
        some (p.others, c :: cs) := bounds?_toChars hp.others hc (by omega)
    rw [← hcs] at hothers
    have hrest : parameters? fuel (list.flatMap Parameter.toChars ++ '>' :: rest) =
        some (list, rest) := ih hlist (by omega)
    simp only [List.flatMap_cons, Parameter.toChars, boundToChars, List.append_assoc,
      List.cons_append, parameters?_name hp.name_ne_nil hp.name, hfirst, hothers, hrest,
      Option.bind_eq_bind, Option.bind_some, Option.pure_def]

/-! ## Whole signatures -/

theorem items?_toChars {items : List Item} {fuel : Nat} (h : ∀ i ∈ items, i.Valid)
    (hfuel : (items.flatMap Item.toChars).length ≤ fuel) :
    items? fuel (items.flatMap Item.toChars) = some items := by
  induction items generalizing fuel with
  | nil => rw [List.flatMap_nil, items?]
  | cons i items ih =>
    obtain ⟨hi, hitems⟩ := List.forall_mem_cons.mp h
    rw [List.flatMap_cons, List.length_append] at hfuel
    cases i with
    | mark c =>
      rw [Item.toChars, List.length_singleton] at hfuel
      obtain ⟨fuel, rfl⟩ : ∃ n, fuel = n + 1 := ⟨fuel - 1, by omega⟩
      have hc : isMark c = true := hi
      rw [List.flatMap_cons, Item.toChars, List.singleton_append, items?, if_pos hc,
        ih hitems (by omega)]
      rfl
    | type t =>
      obtain ⟨c, cs, ht, hstarts⟩ := toChars_eq_cons t
      have hc := isMark_of_startsReference hstarts
      rw [Item.toChars, ht, List.length_cons] at hfuel
      obtain ⟨fuel, rfl⟩ : ∃ n, fuel = n + 1 := ⟨fuel - 1, by omega⟩
      have hread := reference?_toChars t ((cs ++ items.flatMap Item.toChars).length + 2)
        (items.flatMap Item.toChars) hi (by
          rw [ht, List.length_cons, List.length_append]
          omega)
      have hrest : items? fuel (items.flatMap Item.toChars) = some items := ih hitems (by omega)
      rw [ht, List.cons_append] at hread
      rw [List.flatMap_cons, Item.toChars, ht, List.cons_append, items?, hc]
      simp only [hread, hrest, Bool.false_eq_true, if_false, Option.bind_eq_bind, Option.bind_some,
        Option.pure_def]

/-- Marks and types never begin with the bracket of type parameters. -/
theorem items_eq_cons {items : List Item} (h : ∀ i ∈ items, i.Valid) (hne : items ≠ []) :
    ∃ c cs, items.flatMap Item.toChars = c :: cs ∧ c ≠ '<' := by
  obtain ⟨i, items, rfl⟩ := List.exists_cons_of_ne_nil hne
  cases i with
  | mark c =>
    have hc : isMark c = true := h _ List.mem_cons_self
    refine ⟨c, _, rfl, ?_⟩
    rintro rfl
    revert hc
    decide
  | type t =>
    obtain ⟨c, cs, ht, hstarts⟩ := toChars_eq_cons t
    refine ⟨c, cs ++ items.flatMap Item.toChars, by rw [List.flatMap_cons, Item.toChars, ht]; rfl, ?_⟩
    rintro rfl
    simp [startsReference] at hstarts

theorem ofChars?_toChars {s : Signature} (h : s.Valid) : ofChars? s.toChars = some s := by
  obtain ⟨parameters, items⟩ := s
  have hitems := items?_toChars h.items (Nat.le_refl _)
  cases parameters with
  | none =>
    obtain ⟨c, cs, hcs, hc⟩ := items_eq_cons h.items (h.nonempty rfl)
    have hchars : toChars ⟨none, items⟩ = c :: cs := hcs
    rw [hcs] at hitems
    rw [hchars, ofChars?]
    · rw [hitems]
      rfl
    · simp
    · simpa using hc
  | some list =>
    have hlist : parameters?
        ((list.flatMap Parameter.toChars ++ '>' :: items.flatMap Item.toChars).length + 1)
        (list.flatMap Parameter.toChars ++ '>' :: items.flatMap Item.toChars) =
          some (list, items.flatMap Item.toChars) :=
      parameters?_toChars (h.parameters list rfl) (by rw [List.length_append]; omega) _
    have hchars : toChars ⟨some list, items⟩ =
        '<' :: (list.flatMap Parameter.toChars ++ '>' :: items.flatMap Item.toChars) := by
      simp [toChars, parametersToChars]
    rw [hchars, ofChars?, hlist]
    simp only [hitems, Option.bind_eq_bind, Option.bind_some, Option.pure_def]

theorem parse_toString {s : Signature} (h : s.Valid) : parse (toString s) = .ok s := by
  have hchars : (toString s).toList = s.toChars := String.toList_ofList
  rw [parse, hchars, ofChars?_toChars h]

end Signature
end ClassRelabel
