/-
Names of parameters line up with the descriptor.

A method without a body is reported with one name for every parameter of its new descriptor, and
each is the name for the slot in which its parameter is passed: the name in the mappings, or what a
dictionary makes of the type of the parameter, or a name made of the slot.  Slots are counted here
as class files count them, two for a `long` or a `double` and one for any other parameter.
`parameterNames_of_relabel` says so of every method of a class, in the order of the methods.

The names that the mappings have for the parameters are taken before any other is made up.  One that
they have for the receiver, which is no parameter, is not (`receiverName_given_of_relabel`).
-/
import ClassRelabel.Proofs.Relabel.Distinct
import ClassRelabel.Proofs.Relabel.Reports
import ClassRelabel.Proofs.Relabel.Slots

namespace ClassRelabel

/-! ## Counting slots -/

namespace FieldType

variable {t : FieldType} {ts : List FieldType} {k : Nat}

/-- A `long` or a `double`.  An array of them is an object as any other. -/
def IsWide (t : FieldType) : Prop :=
  t = ⟨.primitive .long, 0⟩ ∨ t = ⟨.primitive .double, 0⟩

instance : DecidablePred IsWide := fun t => inferInstanceAs (Decidable (t = _ ∨ t = _))

def width (t : FieldType) : Nat := if t.IsWide then 2 else 1

theorem slots_eq_width (h : 0 < t.slots) : t.slots = t.width := by
  obtain ⟨element, dimensions⟩ := t
  unfold slots at h ⊢
  split at h
  · rename_i harray
    rw [if_pos harray]
    have hdimensions : dimensions ≠ 0 := by simpa [isArray] using harray
    have hnarrow : ¬IsWide ⟨element, dimensions⟩ := by simp [IsWide, hdimensions]
    rw [width, if_neg hnarrow]
  · rename_i harray
    rw [if_neg harray]
    obtain rfl : dimensions = 0 := by simpa [isArray] using harray
    cases element with
    | object name => rfl
    | primitive type => cases type <;> first | rfl | simp [Element.slots, Primitive.slots] at h

theorem totalSlots_eq_foldr (h : ∀ t ∈ ts, 0 < t.slots) :
    totalSlots ts = ts.foldr (fun t n => t.width + n) 0 := by
  induction ts with
  | nil => rfl
  | cons t ts ih =>
    obtain ⟨ht, hts⟩ := List.forall_mem_cons.mp h
    rw [totalSlots, slots_eq_width ht, ih hts, List.foldr_cons]

theorem totalSlots_take_add_le (hk : ts[k]? = some t) :
    totalSlots (ts.take k) + t.slots ≤ totalSlots ts := by
  induction ts generalizing k with
  | nil => simp at hk
  | cons s ts ih =>
    cases k with
    | zero =>
      obtain rfl : s = t := Option.some.inj hk
      simp [totalSlots]
    | succ k =>
      have hle := ih hk
      rw [List.take_succ_cons, totalSlots, totalSlots]
      omega

/-- No type is spelled with a closing parenthesis in front. -/
theorem head?_toChars_ne (t : FieldType) (rest : List Char) :
    (t.toChars ++ rest).head? ≠ some ')' := by
  obtain ⟨element, dimensions⟩ := t
  unfold toChars
  cases dimensions.toNat with
  | zero =>
    cases element with
    | object name => simp [Element.toChars]
    | primitive type => cases type <;> simp [Element.toChars, Primitive.code]
  | succ n => simp [List.replicate_succ]

end FieldType

theorem MethodType.parameters_eq_nil_iff {t : MethodType} :
    t.parameters = [] ↔ t.toChars[1]? = some ')' := by
  obtain ⟨parameters, result⟩ := t
  cases parameters with
  | nil => simp [toChars]
  | cons p ps =>
    have hhead := p.head?_toChars_ne (ps.flatMap FieldType.toChars ++ ')' :: result.toChars)
    simpa [toChars, List.head?_eq_getElem?] using hhead

/-- A method has parameters under its new descriptor if it had any. -/
theorem Member.NamedAs.parameters_eq_nil_iff {m : Mappings} {owner : String} {p : Pool}
    {old : Member} {method : NamedMethod} (h : old.NamedAs m owner p method) :
    ∃ t, MethodType.parse method.id.descriptor = .ok t ∧
      (method.parameters = [] ↔ t.parameters = []) := by
  obtain ⟨new, t', hnew, ht', hparameters⟩ := h.parameters
  obtain ⟨t, ht, hnew⟩ := Except.bind_eq_ok.mp hnew
  have hchars : t'.toChars = (t.mapClasses m.renamePlain).toChars := by
    have hspelled := (MethodType.parse_eq_ok.mp ht').2.trans (Except.pure_eq_ok.mp hnew).symm
    exact String.ofList_inj.mp hspelled
  refine ⟨t, ht, ?_⟩
  rw [hparameters, MethodType.parameters_eq_nil_iff, hchars, ← MethodType.parameters_eq_nil_iff,
    MethodType.mapClasses, List.map_eq_nil_iff]

namespace NamedMethod

/-- The slot of parameter `k`: behind the receiver, which a static method does not have, and behind
the parameters in front of it. -/
def slotOf (method : NamedMethod) (k : Nat) : Nat :=
  (if method.isStatic then 0 else 1) + (method.parameters.take k).foldr (fun t n => t.width + n) 0

variable {m : Mappings} {d : Option Dictionary} {method : NamedMethod} {k : Nat} {t : FieldType}

theorem Fits.slotOf_eq (h : method.Fits) (k : Nat) : method.slotOf k =
    (if method.isStatic then 0 else 1) + FieldType.totalSlots (method.parameters.take k) := by
  rw [slotOf, FieldType.totalSlots_eq_foldr fun t ht => h.positive t (List.mem_of_mem_take ht)]

theorem Fits.slotOf_lt (h : method.Fits) (hk : method.parameters[k]? = some t) :
    method.slotOf k < 0x10000 := by
  have hle := FieldType.totalSlots_take_add_le hk
  have hpos := h.positive t (List.mem_of_getElem? hk)
  have htotal := h.total
  rw [h.slotOf_eq]
  split <;> omega

theorem Fits.getElem?_slots_of_parameter (h : method.Fits) (hk : method.parameters[k]? = some t) :
    method.slots[k]? = some (UInt16.ofNat (method.slotOf k), t) := by
  rw [slots, FieldType.getElem?_withSlots, hk, h.slotOf_eq]
  rfl

theorem Fits.getElem?_unlisted (h : method.Fits) (hk : method.parameters[k]? = some t) :
    method.unlisted[k]? = some ⟨UInt16.ofNat (method.slotOf k),
      "var" ++ toString (method.slotOf k), toString t⟩ := by
  have hslot : (UInt16.ofNat (method.slotOf k)).toNat = method.slotOf k := by
    rw [UInt16.toNat_ofNat', Nat.mod_eq_of_lt (h.slotOf_lt hk)]
  rw [unlisted, List.getElem?_map, h.getElem?_slots_of_parameter hk]
  simp only [Option.map_some, fallbackName, hslot]

/-! ## Names in turn -/

/-- The names that are taken when parameter `k` is named: those that the mappings give to the
parameters, and those of the parameters in front. -/
def takenBefore (m : Mappings) (method : NamedMethod) (names : List String) (k : Nat) :
    UsedNames :=
  (names.take k).foldl UsedNames.reserve (method.reserved m method.parameterSlots .empty)

/-- The name of a parameter of type `t` in a slot. -/
inductive Names (m : Mappings) (d : Option Dictionary) (method : NamedMethod) (taken : UsedNames)
    (slot : Nat) (t : FieldType) : String → Prop
  | mapped {name : String} (h : method.mapped? m (UInt16.ofNat slot) = some name) :
      Names m d method taken slot t name
  | deduced {dictionary : Dictionary} {name : String} {used : UsedNames}
      (unmapped : method.mapped? m (UInt16.ofNat slot) = none) (given : d = some dictionary)
      (h : Parameter.deduce ⟨method.id, UInt16.ofNat slot⟩ dictionary ("var" ++ toString slot)
        (toString t) taken = .ok name used) :
      Names m d method taken slot t name
  | fallback (unmapped : method.mapped? m (UInt16.ofNat slot) = none) (absent : d = none) :
      Names m d method taken slot t ("var" ++ toString slot)

end NamedMethod

/-- The report of a method speaks of its new descriptor and names every parameter. -/
structure ParameterNames.LinesUp (m : Mappings) (d : Option Dictionary) (method : NamedMethod)
    (report : ParameterNames) : Prop where
  owner : report.method.owner = m.renameClass method.id.owner
  renames : m.RenamesMethod method.id.owner ⟨method.id.name, method.id.descriptor⟩
    ⟨report.method.name, report.method.descriptor⟩
  parameters : ∃ type, MethodType.parse report.method.descriptor = .ok type ∧
    type.parameters = method.parameters
  length : report.names.length = method.parameters.length
  names : ∀ k t name, method.parameters[k]? = some t → report.names[k]? = some name →
    method.Names m d (method.takenBefore m report.names k) (method.slotOf k) t name

/-- What is reported for a method: nothing with a body or without parameters, and otherwise names
for all parameters if there is a dictionary or the mappings name one of them. -/
def Member.ReportsParameters (m : Mappings) (d : Option Dictionary) (owner : String) (p : Pool)
    (old : Member) (report : Option ParameterNames) : Prop :=
  ∃ method type, old.NamedAs m owner p method ∧
    MethodType.parse method.id.descriptor = .ok type ∧
    (method.parameters = [] ↔ type.parameters = []) ∧
    (m.NewNames IsInternalName →
      method.parameters = (type.mapClasses m.renameClass).parameters) ∧
    (old.hasBody = true ∨ method.parameters = [] → report = none) ∧
    (old.hasBody = false → method.parameters ≠ [] →
      FieldType.totalSlots method.parameters ≤ 65535 →
      (report.isSome ↔ d ≠ none ∨ ∃ k < method.parameters.length,
        method.mapped? m (UInt16.ofNat (method.slotOf k)) ≠ none) ∧
      ∀ found, report = some found → found.LinesUp m d method)

namespace NamedInTurn

variable {m : Mappings} {dictionary : Dictionary} {method : NamedMethod} {used : UsedNames}
  {ns : List (Candidate × Option String)} {k : Nat} {n : Candidate × Option String}

/-- With a dictionary each parameter is named in the mappings, or from what is taken before it.
The names in the mappings are taken from the start, so that taking them again in turn changes
nothing. -/
theorem given_of_dictionary (h : NamedInTurn m (some dictionary) method used ns)
    (hreserved : ∀ n ∈ ns, ∀ name, method.mapped? m n.1.slot = some name →
      used.contains name = true)
    (hraw : ∀ n ∈ ns, n.1.rawName.toLower ≠ receiverName) (hn : ns[k]? = some n) :
    ∃ name, n.2 = some name ∧ (method.mapped? m n.1.slot = some name ∨
      method.mapped? m n.1.slot = none ∧ ∃ used',
        Parameter.deduce ⟨method.id, n.1.slot⟩ dictionary n.1.rawName n.1.type
          ((ns.take k).foldl (fun u n => u.reserve (n.2.getD n.1.rawName)) used) =
            .ok name used') := by
  induction h generalizing k with
  | nil => simp at hn
  | @mapped used c name rest hmapped _ ih =>
    obtain ⟨htaken, hothers⟩ := List.forall_mem_cons.mp hreserved
    cases k with
    | zero =>
      obtain rfl : (c, some name) = n := Option.some.inj hn
      exact ⟨name, rfl, Or.inl hmapped⟩
    | succ k =>
      have hsame : used.reserve name = used := if_pos (htaken name hmapped)
      rw [List.take_succ_cons, List.foldl_cons, Option.getD_some, hsame]
      exact ih hothers (List.forall_mem_cons.mp hraw).2 hn
  | @deduced used used' c _ name rest unmapped given hdeduce _ ih =>
    obtain ⟨hc, hothersRaw⟩ := List.forall_mem_cons.mp hraw
    have hothers := (List.forall_mem_cons.mp hreserved).2
    obtain rfl := Option.some.inj given
    cases k with
    | zero =>
      obtain rfl : (c, some name) = n := Option.some.inj hn
      exact ⟨name, rfl, Or.inr ⟨unmapped, used', hdeduce⟩⟩
    | succ k =>
      obtain ⟨hreceiver, -⟩ | ⟨-, t, -, -, hclaim⟩ := Parameter.deduce_eq_ok_iff.mp hdeduce
      · exact absurd hreceiver hc
      obtain ⟨rfl, rfl⟩ := Prod.mk.inj hclaim
      rw [List.take_succ_cons, List.foldl_cons, Option.getD_some]
      exact ih (fun n hn name hname => UsedNames.contains_claim.mpr
        (Or.inr (hothers n hn name hname))) hothersRaw hn
  | kept _ absent => simp at absent

end NamedInTurn

namespace NamedMethod

variable {m : Mappings} {d : Option Dictionary} {method : NamedMethod} {k : Nat} {t : FieldType}
  {ns : List (Candidate × Option String)} {slot : UInt16} {name : String}

theorem Fits.mem_parameterSlots (h : method.Fits) : slot ∈ method.parameterSlots ↔
    ∃ k < method.parameters.length, UInt16.ofNat (method.slotOf k) = slot := by
  have hslots : ∀ k < method.parameters.length,
      method.parameterSlots[k]? = some (UInt16.ofNat (method.slotOf k)) := fun k hk => by
    rw [parameterSlots, List.getElem?_map,
      h.getElem?_slots_of_parameter (List.getElem?_eq_getElem hk)]
    rfl
  have hlength : method.parameterSlots.length = method.parameters.length := by
    rw [parameterSlots, List.length_map, slots, FieldType.length_withSlots]
  rw [List.mem_iff_getElem?]
  constructor
  · rintro ⟨k, hk⟩
    have hlt : k < method.parameters.length := hlength ▸ (List.getElem?_eq_some_iff.mp hk).1
    exact ⟨k, hlt, Option.some.inj ((hslots k hlt).symm.trans hk)⟩
  · rintro ⟨k, hlt, rfl⟩
    exact ⟨k, hslots k hlt⟩

theorem takenBefore_map (hns : ns.map Prod.fst = method.unlisted) (k : Nat) :
    method.takenBefore m (ns.map fun n => n.2.getD n.1.rawName) k =
      (ns.take k).foldl (fun u n => u.reserve (n.2.getD n.1.rawName))
        (method.reserved m (ns.map fun n => n.1.slot) .empty) := by
  rw [takenBefore, ← List.map_take, List.foldl_map, map_slot_of_unlisted hns]

/-- The names in turn are the names that the parameters have. -/
theorem names_of_unlisted (hns : ns.map Prod.fst = method.unlisted) (hfits : method.Fits)
    (h : NamedInTurn m d method (method.reserved m (ns.map fun n => n.1.slot) .empty) ns)
    (hk : method.parameters[k]? = some t)
    (hname : (ns.map fun n => n.2.getD n.1.rawName)[k]? = some name) :
    method.Names m d (method.takenBefore m (ns.map fun n => n.2.getD n.1.rawName) k)
      (method.slotOf k) t name := by
  rw [List.getElem?_map, Option.map_eq_some_iff] at hname
  obtain ⟨⟨c, given⟩, hn, rfl⟩ := hname
  have hmem := List.mem_of_getElem? hn
  have hfst : (ns.map Prod.fst)[k]? = some c := by
    rw [List.getElem?_map, hn]
    rfl
  rw [hns, hfits.getElem?_unlisted hk] at hfst
  obtain rfl := Option.some.inj hfst
  rw [takenBefore_map hns]
  cases d with
  | none =>
    have hgiven : given = method.mapped? m (UInt16.ofNat (method.slotOf k)) := h.eq_mapped? hmem
    cases given with
    | none => exact .fallback hgiven.symm rfl
    | some name => exact .mapped hgiven.symm
  | some dictionary =>
    have hreserved : ∀ n ∈ ns, ∀ name, method.mapped? m n.1.slot = some name →
        (method.reserved m (ns.map fun n => n.1.slot) .empty).contains name = true :=
      fun n hn name => contains_reserved (List.mem_map_of_mem hn)
    have hraw : ∀ n ∈ ns, n.1.rawName.toLower ≠ receiverName := fun n hn => by
      rw [rawName_of_unlisted hns hn]
      exact toLower_fallbackName_ne n.1.slot
    obtain ⟨name, rfl, hmapped | ⟨hunmapped, used, hdeduce⟩⟩ :=
      h.given_of_dictionary hreserved hraw hn
    · exact .mapped hmapped
    · exact .deduced hunmapped rfl hdeduce

/-- Something names a parameter: a dictionary names all of them. -/
theorem named_iff (hns : ns.map Prod.fst = method.unlisted) (hfits : method.Fits)
    (h : NamedInTurn m d method (method.reserved m (ns.map fun n => n.1.slot) .empty) ns)
    (hne : method.parameters ≠ []) :
    ¬(ns = [] ∨ (d = none ∧ ∀ n ∈ ns, n.2 = none)) ↔ d ≠ none ∨
      ∃ k < method.parameters.length,
        method.mapped? m (UInt16.ofNat (method.slotOf k)) ≠ none := by
  have hslots : method.parameterSlots ≠ [] := by
    have hpos := List.length_pos_iff.mpr hne
    exact List.ne_nil_of_mem (hfits.mem_parameterSlots.mpr ⟨0, hpos, rfl⟩)
  have hsome : (∃ slot ∈ method.parameterSlots, method.mapped? m slot ≠ none) ↔
      ∃ k < method.parameters.length,
        method.mapped? m (UInt16.ofNat (method.slotOf k)) ≠ none := by
    simp only [hfits.mem_parameterSlots]
    constructor
    · rintro ⟨_, ⟨k, hk, rfl⟩, hmapped⟩
      exact ⟨k, hk, hmapped⟩
    · rintro ⟨k, hk, hmapped⟩
      exact ⟨_, ⟨k, hk, rfl⟩, hmapped⟩
  rw [exists_named_iff hns h, and_iff_right hslots, hsome, imp_iff_not_or]

end NamedMethod

/-! ## All methods -/

theorem Member.ReportedInTurn.reportsParameters {m : Mappings} {d : Option Dictionary}
    {owner : String} {p : Pool} {old : Member} {report : Option ParameterNames}
    (h : old.ReportedInTurn m d owner p report) : old.ReportsParameters m d owner p report := by
  obtain ⟨method, t, hnamed, hrenames, hwith, hwithout⟩ := h
  obtain ⟨type, htype, hnil⟩ := hnamed.parameters_eq_nil_iff
  refine ⟨method, type, hnamed, htype, hnil, fun hm => hnamed.parameters_eq hm htype, ?_, ?_⟩
  · rintro (hbody | hnone)
    · exact hwith hbody
    · cases hbody : old.hasBody with
      | true => exact hwith hbody
      | false =>
        obtain ⟨ns, hns, -, rfl⟩ := hwithout hbody
        have hlength := NamedMethod.length_of_unlisted hns
        rw [hnone, List.length_nil, List.length_eq_zero_iff] at hlength
        rw [if_pos (Or.inl hlength)]
  · intro hbody hne htotal
    obtain ⟨ns, hns, hinTurn, rfl⟩ := hwithout hbody
    have hfits := hnamed.fits (Nat.lt_succ_of_le htotal)
    rw [← NamedMethod.named_iff hns hfits hinTurn hne]
    split
    · rename_i hnothing
      exact ⟨⟨fun hsome => by simp at hsome, fun hsome => absurd hnothing hsome⟩,
        fun found hfound => by simp at hfound⟩
    · rename_i hsomething
      refine ⟨⟨fun _ => hsomething, fun _ => rfl⟩, fun found hfound => ?_⟩
      obtain rfl := Option.some.inj hfound
      obtain ⟨new, t', hnew, ht', hparameters⟩ := hnamed.parameters
      obtain rfl := Except.ok.inj (hrenames.descriptor.symm.trans hnew)
      refine ⟨by rw [hnamed.owner], by rw [hnamed.owner]; exact hrenames,
        ⟨t', ht', hparameters.symm⟩, ?_, fun k t name hk hname => ?_⟩
      · rw [List.length_map]
        exact NamedMethod.length_of_unlisted hns
      · exact NamedMethod.names_of_unlisted hns hfits hinTurn hk hname

/-- A run that succeeds reports names for the parameters of the methods without a body, in the
order of the methods. -/
theorem ClassFile.parameterNames_of_relabel {c : ClassFile} {m : Mappings} {d : Option Dictionary}
    {out : RelabelledClass} (h : c.relabel m d = .ok out) :
    ∃ owner reports, c.name = .ok owner ∧ out.parameterNames = reports.filterMap id ∧
      List.Forall₂ (Member.ReportsParameters m d owner c.pool) c.methods reports := by
  obtain ⟨owner, reports, howner, hfilter, hreports⟩ := reportsInTurn_of_relabel h
  exact ⟨owner, reports, howner, hfilter, hreports.imp fun _ _ hreport =>
    hreport.reportsParameters⟩

/-! ### A name for the receiver

The mappings call the receiver `i`, which is what a dictionary calls the first parameter too. -/

namespace Fallback

def receiverMappings : Mappings := Mappings.empty.nameParameter "A" ⟨"m", "(II)V"⟩ 0 "i"

/-- All names that the mappings have for the method. -/
theorem mapped?_receiverMappings (slot : UInt16) (name : String) :
    named.mapped? receiverMappings slot = some name ↔ slot = 0 ∧ name = "i" := by
  have hparameters : named.mapped? receiverMappings slot =
      ((∅ : Std.ExtTreeMap UInt16 String compare).insert 0 "i")[slot]? := rfl
  rw [hparameters, Std.ExtTreeMap.getElem?_insert]
  by_cases hzero : slot = 0
  · simp [hzero, eq_comm]
  · have hne : compare 0 slot ≠ .eq := fun heq =>
      hzero (Std.LawfulEqOrd.eq_of_compare heq).symm
    simp [hzero, hne]

/-- With all of them taken first, the first parameter is not called `i`. -/
theorem names_receiverMappings (name : String) :
    named.Names receiverMappings (some ⟨[]⟩) (UsedNames.empty.reserve "i") (named.slotOf 0)
      ⟨.primitive .int, 0⟩ name ↔ name = "i1" := by
  have hunmapped : named.mapped? receiverMappings (UInt16.ofNat (named.slotOf 0)) = none := by
    decide +kernel
  have hdeduce : Parameter.deduce ⟨named.id, UInt16.ofNat (named.slotOf 0)⟩ ⟨[]⟩
      ("var" ++ toString (named.slotOf 0)) (toString (⟨.primitive .int, 0⟩ : FieldType))
      (UsedNames.empty.reserve "i") = .ok "i1" ⟨["i1", "i"]⟩ := by
    decide +kernel
  constructor
  · intro h
    cases h with
    | mapped hmapped => simp [hunmapped] at hmapped
    | deduced _ given h =>
      obtain rfl := Option.some.inj given
      exact (EStateM.Result.ok.inj (h.symm.trans hdeduce)).1
    | fallback _ absent => simp at absent
  · rintro rfl
    exact .deduced hunmapped rfl hdeduce

end Fallback

/-- A name that the mappings have for the receiver is not taken, so the first parameter gets it. -/
theorem ClassFile.receiverName_given_of_relabel :
    parse Fallback.bytes = .ok Fallback.classFile ∧
      Fallback.classFile.relabel Fallback.receiverMappings (some ⟨[]⟩) =
        .ok (Fallback.relabelled ["i", "i1"]) ∧
      Fallback.method.NamedAs Fallback.receiverMappings "A" Fallback.pool Fallback.named ∧
      Fallback.method.hasBody = false ∧
      (∀ slot name, Fallback.named.mapped? Fallback.receiverMappings slot = some name ↔
        slot = 0 ∧ name = "i") ∧
      ¬Fallback.named.Names Fallback.receiverMappings (some ⟨[]⟩) (UsedNames.empty.reserve "i")
        (Fallback.named.slotOf 0) ⟨.primitive .int, 0⟩ "i" := by
  have hrelabel : Fallback.classFile.relabel Fallback.receiverMappings (some ⟨[]⟩) =
      .ok (Fallback.relabelled ["i", "i1"]) := by decide +kernel
  have hnamed : Fallback.method.NamedAs Fallback.receiverMappings "A" Fallback.pool
      Fallback.named :=
    ⟨rfl, ⟨by decide +kernel, by decide +kernel⟩, rfl, "(II)V",
      ⟨Fallback.named.parameters, ⟨.primitive .void, 0⟩⟩, by decide +kernel, by decide +kernel, rfl⟩
  refine ⟨Fallback.parse_bytes, hrelabel, hnamed, rfl, Fallback.mapped?_receiverMappings, ?_⟩
  rw [Fallback.names_receiverMappings]
  decide

/-! ## A class with two methods

The method `k` is native and has no parameters.  The method `m` is abstract, and the mappings call
its second `Foo`, which is in slot 4 behind a `long`, what a dictionary would call the first one. -/

namespace TwoMethods

def pool : Pool where
  slots := #[.unusable, .utf8 "A", .classRef 1, .utf8 "k", .utf8 "()V", .utf8 "m",
    .utf8 "(JLFoo;LFoo;[D)V"]
  texts := .ofList [("A", 1), ("k", 3), ("()V", 4), ("m", 5), ("(JLFoo;LFoo;[D)V", 6)] compare
  classes := {(1, 2)}
  pairs := ∅

def methods : List Member :=
  [⟨⟨0x0108⟩, 3, 4, []⟩, ⟨.isAbstract, 5, 6, []⟩]

def classFile : ClassFile := ⟨⟨52, 0⟩, pool, ⟨0⟩, 2, 0, [], [], methods, []⟩

def key : MethodKey := ⟨"m", "(JLFoo;LFoo;[D)V"⟩

def mappings : Mappings :=
  (((Mappings.empty.nameClass "A" "B").nameClass "Foo" "Bar").nameMethod "A" key "n").nameParameter
    "A" key 4 "bar"

def relabelled : RelabelledClass where
  formerName := "A"
  name := "B"
  bytes := [202, 254, 186, 190, 0, 0, 0, 52, 0, 10, 1, 0, 1, 65, 7, 0, 7, 1, 0, 1, 107, 1, 0, 3, 40,
    41, 86, 1, 0, 1, 109, 1, 0, 16, 40, 74, 76, 70, 111, 111, 59, 76, 70, 111, 111, 59, 91, 68, 41,
    86, 1, 0, 1, 66, 1, 0, 1, 110, 1, 0, 16, 40, 74, 76, 66, 97, 114, 59, 76, 66, 97, 114, 59, 91,
    68, 41, 86, 0, 0, 0, 2, 0, 0, 0, 0, 0, 0, 0, 2, 1, 8, 0, 3, 0, 4, 0, 0, 4, 0, 0, 8, 0, 9, 0, 0,
    0, 0]
  parameterNames := [⟨⟨"B", "n", "(JLBar;LBar;[D)V"⟩, ["j", "bar1", "bar", "ad"]⟩]

end TwoMethods

theorem ClassFile.parameterNames_of_relabel_twoMethods :
    TwoMethods.classFile.relabel TwoMethods.mappings (some ⟨[]⟩) = .ok TwoMethods.relabelled ∧
      ∃ owner reports, TwoMethods.classFile.name = .ok owner ∧
        TwoMethods.relabelled.parameterNames = reports.filterMap id ∧
        List.Forall₂ (Member.ReportsParameters TwoMethods.mappings (some ⟨[]⟩) owner
          TwoMethods.pool) TwoMethods.methods reports := by
  have hrelabel : TwoMethods.classFile.relabel TwoMethods.mappings (some ⟨[]⟩) =
      .ok TwoMethods.relabelled := by decide +kernel
  exact ⟨hrelabel, parameterNames_of_relabel hrelabel⟩

end ClassRelabel
