/-
Names for the parameters of methods without a body.

Such a method has no rows that its parameters could be called by, so each falls back on a name made
of its slot.  `reports_of_relabel` says what a run reports for every method.  The reported names
differ, except that without a dictionary the mappings may give to one parameter the name that
another one falls back on.
-/
import ClassRelabel.Proofs.Relabel.Declarations

namespace ClassRelabel

open EStateM

namespace NamedMethod

/-- What a parameter in a slot is called where no row calls it anything. -/
def fallbackName (slot : UInt16) : String := "var" ++ toString slot.toNat

/-- The slots that parameters begin in. -/
def parameterSlots (method : NamedMethod) : List UInt16 := method.slots.map Prod.fst

/-- The mappings give to a parameter the name that another one falls back on. -/
def FallbackTaken (m : Mappings) (method : NamedMethod) : Prop :=
  ∃ slot ∈ method.parameterSlots, ∃ slot' ∈ method.parameterSlots,
    method.mapped? m slot = none ∧ method.mapped? m slot' = some (fallbackName slot)

/-- The parameters of a method without a body. -/
def unlisted (method : NamedMethod) : List Candidate :=
  method.slots.map fun (slot, t) => ⟨slot, fallbackName slot, toString t⟩

end NamedMethod

/-- What is reported for a method: names for its parameters, if it has no body and something names
one of them. -/
def Member.Reported (m : Mappings) (d : Option Dictionary) (owner : String) (p : Pool)
    (old : Member) (report : Option ParameterNames) : Prop :=
  ∃ method, old.NamedAs m owner p method ∧
    (report.isSome ↔ old.hasBody = false ∧ method.parameterSlots ≠ [] ∧
      (d = none → ∃ slot ∈ method.parameterSlots, method.mapped? m slot ≠ none)) ∧
    ∀ found, report = some found →
      (∃ t, m.RenamesMethod owner ⟨method.id.name, method.id.descriptor⟩ t ∧
        found.method = ⟨m.renameClass owner, t.name, t.descriptor⟩) ∧
      found.names.length = method.parameters.length ∧
      (FieldType.totalSlots method.parameters < 0x10000 →
        method.MappedApart m {slot | slot ∈ method.parameterSlots} →
          (d = none → ¬method.FallbackTaken m) → found.names.Nodup)

namespace NamedMethod

variable {m : Mappings} {d : Option Dictionary} {method : NamedMethod} {used : UsedNames}
  {ns : List (Candidate × Option String)} {slot slot' : UInt16}

/-! ## Names that are fallen back on -/

theorem fallbackName_injective (h : fallbackName slot = fallbackName slot') : slot = slot' :=
  UInt16.toNat_inj.mp (UsedNames.numbered_injective h)

theorem toLower_fallbackName_ne (slot : UInt16) :
    (fallbackName slot).toLower ≠ receiverName := by
  intro h
  have hletters : ("var".toList ++ (toString slot.toNat).toList).map Char.toLower =
      "this".toList := by
    rw [← String.toList_append, ← String.toList_map]
    exact congrArg String.toList h
  simp at hletters

/-- Without a dictionary a name tells the slot. -/
theorem eq_of_getD_eq (hapart : method.MappedApart m {slot | slot ∈ method.parameterSlots})
    (hfallback : ¬method.FallbackTaken m) (hslot : slot ∈ method.parameterSlots)
    (hslot' : slot' ∈ method.parameterSlots)
    (h : (method.mapped? m slot).getD (fallbackName slot) =
      (method.mapped? m slot').getD (fallbackName slot')) : slot = slot' := by
  cases hmapped : method.mapped? m slot with
  | none =>
    cases hmapped' : method.mapped? m slot' with
    | none =>
      rw [hmapped, hmapped'] at h
      exact fallbackName_injective h
    | some name =>
      rw [hmapped, hmapped'] at h
      obtain rfl : fallbackName slot = name := h
      exact absurd ⟨slot, hslot, slot', hslot', hmapped, hmapped'⟩ hfallback
  | some name =>
    cases hmapped' : method.mapped? m slot' with
    | none =>
      rw [hmapped, hmapped'] at h
      obtain rfl : name = fallbackName slot' := h
      exact absurd ⟨slot', hslot', slot, hslot, hmapped', hmapped⟩ hfallback
    | some name' =>
      rw [hmapped, hmapped'] at h
      obtain rfl : name = name' := h
      exact hapart slot hslot slot' hslot' name hmapped hmapped'

/-! ## Parameters that no row lists -/

theorem map_slot_of_unlisted (hns : ns.map Prod.fst = method.unlisted) :
    ns.map (fun n => n.1.slot) = method.parameterSlots := by
  have hslots : (ns.map Prod.fst).map Candidate.slot = method.parameterSlots := by
    rw [hns, unlisted, List.map_map]
    rfl
  rw [← hslots, List.map_map]
  rfl

theorem slot_mem_of_unlisted (hns : ns.map Prod.fst = method.unlisted)
    {n : Candidate × Option String} (hn : n ∈ ns) : n.1.slot ∈ method.parameterSlots := by
  rw [← map_slot_of_unlisted hns]
  exact List.mem_map_of_mem hn

theorem rawName_of_unlisted (hns : ns.map Prod.fst = method.unlisted)
    {n : Candidate × Option String} (hn : n ∈ ns) : n.1.rawName = fallbackName n.1.slot := by
  have hfst : n.1 ∈ ns.map Prod.fst := List.mem_map_of_mem hn
  rw [hns] at hfst
  obtain ⟨⟨slot, t⟩, -, heq⟩ := List.mem_map.mp hfst
  rw [← heq]

theorem length_of_unlisted (hns : ns.map Prod.fst = method.unlisted) :
    ns.length = method.parameters.length := by
  have hlength := congrArg List.length hns
  rwa [List.length_map, unlisted, List.length_map, slots, FieldType.length_withSlots] at hlength

theorem sorted_of_unlisted (hns : ns.map Prod.fst = method.unlisted) (hfits : method.Fits) :
    ns.Pairwise fun a b => a.1.slot < b.1.slot := by
  have hpairwise : method.parameterSlots.Pairwise (· < ·) :=
    List.pairwise_map.mpr hfits.pairwise_slots
  rw [← map_slot_of_unlisted hns] at hpairwise
  exact List.pairwise_map.mp hpairwise

theorem nodup_names (hns : ns.map Prod.fst = method.unlisted) (hfits : method.Fits)
    (h : NamedInTurn m d method (method.reserved m (ns.map fun n => n.1.slot) used) ns)
    (hapart : method.MappedApart m {slot | slot ∈ method.parameterSlots})
    (hfallback : d = none → ¬method.FallbackTaken m) :
    (ns.map fun n => n.2.getD n.1.rawName).Nodup := by
  have hsorted := sorted_of_unlisted hns hfits
  have hmem : ∀ n ∈ ns, n.1.slot ∈ method.parameterSlots := fun _ hn => slot_mem_of_unlisted hns hn
  refine List.pairwise_map.mpr ?_
  cases d with
  | some dictionary =>
    -- No parameter is called like a receiver, so the names that are made up are new.
    have hexempt : ∀ n ∈ ns, ¬n.1.Exempt m method := fun n hn hexempt => by
      have hreceiver := hexempt.2
      rw [rawName_of_unlisted hns hn] at hreceiver
      exact toLower_fallbackName_ne n.1.slot hreceiver
    refine (h.pairwise_of_mappedApart hsorted hmem hapart).imp_of_mem fun {a b} ha hb hab heq => ?_
    obtain ⟨name, hname⟩ := h.exists_name (by simp) ha
    obtain ⟨name', hname'⟩ := h.exists_name (by simp) hb
    obtain rfl : name = name' := by simpa [hname, hname'] using heq
    rcases hab name hname hname' with hfirst | hsecond
    · exact hexempt a ha hfirst.1
    · exact hexempt b hb hsecond.1
  | none =>
    refine hsorted.imp_of_mem fun {a b} ha hb hlt heq => UInt16.ne_of_lt hlt ?_
    rw [h.eq_mapped? ha, h.eq_mapped? hb, rawName_of_unlisted hns ha,
      rawName_of_unlisted hns hb] at heq
    exact eq_of_getD_eq hapart (hfallback rfl) (hmem a ha) (hmem b hb) heq

/-- Something names one of the parameters. -/
theorem exists_named_iff (hns : ns.map Prod.fst = method.unlisted)
    (h : NamedInTurn m d method used ns) :
    ¬(ns = [] ∨ (d = none ∧ ∀ n ∈ ns, n.2 = none)) ↔ method.parameterSlots ≠ [] ∧
      (d = none → ∃ slot ∈ method.parameterSlots, method.mapped? m slot ≠ none) := by
  have hnil : ns = [] ↔ method.parameterSlots = [] := by
    rw [← map_slot_of_unlisted hns, List.map_eq_nil_iff]
  have hmapped : d = none → ((∀ n ∈ ns, n.2 = none) ↔
      ∀ slot ∈ method.parameterSlots, method.mapped? m slot = none) := by
    rintro rfl
    calc (∀ n ∈ ns, n.2 = none)
        ↔ ∀ n ∈ ns, method.mapped? m n.1.slot = none :=
          forall₂_congr fun n hn => by rw [h.eq_mapped? hn]
      _ ↔ ∀ slot ∈ method.parameterSlots, method.mapped? m slot = none := by
          rw [← map_slot_of_unlisted hns, List.forall_mem_map]
  rw [not_or, hnil]
  refine and_congr_right fun _ => ⟨fun hnot hd => ?_, fun hsome ⟨hd, hnone⟩ => ?_⟩
  · by_contra hnone
    refine hnot ⟨hd, (hmapped hd).mpr fun slot hslot => ?_⟩
    by_contra hne
    exact hnone ⟨slot, hslot, hne⟩
  · obtain ⟨slot, hslot, hne⟩ := hsome hd
    exact hne ((hmapped hd).mp hnone slot hslot)

end NamedMethod

/-! ## Reports of a run -/

/-- What is reported for a method, with the names that its parameters are given in turn. -/
def Member.ReportedInTurn (m : Mappings) (d : Option Dictionary) (owner : String) (p : Pool)
    (old : Member) (report : Option ParameterNames) : Prop :=
  ∃ method t, old.NamedAs m owner p method ∧
    m.RenamesMethod owner ⟨method.id.name, method.id.descriptor⟩ t ∧
    (old.hasBody = true → report = none) ∧
    (old.hasBody = false → ∃ ns : List (Candidate × Option String),
      ns.map Prod.fst = method.unlisted ∧
      NamedInTurn m d method (method.reserved m (ns.map fun n => n.1.slot) .empty) ns ∧
      report = if ns = [] ∨ (d = none ∧ ∀ n ∈ ns, n.2 = none) then none else
        some ⟨⟨m.renameClass owner, t.name, t.descriptor⟩, ns.map fun n => n.2.getD n.1.rawName⟩)

theorem Member.ReportedInTurn.reported {m : Mappings} {d : Option Dictionary} {owner : String}
    {p : Pool} {old : Member} {report : Option ParameterNames}
    (h : old.ReportedInTurn m d owner p report) : old.Reported m d owner p report := by
  obtain ⟨method, t, hnamed, hrenames, hwith, hwithout⟩ := h
  refine ⟨method, hnamed, ?_⟩
  cases hbody : old.hasBody with
  | true =>
    rw [hwith hbody]
    simp
  | false =>
    obtain ⟨ns, hns, hinTurn, rfl⟩ := hwithout hbody
    rw [← NamedMethod.exists_named_iff hns hinTurn]
    split
    · rename_i hnothing
      exact ⟨⟨fun hsome => by simp at hsome, fun hsome => absurd hnothing hsome.2⟩,
        fun found hfound => by simp at hfound⟩
    · rename_i hsomething
      refine ⟨⟨fun _ => ⟨rfl, hsomething⟩, fun _ => rfl⟩, fun found hfound => ?_⟩
      obtain rfl := Option.some.inj hfound
      refine ⟨⟨t, hrenames, rfl⟩, ?_, fun htotal hapart hfallback => ?_⟩
      · rw [List.length_map]
        exact NamedMethod.length_of_unlisted hns
      · exact NamedMethod.nodup_names hns (hnamed.fits htotal) hinTurn hapart hfallback

namespace Relabelling

variable {r : Relabelling}

theorem report_of_parameterNames? {method : NamedMethod} {new : NamedType} {used used' : UsedNames}
    {report : Option ParameterNames}
    (h : r.parameterNames? method new used = .ok report used') :
    ∃ ns : List (Candidate × Option String), ns.map Prod.fst = method.unlisted ∧
      NamedInTurn r.mappings r.dictionary method
        (method.reserved r.mappings (ns.map fun n => n.1.slot) used) ns ∧
      report = if ns = [] ∨ (r.dictionary = none ∧ ∀ n ∈ ns, n.2 = none) then none else
        some ⟨⟨r.mappings.renameClass r.owner, new.name, new.descriptor⟩,
          ns.map fun n => n.2.getD n.1.rawName⟩ := by
  have hunlisted : (method.slots.map fun (slot, t) =>
      (⟨slot, "var" ++ toString slot.toNat, toString t⟩ : Candidate)) = method.unlisted := rfl
  unfold parameterNames? at h
  rw [hunlisted] at h
  by_cases hempty : method.unlisted.isEmpty = true
  · simp only [if_pos hempty] at h
    obtain ⟨rfl, -⟩ := pure_eq_ok.mp h
    exact ⟨[], (List.isEmpty_iff.mp hempty).symm, .nil _, by simp⟩
  · simp only [if_neg hempty] at h
    obtain ⟨names, used₁, hassign, h⟩ := bind_eq_ok.mp h
    obtain ⟨hfst, hsnd, hinTurn⟩ := namedInTurn_of_assign hassign
    refine ⟨method.unlisted.zip names, hfst, hinTurn, ?_⟩
    have hne : method.unlisted.zip names ≠ [] := fun hnil => by
      rw [hnil] at hfst
      exact hempty (by rw [← hfst]; rfl)
    have hall : names.all Option.isNone = true ↔
        ∀ n ∈ method.unlisted.zip names, n.2 = none := by
      rw [← hsnd, List.all_map, List.all_eq_true]
      simp only [Function.comp_apply, Option.isNone_iff_eq_none, hsnd]
    have hnothing : (r.dictionary.isNone && names.all Option.isNone) = true ↔
        r.dictionary = none ∧ ∀ n ∈ method.unlisted.zip names, n.2 = none := by
      rw [Bool.and_eq_true, hall, Option.isNone_iff_eq_none]
    simp only [hne, false_or, ← hnothing]
    by_cases hreport : (r.dictionary.isNone && names.all Option.isNone) = true
    · rw [if_pos hreport] at h ⊢
      exact (pure_eq_ok.mp h).1.symm
    · rw [if_neg hreport] at h ⊢
      exact (pure_eq_ok.mp h).1.symm

theorem reportInTurn_of_method {old new : Member} {report : Option ParameterNames} {p q : Pool}
    (h : r.method old p = .ok (new, report) q) :
    old.ReportedInTurn r.mappings r.dictionary r.owner r.source report := by
  simp only [method, bind_eq_ok, lift_eq_ok] at h
  obtain ⟨name, _, ⟨hname, rfl⟩, descriptor, _, ⟨hdescriptor, rfl⟩, t, _, ⟨ht, rfl⟩, type, _,
    ⟨htype, rfl⟩, h⟩ := h
  have hrenames := r.renamesMethod_of_memberType ht
  have hnamed := Member.namedAs_of_renamesMethod ⟨hname, hdescriptor⟩ hrenames htype
  refine ⟨_, t, hnamed, hrenames, ?_⟩
  split at h <;> simp only [bind_eq_ok, lift_eq_ok, pure_eq_ok] at h
  · rename_i hbody
    obtain ⟨_, _, ⟨rfl, rfl⟩, _, _, -, _, _, -, _, _, -, hnew, -⟩ := h
    obtain ⟨-, rfl⟩ := Prod.mk.inj hnew
    simp [hbody]
  · rename_i hbody
    obtain ⟨⟨found, used⟩, _, ⟨hreport, rfl⟩, _, _, -, _, _, -, _, _, -, hnew, -⟩ := h
    obtain ⟨-, rfl⟩ := Prod.mk.inj hnew
    exact ⟨fun hsome => absurd hsome hbody, fun _ =>
      report_of_parameterNames? (NamesM.outcome_eq_ok.mp hreport)⟩

theorem returns_reportInTurn (r : Relabelling) (old : Member) :
    Returns (fun made : Member × Option ParameterNames =>
      old.ReportedInTurn r.mappings r.dictionary r.owner r.source made.2) (r.method old) :=
  fun _ _ _ h => reportInTurn_of_method h

end Relabelling

namespace ClassFile

open Relabelling

/-- The reports of a run come from its methods, in their order. -/
theorem reportsInTurn_of_relabel {c : ClassFile} {m : Mappings} {d : Option Dictionary}
    {out : RelabelledClass} (h : c.relabel m d = .ok out) :
    ∃ owner reports, c.name = .ok owner ∧ out.parameterNames = reports.filterMap id ∧
      List.Forall₂ (Member.ReportedInTurn m d owner c.pool) c.methods reports := by
  obtain ⟨owner, howner, h⟩ := Except.bind_eq_ok.mp h
  obtain ⟨⟨made, reports⟩, hmade, h⟩ := Except.bind_eq_ok.mp h
  obtain ⟨bs, -, h⟩ := Except.bind_eq_ok.mp h
  rw [← Except.pure_eq_ok.mp h]
  obtain ⟨r, hr, hmade⟩ := Except.bind_eq_ok.mp hmade
  have hdescribes := describes_of_relabelling hr
  split at hmade
  · rename_i new reports' q hparts
    obtain ⟨-, rfl⟩ := Prod.mk.inj (Except.ok.inj hmade)
    obtain ⟨_, _, -, hparts⟩ := bind_eq_ok.mp hparts
    obtain ⟨_, _, -, hparts⟩ := bind_eq_ok.mp hparts
    obtain ⟨methods, _, hmethods, hparts⟩ := bind_eq_ok.mp hparts
    obtain ⟨_, _, -, hparts⟩ := bind_eq_ok.mp hparts
    obtain ⟨-, rfl⟩ := Prod.mk.inj (pure_eq_ok.mp hparts).1
    have hreports := returns_mapM r.returns_reportInTurn c.methods _ methods _ hmethods
    refine ⟨r.owner, methods.map Prod.snd, hdescribes.name, ?_, ?_⟩
    · rw [List.filterMap_map]
      rfl
    · rw [List.forall₂_map_right_iff, ← hdescribes.mappings, ← hdescribes.dictionary,
        ← hdescribes.source]
      exact hreports
  · simp at hmade

theorem reports_of_relabel {c : ClassFile} {m : Mappings} {d : Option Dictionary}
    {out : RelabelledClass} (h : c.relabel m d = .ok out) :
    ∃ owner reports, c.name = .ok owner ∧ out.parameterNames = reports.filterMap id ∧
      List.Forall₂ (Member.Reported m d owner c.pool) c.methods reports := by
  obtain ⟨owner, reports, howner, hfilter, hreports⟩ := reportsInTurn_of_relabel h
  exact ⟨owner, reports, howner, hfilter, hreports.imp fun _ _ hreport => hreport.reported⟩

end ClassFile
end ClassRelabel
