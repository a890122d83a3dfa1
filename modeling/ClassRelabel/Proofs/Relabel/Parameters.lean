/-
The parameters of a method and their names.

`NamedMethod.HasSlot` says which local variable slots belong to the parameters of a method and to
its receiver, and `NamedInTurn` how they are named: by the mappings, or from a dictionary one after
the other, or not at all.  `namedInTurn_of_assign` reads the second off the code, and
`lookup_slotTypes` the first.

Two parameters get the same name in one way only, which `NamedApart` leaves open: what is called
like a receiver keeps its name without taking it.
-/
import Mathlib.Data.List.Pairwise
import Mathlib.Data.List.Sort
import Mathlib.Data.Set.Defs
import ClassRelabel.Proofs.Descriptor.Grammar
import ClassRelabel.Proofs.Naming.Used
import ClassRelabel.Proofs.Relabel.Linking

namespace List

variable {α β : Type} [BEq α] [LawfulBEq α]

/-- Where the keys differ, every pair of an association list is found. -/
theorem lookup_eq_some_iff_mem {l : List (α × β)} (h : l.Pairwise fun x y => x.1 ≠ y.1) {k : α}
    {v : β} : l.lookup k = some v ↔ (k, v) ∈ l := by
  induction l with
  | nil => simp
  | cons x l ih =>
    obtain ⟨k', v'⟩ := x
    obtain ⟨hx, hl⟩ := List.pairwise_cons.mp h
    rw [List.lookup_cons, List.mem_cons, Prod.mk.injEq]
    cases hk : k == k' with
    | true =>
      obtain rfl := eq_of_beq hk
      have hnot : (k, v) ∉ l := fun hmem => hx (k, v) hmem rfl
      simp [hnot, eq_comm]
    | false =>
      have hne : k ≠ k' := ne_of_beq_false hk
      simp [ih hl, hne]

end List

namespace ClassRelabel

/-! ## Slots -/

namespace FieldType

variable {t : FieldType} {ts : List FieldType} {first : Nat}

/-- The slots that parameters fill. -/
def totalSlots : List FieldType → Nat
  | [] => 0
  | t :: ts => t.slots + totalSlots ts

theorem slots_pos (h : t.isVoid = false) : 0 < t.slots := by
  obtain ⟨element, dimensions⟩ := t
  unfold slots
  cases harray : isArray ⟨element, dimensions⟩ with
  | true => simp
  | false =>
    cases element with
    | object name => simp [Element.slots]
    | primitive type => cases type <;> simp_all [isVoid, Element.slots, Primitive.slots]

theorem length_withSlots : (withSlots first ts).length = ts.length := by
  induction ts generalizing first with
  | nil => rfl
  | cons t ts ih => rw [withSlots, List.length_cons, List.length_cons, ih]

/-- A parameter stands behind the slots of the parameters in front of it. -/
theorem mem_withSlots {slot : UInt16} (hpos : ∀ t ∈ ts, 0 < t.slots)
    (hfit : first + totalSlots ts ≤ 0x10000) :
    (slot, t) ∈ withSlots first ts ↔ ∃ before after, ts = before ++ t :: after ∧
      slot.toNat = first + totalSlots before := by
  induction ts generalizing first with
  | nil => simp [withSlots]
  | cons s ts ih =>
    obtain ⟨hs, hpos⟩ := List.forall_mem_cons.mp hpos
    rw [totalSlots] at hfit
    have hfirst : slot = UInt16.ofNat first ↔ slot.toNat = first := by
      rw [← UInt16.toNat_inj, UInt16.toNat_ofNat', Nat.mod_eq_of_lt (by omega)]
    rw [withSlots, List.mem_cons, Prod.mk.injEq, hfirst, ih hpos (by omega)]
    constructor
    · rintro (⟨hslot, rfl⟩ | ⟨before, after, rfl, hslot⟩)
      · exact ⟨[], ts, rfl, hslot⟩
      · exact ⟨s :: before, after, rfl, by rw [totalSlots]; omega⟩
    · rintro ⟨_ | ⟨x, before⟩, after, hts, hslot⟩
      · obtain ⟨rfl, rfl⟩ := List.cons.inj hts
        exact Or.inl ⟨hslot, rfl⟩
      · obtain ⟨rfl, rfl⟩ := List.cons.inj hts
        rw [totalSlots] at hslot
        exact Or.inr ⟨before, after, rfl, by omega⟩

/-- The slots increase, each by the size of the parameter in front. -/
theorem pairwise_withSlots (hpos : ∀ t ∈ ts, 0 < t.slots)
    (hfit : first + totalSlots ts ≤ 0x10000) :
    (withSlots first ts).Pairwise (fun x y => x.1 < y.1) ∧
      ∀ x ∈ withSlots first ts, first ≤ x.1.toNat := by
  induction ts generalizing first with
  | nil => simp [withSlots]
  | cons s ts ih =>
    obtain ⟨hs, hpos⟩ := List.forall_mem_cons.mp hpos
    rw [totalSlots] at hfit
    have hfit' : first + s.slots + totalSlots ts ≤ 0x10000 := by omega
    obtain ⟨hrest, hbound⟩ := ih hpos hfit'
    have hfirst : (UInt16.ofNat first).toNat = first := by
      rw [UInt16.toNat_ofNat', Nat.mod_eq_of_lt (by omega)]
    rw [withSlots, List.pairwise_cons, List.forall_mem_cons]
    refine ⟨⟨fun y hy => ?_, hrest⟩, ?_, fun x hx => ?_⟩
    · have hle := hbound y hy
      rw [UInt16.lt_iff_toNat_lt, hfirst]
      omega
    · exact Nat.le_of_eq hfirst.symm
    · have hle := hbound x hx
      omega

end FieldType

/-- Every parameter of a descriptor takes a slot, because none is `void`. -/
theorem MethodType.slots_pos_of_parse {s : String} {t : MethodType} (h : parse s = .ok t) :
    ∀ p ∈ t.parameters, 0 < p.slots := by
  intro p hp
  have hvalid := (parse_eq_ok.mp h).1.parameters p hp
  exact FieldType.slots_pos ((FieldType.isVoid_iff (.inl hvalid)).mpr hvalid)

namespace NamedMethod

/-- A slot that belongs to the receiver or begins a parameter, and the new descriptor of what is
in it. -/
inductive HasSlot (m : Mappings) (method : NamedMethod) : UInt16 → String → Prop
  | receiver (h : method.isStatic = false) :
      HasSlot m method 0 ("L" ++ m.renameClass method.id.owner ++ ";")
  | parameter {slot : UInt16} {before after : List FieldType} {t : FieldType}
      (h : method.parameters = before ++ t :: after)
      (offset : slot.toNat =
        (if method.isStatic then 0 else 1) + FieldType.totalSlots before) :
      HasSlot m method slot (toString t)

/-- The name that the mappings give to the parameter in a slot. -/
def mapped? (m : Mappings) (method : NamedMethod) (slot : UInt16) : Option String :=
  m.parameter? method.id.owner ⟨method.id.name, method.id.descriptor⟩ slot

/-- Every parameter takes a slot, and there are enough slots for all of them. -/
structure Fits (method : NamedMethod) : Prop where
  positive : ∀ t ∈ method.parameters, 0 < t.slots
  total : FieldType.totalSlots method.parameters < 0x10000

variable {m : Mappings} {method : NamedMethod} {slot : UInt16} {type : String}

theorem Fits.fit (h : method.Fits) :
    (if method.isStatic then 0 else 1) + FieldType.totalSlots method.parameters ≤ 0x10000 := by
  have htotal := h.total
  split <;> omega

theorem Fits.pairwise_slots (h : method.Fits) :
    method.slots.Pairwise fun x y => x.1 < y.1 :=
  (FieldType.pairwise_withSlots h.positive h.fit).1

theorem Fits.mem_slots {t : FieldType} (h : method.Fits) :
    (slot, t) ∈ method.slots ↔ ∃ before after, method.parameters = before ++ t :: after ∧
      slot.toNat = (if method.isStatic then 0 else 1) + FieldType.totalSlots before :=
  FieldType.mem_withSlots h.positive h.fit

end NamedMethod

/-- What the naming of parameters is told about the method `old` of the class `owner`. -/
structure Member.NamedAs (m : Mappings) (owner : String) (p : Pool) (old : Member)
    (method : NamedMethod) : Prop where
  owner : method.id.owner = owner
  declared : old.Is p ⟨method.id.name, method.id.descriptor⟩
  isStatic : method.isStatic = old.isStatic
  parameters : ∃ new t, m.renameMethodType method.id.descriptor = .ok new ∧
    MethodType.parse new = .ok t ∧ method.parameters = t.parameters

theorem Member.NamedAs.fits {m : Mappings} {owner : String} {p : Pool} {old : Member}
    {method : NamedMethod} (h : old.NamedAs m owner p method)
    (htotal : FieldType.totalSlots method.parameters < 0x10000) : method.Fits := by
  obtain ⟨new, t, -, ht, hparameters⟩ := h.parameters
  refine ⟨?_, htotal⟩
  rw [hparameters]
  exact MethodType.slots_pos_of_parse ht

namespace Relabelling

variable {r : Relabelling} {method : NamedMethod} {slot : UInt16} {type : String}

/-- The receiver stands in front of the first parameter. -/
theorem pairwise_slotTypes (h : method.Fits) :
    (r.slotTypes method).Pairwise fun x y => x.1 ≠ y.1 := by
  have hparameters : (method.slots.map fun x => (x.1, toString x.2)).Pairwise
      fun x y => x.1 ≠ y.1 :=
    List.pairwise_map.mpr (h.pairwise_slots.imp fun hlt => UInt16.ne_of_lt hlt)
  unfold slotTypes
  cases hstatic : method.isStatic with
  | true => exact hparameters
  | false =>
    refine List.pairwise_cons.mpr ⟨fun y hy => ?_, hparameters⟩
    obtain ⟨⟨slot, t⟩, hmem, rfl⟩ := List.mem_map.mp hy
    have hbound := (FieldType.pairwise_withSlots h.positive h.fit).2 (slot, t) hmem
    simp only [hstatic, Bool.false_eq_true, if_false] at hbound
    intro hzero
    obtain rfl : 0 = slot := hzero
    simp at hbound

theorem lookup_slotTypes (howner : method.id.owner = r.owner) (h : method.Fits) :
    (r.slotTypes method).lookup slot = some type ↔ method.HasSlot r.mappings slot type := by
  have hparameter : (slot, type) ∈ method.slots.map (fun x => (x.1, toString x.2)) ↔
      ∃ t before after, toString t = type ∧ method.parameters = before ++ t :: after ∧
        slot.toNat = (if method.isStatic then 0 else 1) + FieldType.totalSlots before := by
    simp only [List.mem_map, Prod.exists, Prod.mk.injEq]
    constructor
    · rintro ⟨slot', t, hmem, rfl, rfl⟩
      obtain ⟨before, after, hsplit, hslot⟩ := h.mem_slots.mp hmem
      exact ⟨t, before, after, rfl, hsplit, hslot⟩
    · rintro ⟨t, before, after, rfl, hsplit, hslot⟩
      exact ⟨slot, t, h.mem_slots.mpr ⟨before, after, hsplit, hslot⟩, rfl, rfl⟩
  rw [List.lookup_eq_some_iff_mem (pairwise_slotTypes h), slotTypes]
  constructor
  · intro hmem
    split at hmem
    · obtain ⟨t, before, after, rfl, hsplit, hslot⟩ := hparameter.mp hmem
      exact .parameter hsplit hslot
    · rename_i hstatic
      rcases List.mem_cons.mp hmem with heq | hmem
      · obtain ⟨rfl, rfl⟩ := Prod.mk.inj heq
        rw [← howner]
        exact .receiver (by simpa using hstatic)
      · obtain ⟨t, before, after, rfl, hsplit, hslot⟩ := hparameter.mp hmem
        exact .parameter hsplit hslot
  · intro hslot
    cases hslot with
    | receiver hstatic =>
      rw [hstatic, howner]
      exact List.mem_cons_self
    | parameter hsplit hslot =>
      have hmem := hparameter.mpr ⟨_, _, _, rfl, hsplit, hslot⟩
      split
      · exact hmem
      · exact List.mem_cons_of_mem _ hmem

end Relabelling

/-! ## Names -/

/-- Names for parameters one after the other, from the names `used` on. -/
inductive NamedInTurn (m : Mappings) (d : Option Dictionary) (method : NamedMethod) :
    UsedNames → List (Candidate × Option String) → Prop
  | nil (used : UsedNames) : NamedInTurn m d method used []
  | mapped {used : UsedNames} {c : Candidate} {name : String}
      {rest : List (Candidate × Option String)} (h : method.mapped? m c.slot = some name)
      (others : NamedInTurn m d method used rest) :
      NamedInTurn m d method used ((c, some name) :: rest)
  | deduced {used used' : UsedNames} {c : Candidate} {dictionary : Dictionary} {name : String}
      {rest : List (Candidate × Option String)} (unmapped : method.mapped? m c.slot = none)
      (given : d = some dictionary)
      (h : Parameter.deduce ⟨method.id, c.slot⟩ dictionary c.rawName c.type used =
        .ok name used')
      (others : NamedInTurn m d method used' rest) :
      NamedInTurn m d method used ((c, some name) :: rest)
  | kept {used : UsedNames} {c : Candidate} {rest : List (Candidate × Option String)}
      (unmapped : method.mapped? m c.slot = none) (absent : d = none)
      (others : NamedInTurn m d method used rest) :
      NamedInTurn m d method used ((c, none) :: rest)

/-- The names `used` and those that the mappings give to some of the slots. -/
def NamedMethod.reserved (m : Mappings) (method : NamedMethod) (slots : List UInt16)
    (used : UsedNames) : UsedNames :=
  (slots.filterMap (method.mapped? m)).foldl UsedNames.reserve used

namespace NamedMethod

/-- Different slots do not have the same name in the mappings. -/
def MappedApart (m : Mappings) (method : NamedMethod) (slots : Set UInt16) : Prop :=
  ∀ slot ∈ slots, ∀ slot' ∈ slots, ∀ name, method.mapped? m slot = some name →
    method.mapped? m slot' = some name → slot = slot'

theorem contains_reserved {m : Mappings} {method : NamedMethod} {slots : List UInt16}
    {used : UsedNames} {slot : UInt16} {name : String} (hslot : slot ∈ slots)
    (hname : method.mapped? m slot = some name) :
    (method.reserved m slots used).contains name = true :=
  UsedNames.contains_foldl_reserve.mpr (Or.inl (List.mem_filterMap.mpr ⟨slot, hslot, hname⟩))

end NamedMethod

/-- The mappings do not name the parameter, and it is called like a receiver in some letter
case. -/
def Candidate.Exempt (m : Mappings) (method : NamedMethod) (c : Candidate) : Prop :=
  method.mapped? m c.slot = none ∧ c.rawName.toLower = receiverName

/-- The two do not get the same name, unless one of them keeps it as the name of a receiver. -/
def NamedApart (m : Mappings) (method : NamedMethod) (a b : Candidate × Option String) : Prop :=
  ∀ name, a.2 = some name → b.2 = some name →
    (a.1.Exempt m method ∧ a.1.rawName = name) ∨ (b.1.Exempt m method ∧ b.1.rawName = name)

instance (m : Mappings) (method : NamedMethod) : Std.Symm (NamedApart m method) where
  symm _ _ h name ha hb := (h name hb ha).symm

namespace NamedInTurn

variable {m : Mappings} {d : Option Dictionary} {method : NamedMethod} {used : UsedNames}
  {ns : List (Candidate × Option String)}

/-- A name comes from the mappings, or from a dictionary when at least the names `used` are
taken. -/
theorem origin (h : NamedInTurn m d method used ns) {c : Candidate} {name : String}
    (hc : (c, some name) ∈ ns) :
    method.mapped? m c.slot = some name ∨ method.mapped? m c.slot = none ∧
      ∃ dictionary before after, d = some dictionary ∧
        Parameter.deduce ⟨method.id, c.slot⟩ dictionary c.rawName c.type before =
          .ok name after ∧
        ∀ other, used.contains other = true → before.contains other = true := by
  induction h with
  | nil => simp at hc
  | mapped hmapped _ ih =>
    rcases List.mem_cons.mp hc with heq | hc
    · obtain ⟨rfl, hname⟩ := Prod.mk.inj heq
      obtain rfl := Option.some.inj hname
      exact Or.inl hmapped
    · exact ih hc
  | @deduced used used' c' _ _ _ unmapped given hdeduce _ ih =>
    rcases List.mem_cons.mp hc with heq | hc
    · obtain ⟨rfl, hname⟩ := Prod.mk.inj heq
      obtain rfl := Option.some.inj hname
      exact Or.inr ⟨unmapped, _, _, _, given, hdeduce, fun _ => id⟩
    · have hgrows : ∀ other, used.contains other = true → used'.contains other = true := by
        intro other hother
        rcases Parameter.deduce_eq_ok hdeduce with ⟨-, -, rfl⟩ | ⟨-, -, hused⟩
        · exact hother
        · exact (hused other).mpr (Or.inr hother)
      refine (ih hc).imp_right fun ⟨hnone, dictionary, before, after, hd, hname, hbefore⟩ => ?_
      exact ⟨hnone, dictionary, before, after, hd, hname, fun other hother =>
        hbefore other (hgrows other hother)⟩
  | kept _ _ _ ih =>
    rcases List.mem_cons.mp hc with heq | hc
    · simp at heq
    · exact ih hc

/-- Where a name that is used already can come from.  A name that is made up is new. -/
theorem origin_of_contains (h : NamedInTurn m d method used ns) {c : Candidate} {name : String}
    (hc : (c, some name) ∈ ns) (htaken : used.contains name = true) :
    method.mapped? m c.slot = some name ∨ (c.Exempt m method ∧ c.rawName = name) := by
  refine (h.origin hc).imp_right fun ⟨hunmapped, _, _, _, _, hdeduce, hbefore⟩ => ?_
  rcases Parameter.deduce_eq_ok hdeduce with ⟨hraw, hsame, -⟩ | ⟨-, hnew, -⟩
  · exact ⟨⟨hunmapped, hraw⟩, hsame.symm⟩
  · exact absurd (hbefore name htaken) (Bool.eq_false_iff.mp hnew)

/-- With a dictionary every parameter gets a name. -/
theorem exists_name (h : NamedInTurn m d method used ns) (hd : d ≠ none)
    {n : Candidate × Option String} (hn : n ∈ ns) : ∃ name, n.2 = some name := by
  induction h with
  | nil => simp at hn
  | mapped _ _ ih | deduced _ _ _ _ ih =>
    rcases List.mem_cons.mp hn with rfl | hn
    · exact ⟨_, rfl⟩
    · exact ih hn
  | kept _ absent => exact absurd absent hd

theorem pairwise_namedApart (h : NamedInTurn m d method used ns)
    (hreserved : ∀ n ∈ ns, ∀ name, method.mapped? m n.1.slot = some name →
      used.contains name = true)
    (hdistinct : ns.Pairwise fun a b => ∀ name, method.mapped? m a.1.slot = some name →
      method.mapped? m b.1.slot ≠ some name) :
    ns.Pairwise (NamedApart m method) := by
  induction h with
  | nil => exact .nil
  | @mapped used c name rest hmapped others ih =>
    obtain ⟨hfirst, hdistinct⟩ := List.pairwise_cons.mp hdistinct
    obtain ⟨htaken, hreserved⟩ := List.forall_mem_cons.mp hreserved
    refine List.pairwise_cons.mpr ⟨?_, ih hreserved hdistinct⟩
    rintro ⟨c', _⟩ hc' name' hname rfl
    obtain rfl := Option.some.inj hname
    rcases others.origin_of_contains hc' (htaken name hmapped) with hmapped' | hexempt
    · exact absurd hmapped' (hfirst _ hc' name hmapped)
    · exact Or.inr hexempt
  | @deduced used used' c dictionary name rest unmapped given hdeduce others ih =>
    obtain ⟨-, hdistinct⟩ := List.pairwise_cons.mp hdistinct
    obtain ⟨-, hreserved⟩ := List.forall_mem_cons.mp hreserved
    rcases Parameter.deduce_eq_ok hdeduce with ⟨hraw, hsame, rfl⟩ | ⟨-, hnew, hused⟩
    · refine List.pairwise_cons.mpr ⟨?_, ih hreserved hdistinct⟩
      rintro ⟨c', _⟩ - name' hname -
      obtain rfl := Option.some.inj hname
      exact Or.inl ⟨⟨unmapped, hraw⟩, hsame.symm⟩
    · have hreserved' : ∀ n ∈ rest, ∀ name, method.mapped? m n.1.slot = some name →
          used'.contains name = true := fun n hn name hname =>
        (hused name).mpr (Or.inr (hreserved n hn name hname))
      refine List.pairwise_cons.mpr ⟨?_, ih hreserved' hdistinct⟩
      rintro ⟨c', _⟩ hc' name' hname rfl
      obtain rfl := Option.some.inj hname
      rcases others.origin_of_contains hc' ((hused name).mpr (Or.inl rfl)) with hmapped' | hexempt
      · exact absurd (hreserved _ hc' name hmapped') (Bool.eq_false_iff.mp hnew)
      · exact Or.inr hexempt
  | @kept used c rest unmapped absent others ih =>
    obtain ⟨-, hdistinct⟩ := List.pairwise_cons.mp hdistinct
    obtain ⟨-, hreserved⟩ := List.forall_mem_cons.mp hreserved
    refine List.pairwise_cons.mpr ⟨?_, ih hreserved hdistinct⟩
    rintro _ - name hname
    simp at hname

/-- The names from the mappings are taken first, so they are not made up for others. -/
theorem pairwise_of_mappedApart {slots : Set UInt16}
    (h : NamedInTurn m d method (method.reserved m (ns.map fun n => n.1.slot) used) ns)
    (hsorted : ns.Pairwise fun a b => a.1.slot < b.1.slot) (hslots : ∀ n ∈ ns, n.1.slot ∈ slots)
    (hapart : method.MappedApart m slots) : ns.Pairwise (NamedApart m method) := by
  refine h.pairwise_namedApart (fun n hn name hname => ?_) (hsorted.imp_of_mem ?_)
  · exact NamedMethod.contains_reserved (List.mem_map_of_mem hn) hname
  · intro a b ha hb hlt name hname hname'
    exact UInt16.ne_of_lt hlt (hapart _ (hslots a ha) _ (hslots b hb) name hname hname')

/-- Without a dictionary only the mappings give names. -/
theorem eq_mapped? (h : NamedInTurn m none method used ns) {n : Candidate × Option String}
    (hn : n ∈ ns) : n.2 = method.mapped? m n.1.slot := by
  induction h with
  | nil => simp at hn
  | mapped h _ ih | kept h _ _ ih =>
    rcases List.mem_cons.mp hn with rfl | hn
    · exact h.symm
    · exact ih hn
  | deduced _ given => simp at given

end NamedInTurn

namespace Relabelling

variable {r : Relabelling} {method : NamedMethod}

theorem reserved_of_reserveMapped {cs : List Candidate} {used used' : UsedNames}
    (h : r.reserveMapped method cs used = .ok () used') :
    used' = method.reserved r.mappings (cs.map Candidate.slot) used := by
  induction cs generalizing used with
  | nil => exact (EStateM.pure_eq_ok.mp h).2.symm
  | cons c cs ih =>
    have hname : r.mappedName? method c = method.mapped? r.mappings c.slot := rfl
    rw [reserveMapped, hname] at h
    cases hmapped : method.mapped? r.mappings c.slot with
    | none =>
      rw [hmapped] at h
      rw [ih h, NamedMethod.reserved, NamedMethod.reserved, List.map_cons, List.filterMap_cons,
        hmapped]
    | some name =>
      rw [hmapped] at h
      obtain ⟨⟨⟩, checked, hcheck, h⟩ := EStateM.bind_eq_ok.mp h
      obtain ⟨-, rfl⟩ := lift_eq_ok.mp hcheck
      obtain ⟨⟨⟩, taken, htaken, h⟩ := EStateM.bind_eq_ok.mp h
      obtain rfl : used.reserve name = taken := (EStateM.Result.ok.inj htaken).2
      rw [ih h, NamedMethod.reserved, NamedMethod.reserved, List.map_cons, List.filterMap_cons,
        hmapped, List.foldl_cons]

/-- Naming one more candidate.  However the first is named, the others go on from the names used
after it. -/
theorem namedInTurn_cons {c : Candidate} {name : Option String} {used used' : UsedNames}
    {ns : List (Candidate × Option String)} (h : r.nameOne method c used = .ok name used')
    (hns : NamedInTurn r.mappings r.dictionary method used' ns) :
    NamedInTurn r.mappings r.dictionary method used ((c, name) :: ns) := by
  rw [nameOne] at h
  cases hmapped : r.mappedName? method c with
  | some mapped =>
    rw [hmapped] at h
    obtain ⟨rfl, rfl⟩ := EStateM.pure_eq_ok.mp h
    exact .mapped hmapped hns
  | none =>
    rw [hmapped] at h
    cases hd : r.dictionary with
    | none =>
      rw [hd] at h hns
      obtain ⟨rfl, rfl⟩ := EStateM.pure_eq_ok.mp h
      exact .kept hmapped rfl hns
    | some d =>
      rw [hd] at h hns
      obtain ⟨made, after, hdeduce, h⟩ := EStateM.bind_eq_ok.mp h
      obtain ⟨rfl, rfl⟩ := EStateM.pure_eq_ok.mp h
      exact .deduced hmapped rfl hdeduce hns

theorem namedInTurn_of_mapM {cs : List Candidate} {used used' : UsedNames}
    {names : List (Option String)} (h : cs.mapM (r.nameOne method) used = .ok names used') :
    names.length = cs.length ∧
      NamedInTurn r.mappings r.dictionary method used (cs.zip names) := by
  induction cs generalizing used names with
  | nil =>
    obtain ⟨rfl, -⟩ := EStateM.pure_eq_ok.mp h
    exact ⟨rfl, .nil used⟩
  | cons c cs ih =>
    rw [List.mapM_cons] at h
    obtain ⟨name, used₁, hname, h⟩ := EStateM.bind_eq_ok.mp h
    obtain ⟨others, used₂, hothers, h⟩ := EStateM.bind_eq_ok.mp h
    obtain ⟨rfl, rfl⟩ := EStateM.pure_eq_ok.mp h
    obtain ⟨hlength, hinTurn⟩ := ih hothers
    exact ⟨by rw [List.length_cons, List.length_cons, hlength], namedInTurn_cons hname hinTurn⟩

/-- The mappings come first, and what is deduced comes in the order of the candidates. -/
theorem namedInTurn_of_assign {cs : List Candidate} {used used' : UsedNames}
    {names : List (Option String)} (h : r.assign method cs used = .ok names used') :
    (cs.zip names).map Prod.fst = cs ∧ (cs.zip names).map Prod.snd = names ∧
      NamedInTurn r.mappings r.dictionary method (method.reserved r.mappings
        ((cs.zip names).map fun n => n.1.slot) used) (cs.zip names) := by
  obtain ⟨⟨⟩, reserved, hreserved, h⟩ := EStateM.bind_eq_ok.mp h
  obtain ⟨hlength, hinTurn⟩ := namedInTurn_of_mapM h
  have hfst : (cs.zip names).map Prod.fst = cs := List.map_fst_zip (Nat.le_of_eq hlength.symm)
  have hslots : (cs.zip names).map (fun n => n.1.slot) = cs.map Candidate.slot := by
    rw [← congrArg (List.map Candidate.slot) hfst, List.map_map]
    rfl
  refine ⟨hfst, List.map_snd_zip (Nat.le_of_eq hlength), ?_⟩
  rwa [hslots, ← reserved_of_reserveMapped hreserved]

end Relabelling
end ClassRelabel
