/-
What becomes of the local variables of a method.

The rows of the tables keep their extents and their slots.  A row at the first instruction whose
slot belongs to a parameter takes the name that the parameter is given; `NamedByRows` says which
parameters the rows list and how they are named.  `variables_of_relabel` is the theorem this file
exists for: it says for every method of a class what its tables hold in the class that the bytes of
a run are parsed to.
-/
import ClassRelabel.Proofs.Relabel.Declarations

namespace ClassRelabel

open EStateM Codec Pool

/-! ## The parameters that rows list -/

/-- The candidate is a parameter, and the first row that starts at the first instruction and has
its slot gives the name it is called so far. -/
structure Candidate.Listed (m : Mappings) (method : NamedMethod) (p : Pool) (rows : List LocalRow)
    (c : Candidate) : Prop where
  slot : method.HasSlot m c.slot c.type
  row : ∃ row, rows.find? (fun row => row.start = 0 ∧ row.slot = c.slot) = some row ∧
    p.text row.name = .ok c.rawName

/-- The parameters that rows list, in the order of their slots and with the names they are given
from the names `used` on.  The names from the mappings are taken before any other is made up. -/
structure NamedByRows (m : Mappings) (d : Option Dictionary) (method : NamedMethod) (p : Pool)
    (used : UsedNames) (rows : List LocalRow) (ns : List (Candidate × Option String)) : Prop where
  sorted : ns.Pairwise fun a b => a.1.slot < b.1.slot
  listed : ∀ c, c ∈ ns.map Prod.fst ↔ c.Listed m method p rows
  /-- Every row that stands for a parameter lists it. -/
  complete : ∀ row ∈ rows, row.start = 0 → ∀ type, method.HasSlot m row.slot type →
    ∃ n ∈ ns, n.1.slot = row.slot
  named : NamedInTurn m d method (method.reserved m (ns.map fun n => n.1.slot) used) ns

/-! ## Rows under their new names -/

namespace LocalRow

/-- The row stands for a parameter that is given `name`. -/
def Takes (ns : List (Candidate × Option String)) (row : LocalRow) (name : String) : Prop :=
  row.start = 0 ∧ ∃ c, (c, some name) ∈ ns ∧ c.slot = row.slot

/-- A row of a table of variables. -/
structure RenamedVariable (m : Mappings) (p q : Pool) (ns : List (Candidate × Option String))
    (old new : LocalRow) : Prop where
  start : new.start = old.start
  length : new.length = old.length
  slot : new.slot = old.slot
  descriptor : Respelled p q m.renameDescriptor old.descriptor new.descriptor
  named : ∀ name, old.Takes ns name → q.text new.name = .ok name
  kept : (∀ name, ¬old.Takes ns name) → new.name = old.name

/-- A row of a table of generic types, beside the rows `rows` of variables.  It is called what the
variable in its place is called if that got a name. -/
structure RenamedType (m : Mappings) (p q : Pool) (rows : List LocalRow)
    (ns : List (Candidate × Option String)) (old new : LocalRow) : Prop where
  start : new.start = old.start
  length : new.length = old.length
  slot : new.slot = old.slot
  signature : Respelled p q m.renameSignature old.descriptor new.descriptor
  named : ∀ name, old.Takes ns name → (∃ row ∈ rows, row.place = old.place) →
    q.text new.name = .ok name
  kept : (∀ name, old.Takes ns name → ∀ row ∈ rows, row.place ≠ old.place) → new.name = old.name

end LocalRow

/-- The variables that an attribute of a body lists. -/
def Attribute.variableRows (p : Pool) (a : Attribute) : Except Fault (List LocalRow) := do
  if (← p.text a.name) = "LocalVariableTable" then LocalRow.tableCodec.decode a.payload
  else return []

/-- The variables of all tables of a body, one table after the other. -/
def Code.variableRows (p : Pool) (c : Code) : Except Fault (List LocalRow) := do
  return (← c.attributes.mapM (Attribute.variableRows p)).flatten

/-- What becomes of the tables in the body of a method. -/
def Code.RenamedVariables (m : Mappings) (d : Option Dictionary) (method : NamedMethod)
    (p q : Pool) (used : UsedNames) (old new : Code) : Prop :=
  ∃ rows ns, old.variableRows p = .ok rows ∧ NamedByRows m d method p used rows ns ∧
    List.Forall₂ (Attribute.Kept p (RelatedInBody
      (List.Forall₂ (LocalRow.RenamedVariable m p q ns))
      (List.Forall₂ (LocalRow.RenamedType m p q rows ns)))) old.attributes new.attributes

/-- The first body among the attributes of a method is a body with other names. -/
def RenamedBodies (m : Mappings) (d : Option Dictionary) (method : NamedMethod) (p q : Pool)
    (old new : List Attribute) : Prop :=
  ∀ a, Attribute.find? p "Code" old = .ok (some a) →
    ∃ a', Attribute.find? q "Code" new = .ok (some a') ∧
      SamePayload Code.codec (Code.RenamedVariables m d method p q .empty) a.payload a'.payload

/-- What becomes of the body of a method whose parameters fit into the slots there are. -/
def Member.RenamedBody (m : Mappings) (d : Option Dictionary) (owner : String) (p q : Pool)
    (old new : Member) : Prop :=
  ∃ method, old.NamedAs m owner p method ∧
    (FieldType.totalSlots method.parameters < 0x10000 → old.hasBody = true →
      RenamedBodies m d method p q old.attributes new.attributes)

/-! ## Rows of a body -/

theorem Attribute.exists_variableRows {p q : Pool} {V : LocalRow → LocalRow → Prop}
    {T : List LocalRow → List LocalRow → Prop} {a b : Attribute} {rows : List LocalRow}
    (hrevises : Revises p q) (h : Attribute.Kept p (RelatedInBody (List.Forall₂ V) T) a b)
    (hrows : a.variableRows p = .ok rows) :
    ∃ rows', b.variableRows q = .ok rows' ∧ List.Forall₂ V rows rows' := by
  obtain ⟨hsame, name, hname, hpayload⟩ := h
  have hname' : q.text b.name = .ok name := by
    rw [hsame]
    exact hrevises.text hname
  obtain ⟨found, hfound, hrows⟩ := Except.bind_eq_ok.mp hrows
  obtain rfl := Except.ok.inj (hname.symm.trans hfound)
  by_cases htable : name = "LocalVariableTable"
  · subst htable
    rw [if_pos rfl] at hrows
    obtain ⟨old, new, hold, hnew, hV⟩ := hpayload
    obtain rfl := Except.ok.inj (hold.symm.trans hrows)
    exact ⟨new, Except.bind_eq_ok.mpr ⟨_, hname', by rw [if_pos rfl, hnew]⟩, hV⟩
  · rw [if_neg htable] at hrows
    obtain rfl := Except.pure_eq_ok.mp hrows
    exact ⟨[], Except.bind_eq_ok.mpr ⟨_, hname', by rw [if_neg htable]; rfl⟩, .nil⟩

theorem Code.exists_variableRows {p q : Pool} {V : LocalRow → LocalRow → Prop}
    {T : List LocalRow → List LocalRow → Prop} {c c' : Code} {rows : List LocalRow}
    (hrevises : Revises p q)
    (h : List.Forall₂ (Attribute.Kept p (RelatedInBody (List.Forall₂ V) T)) c.attributes
      c'.attributes)
    (hrows : c.variableRows p = .ok rows) :
    ∃ rows', c'.variableRows q = .ok rows' ∧ List.Forall₂ V rows rows' := by
  obtain ⟨tables, htables, hrows⟩ := Except.bind_eq_ok.mp hrows
  obtain rfl := Except.pure_eq_ok.mp hrows
  have hsteps := List.forall₂_comp (Except.mapM_eq_ok.mp htables).flip h
  have hbetween : List.Forall₂ (fun table b => ∃ table', List.Forall₂ V table table' ∧
      b.variableRows q = .ok table') tables c'.attributes :=
    hsteps.imp fun table b ⟨a, ha, hkept⟩ => by
      obtain ⟨table', htable', hV⟩ := Attribute.exists_variableRows hrevises hkept ha
      exact ⟨table', hV, htable'⟩
  obtain ⟨tables', hV, htables'⟩ := hbetween.exists_between
  exact ⟨tables'.flatten, Except.bind_eq_ok.mpr ⟨tables', Except.mapM_eq_ok.mpr htables'.flip, rfl⟩,
    List.rel_flatten hV⟩

/-! ## Candidates -/

namespace LocalRow

theorem mem_openingRows {rows : List LocalRow} {row : LocalRow} :
    row ∈ openingRows rows ↔
      rows.find? (fun other => other.start = 0 ∧ other.slot = row.slot) = some row := by
  induction rows with
  | nil => simp [openingRows]
  | cons x rows ih =>
    rw [openingRows, List.find?_cons]
    by_cases hstart : x.start = 0
    · rw [if_pos hstart, List.mem_cons, List.mem_filter, ih]
      by_cases hslot : x.slot = row.slot
      · simp [hstart, hslot, eq_comm]
      · have hne : row ≠ x := fun h => hslot (congrArg LocalRow.slot h.symm)
        simp [hstart, hslot, hne, Ne.symm hslot]
    · rw [if_neg hstart, ih]
      simp [hstart]

theorem exists_openingRow {rows : List LocalRow} {row : LocalRow} (hrow : row ∈ rows)
    (hstart : row.start = 0) : ∃ first ∈ openingRows rows, first.slot = row.slot := by
  cases hfind : rows.find? (fun other => other.start = 0 ∧ other.slot = row.slot) with
  | none =>
    have hnot := List.find?_eq_none.mp hfind row hrow
    simp [hstart] at hnot
  | some first =>
    have hfirst : first.start = 0 ∧ first.slot = row.slot := by simpa using List.find?_some hfind
    rw [← hfirst.2] at hfind
    exact ⟨first, mem_openingRows.mpr hfind, hfirst.2⟩

theorem exists_of_nameAt? {rows : List LocalRow} {place : UInt16 × UInt16 × UInt16} {i : Index}
    (h : nameAt? rows place = some i) : ∃ row ∈ rows, row.place = place ∧ row.name = i := by
  obtain ⟨row, hfind, rfl⟩ := Option.map_eq_some_iff.mp h
  have hmem := List.mem_reverse.mp (List.mem_of_find?_eq_some hfind)
  exact ⟨row, hmem, by simpa using List.find?_some hfind, rfl⟩

theorem ne_of_nameAt? {rows : List LocalRow} {place : UInt16 × UInt16 × UInt16}
    (h : nameAt? rows place = none) : ∀ row ∈ rows, row.place ≠ place := by
  have hfind := List.find?_eq_none.mp (Option.map_eq_none_iff.mp h)
  exact fun row hrow hplace => hfind row (List.mem_reverse.mpr hrow) (decide_eq_true hplace)

theorem pairwise_openingRows (rows : List LocalRow) :
    (openingRows rows).Pairwise fun a b => a.slot ≠ b.slot := by
  induction rows with
  | nil => exact .nil
  | cons x rows ih =>
    rw [openingRows]
    split
    · refine List.pairwise_cons.mpr ⟨fun y hy => ?_, ih.filter _⟩
      have hne := (List.mem_filter.mp hy).2
      exact Ne.symm (by simpa using hne)
    · exact ih

end LocalRow

namespace Relabelling

variable {r : Relabelling} {method : NamedMethod}

/-- The candidate that a row makes, if its slot belongs to a parameter. -/
def candidate? (r : Relabelling) (method : NamedMethod) (row : LocalRow) :
    Except Fault (Option Candidate) :=
  match (r.slotTypes method).lookup row.slot with
  | none => .ok none
  | some type => do return some ⟨row.slot, ← r.source.text row.name, type⟩

theorem candidates_eq (rows : List LocalRow) :
    r.candidates method rows = (do
      let found ← (LocalRow.openingRows rows).filterMapM (r.candidate? method)
      return found.mergeSort fun a b => a.slot ≤ b.slot) := rfl

theorem candidate?_eq_some {row : LocalRow} {c : Candidate} :
    r.candidate? method row = .ok (some c) ↔ c.slot = row.slot ∧
      (r.slotTypes method).lookup row.slot = some c.type ∧
        r.source.text row.name = .ok c.rawName := by
  obtain ⟨slot, rawName, type⟩ := c
  unfold candidate?
  split
  · rename_i hnone
    simp [hnone]
  · rename_i found hsome
    simp only [hsome, Except.bind_eq_ok, Except.pure_eq_ok, Option.some.injEq, Candidate.mk.injEq]
    constructor
    · rintro ⟨name, hname, rfl, rfl, rfl⟩
      exact ⟨rfl, rfl, hname⟩
    · rintro ⟨rfl, rfl, hname⟩
      exact ⟨rawName, hname, rfl, rfl, rfl⟩

theorem exists_text_of_candidate? {row : LocalRow} {type : String} {o : Option Candidate}
    (htype : (r.slotTypes method).lookup row.slot = some type)
    (h : r.candidate? method row = .ok o) : ∃ name, r.source.text row.name = .ok name := by
  rw [candidate?, htype] at h
  obtain ⟨name, hname, -⟩ := Except.bind_eq_ok.mp h
  exact ⟨name, hname⟩

theorem pairwise_mergeSort_slot {cs : List Candidate}
    (h : cs.Pairwise fun a b => a.slot ≠ b.slot) :
    (cs.mergeSort fun a b => a.slot ≤ b.slot).Pairwise fun a b => a.slot < b.slot := by
  have hne : (cs.mergeSort fun a b => a.slot ≤ b.slot).Pairwise fun a b => a.slot ≠ b.slot :=
    ((List.mergeSort_perm cs _).pairwise_iff fun hab => Ne.symm hab).mpr h
  have hle : (cs.mergeSort fun a b => a.slot ≤ b.slot).Pairwise
      fun a b => decide (a.slot ≤ b.slot) = true := by
    refine List.pairwise_mergeSort (fun a b c hab hbc => ?_) (fun a b => ?_) cs
    · exact decide_eq_true (UInt16.le_trans (of_decide_eq_true hab) (of_decide_eq_true hbc))
    · simp [UInt16.le_total]
  exact hle.imp₂ (fun a b hab hne => UInt16.lt_of_le_of_ne (of_decide_eq_true hab) hne) hne

/-- The candidates are what the rows list of the slots that have a type, by slot. -/
theorem listed_of_candidates {rows : List LocalRow} {cs : List Candidate}
    (h : r.candidates method rows = .ok cs) :
    cs.Pairwise (fun a b => a.slot < b.slot) ∧
      (∀ c, c ∈ cs ↔ (r.slotTypes method).lookup c.slot = some c.type ∧
        ∃ row, rows.find? (fun row => row.start = 0 ∧ row.slot = c.slot) = some row ∧
          r.source.text row.name = .ok c.rawName) ∧
        ∀ row ∈ rows, row.start = 0 → ∀ type, (r.slotTypes method).lookup row.slot = some type →
          ∃ c ∈ cs, c.slot = row.slot := by
  rw [candidates_eq] at h
  obtain ⟨found, hfound, h⟩ := Except.bind_eq_ok.mp h
  obtain rfl := Except.pure_eq_ok.mp h
  have hdistinct : found.Pairwise fun a b => a.slot ≠ b.slot :=
    Except.pairwise_of_filterMapM hfound (LocalRow.pairwise_openingRows rows)
      fun a b y z hab hy hz => by
        rw [(candidate?_eq_some.mp hy).1, (candidate?_eq_some.mp hz).1]
        exact hab
  refine ⟨pairwise_mergeSort_slot hdistinct, fun c => ?_, fun row hrow hstart type htype => ?_⟩
  · rw [List.mem_mergeSort, Except.mem_of_filterMapM hfound]
    constructor
    · rintro ⟨row, hrow, hc⟩
      obtain ⟨hslot, htype, hname⟩ := candidate?_eq_some.mp hc
      rw [hslot]
      exact ⟨htype, row, LocalRow.mem_openingRows.mp hrow, hname⟩
    · rintro ⟨htype, row, hrow, hname⟩
      have hopening : row.start = 0 ∧ row.slot = c.slot := by simpa using List.find?_some hrow
      rw [← hopening.2] at hrow htype
      exact ⟨row, LocalRow.mem_openingRows.mpr hrow,
        candidate?_eq_some.mpr ⟨hopening.2.symm, htype, hname⟩⟩
  · obtain ⟨first, hfirst, hslot⟩ := LocalRow.exists_openingRow hrow hstart
    -- The traversal has succeeded for the row, and its slot belongs to a parameter.
    obtain ⟨o, ho⟩ := Except.exists_of_filterMapM hfound hfirst
    rw [← hslot] at htype
    obtain ⟨name, hname⟩ := exists_text_of_candidate? htype ho
    refine ⟨⟨first.slot, name, type⟩, List.mem_mergeSort.mpr ?_, hslot⟩
    exact (Except.mem_of_filterMapM hfound).mpr
      ⟨first, hfirst, candidate?_eq_some.mpr ⟨rfl, htype, hname⟩⟩

/-- The same as `NamedByRows` by the types that are found for the slots, which are those of the
parameters if these fit into the slots there are. -/
structure NamedByTypes (r : Relabelling) (method : NamedMethod) (used : UsedNames)
    (rows : List LocalRow) (ns : List (Candidate × Option String)) : Prop where
  sorted : ns.Pairwise fun a b => a.1.slot < b.1.slot
  listed : ∀ c, c ∈ ns.map Prod.fst ↔ (r.slotTypes method).lookup c.slot = some c.type ∧
    ∃ row, rows.find? (fun row => row.start = 0 ∧ row.slot = c.slot) = some row ∧
      r.source.text row.name = .ok c.rawName
  complete : ∀ row ∈ rows, row.start = 0 → ∀ type,
    (r.slotTypes method).lookup row.slot = some type → ∃ n ∈ ns, n.1.slot = row.slot
  named : NamedInTurn r.mappings r.dictionary method
    (method.reserved r.mappings (ns.map fun n => n.1.slot) used) ns

theorem namedByTypes_of_assign {rows : List LocalRow} {cs : List Candidate} {used used' : UsedNames}
    {names : List (Option String)} (hcs : r.candidates method rows = .ok cs)
    (hassign : r.assign method cs used = .ok names used') :
    r.NamedByTypes method used rows (cs.zip names) := by
  obtain ⟨hsorted, hlisted, hcomplete⟩ := listed_of_candidates hcs
  obtain ⟨hfst, -, hinTurn⟩ := namedInTurn_of_assign hassign
  refine ⟨?_, fun c => ?_, fun row hrow hstart type htype => ?_, hinTurn⟩
  · rw [← hfst, List.pairwise_map] at hsorted
    exact hsorted
  · rw [hfst]
    exact hlisted c
  · obtain ⟨c, hc, hslot⟩ := hcomplete row hrow hstart type htype
    rw [← hfst] at hc
    obtain ⟨n, hn, rfl⟩ := List.mem_map.mp hc
    exact ⟨n, hn, hslot⟩

theorem NamedByTypes.namedByRows {used : UsedNames} {rows : List LocalRow}
    {ns : List (Candidate × Option String)} (h : r.NamedByTypes method used rows ns)
    (howner : method.id.owner = r.owner) (hfits : method.Fits) :
    NamedByRows r.mappings r.dictionary method r.source used rows ns := by
  refine ⟨h.sorted, fun c => ?_, fun row hrow hstart type htype => ?_, h.named⟩
  · rw [h.listed, lookup_slotTypes howner hfits]
    exact ⟨fun ⟨hslot, hrow⟩ => ⟨hslot, hrow⟩, fun hc => ⟨hc.slot, hc.row⟩⟩
  · exact h.complete row hrow hstart type ((lookup_slotTypes howner hfits).mpr htype)

/-! ## Relabelling rows -/

/-- The pairs that names are looked up in. -/
def slotNames (ns : List (Candidate × Option String)) : List (UInt16 × String) :=
  ns.filterMap fun (c, name) => name.map (c.slot, ·)

theorem assigned?_eq_some {ns : List (Candidate × Option String)}
    (hns : ns.Pairwise fun a b => a.1.slot < b.1.slot) {row : LocalRow} {name : String} :
    assigned? (slotNames ns) row = some name ↔ row.Takes ns name := by
  have hdistinct : (slotNames ns).Pairwise fun x y => x.1 ≠ y.1 := by
    refine hns.filterMap _ fun a b hab x hx y hy => ?_
    obtain ⟨_, -, rfl⟩ := Option.map_eq_some_iff.mp hx
    obtain ⟨_, -, rfl⟩ := Option.map_eq_some_iff.mp hy
    exact UInt16.ne_of_lt hab
  have hmem : (row.slot, name) ∈ slotNames ns ↔ ∃ c, (c, some name) ∈ ns ∧ c.slot = row.slot := by
    simp only [slotNames, List.mem_filterMap, Option.map_eq_some_iff, Prod.mk.injEq, Prod.exists]
    constructor
    · rintro ⟨c, _, hc, _, rfl, hslot, rfl⟩
      exact ⟨c, hc, hslot⟩
    · rintro ⟨c, hc, hslot⟩
      exact ⟨c, some name, hc, name, rfl, hslot, rfl⟩
  unfold assigned? LocalRow.Takes
  split
  · rename_i hstart
    rw [List.lookup_eq_some_iff_mem hdistinct, hmem]
    simp [hstart]
  · rename_i hstart
    simp [hstart]

theorem assigned?_eq_none {ns : List (Candidate × Option String)}
    (hns : ns.Pairwise fun a b => a.1.slot < b.1.slot) {row : LocalRow} :
    assigned? (slotNames ns) row = none ↔ ∀ name, ¬row.Takes ns name := by
  rw [Option.eq_none_iff_forall_ne_some]
  exact forall_congr' fun name => not_congr (assigned?_eq_some hns)

variable (r : Relabelling) (final : Pool)

theorem yields_variableRow {ns : List (Candidate × Option String)}
    (hns : ns.Pairwise fun a b => a.1.slot < b.1.slot) (row : LocalRow) :
    Yields r final (row.RenamedVariable r.mappings r.source final ns)
      (r.variableRow (slotNames ns) row) := by
  refine yields_bind (yields_respelled r.mappings.renameDescriptor _) fun type => ?_
  split
  · rename_i hnone
    have hkept := (assigned?_eq_none hns).mp hnone
    exact yields_pure fun htype =>
      ⟨rfl, rfl, rfl, htype, fun name hname => absurd hname (hkept name), fun _ => rfl⟩
  · rename_i new hsome
    refine yields_bind (yields_redirect _ _) fun _ => yields_pure fun hnew htype =>
      ⟨rfl, rfl, rfl, htype, fun name hname => ?_, fun hnot => ?_⟩
    · obtain rfl := Option.some.inj (hsome.symm.trans ((assigned?_eq_some hns).mpr hname))
      exact hnew
    · exact absurd ((assigned?_eq_some hns).mp hsome) (hnot new)

/-- What a row of generic types becomes beside the rows `named`. -/
structure TypedBeside (named : List LocalRow) (old new : LocalRow) : Prop where
  start : new.start = old.start
  length : new.length = old.length
  slot : new.slot = old.slot
  signature : Respelled r.source final r.mappings.renameSignature old.descriptor new.descriptor
  name : new.name = (LocalRow.nameAt? named old.place).getD old.name

theorem yields_typeRow (named : List LocalRow) (row : LocalRow) :
    Yields r final (r.TypedBeside final named row) (r.typeRow named row) :=
  yields_bind (yields_respelled r.mappings.renameSignature _) fun _ => yields_pure fun htype =>
    ⟨rfl, rfl, rfl, htype, rfl⟩

theorem yields_variableTable {ns : List (Candidate × Option String)}
    (hns : ns.Pairwise fun a b => a.1.slot < b.1.slot) (a : BodyAttribute) :
    Yields r final (RelatedTables
      (List.Forall₂ (LocalRow.RenamedVariable r.mappings r.source final ns)) Eq a)
      (r.variableTable (slotNames ns) a) := by
  cases a with
  | locals name rows =>
    exact yields_bind (yields_mapM (r.yields_variableRow final hns) rows) fun _ =>
      yields_pure (.locals name)
  | localTypes name rows => exact yields_pure (.localTypes name rfl)
  | other a => exact yields_pure (.other a)

theorem yields_typeTable (named : List LocalRow) (a : BodyAttribute) :
    Yields r final (RelatedTables Eq (List.Forall₂ (r.TypedBeside final named)) a)
      (r.typeTable named a) := by
  cases a with
  | locals name rows => exact yields_pure (.locals name rfl)
  | localTypes name rows =>
    exact yields_bind (yields_mapM (r.yields_typeRow final named) rows) fun _ =>
      yields_pure (.localTypes name)
  | other a => exact yields_pure (.other a)

/-! ## Relabelling a body -/

/-- A row of generic types takes the name of the last named variable in its place, and all that
are named there have the same name. -/
theorem renamedType_of_beside {ns : List (Candidate × Option String)}
    (hns : ns.Pairwise fun a b => a.1.slot < b.1.slot) {rows rows' : List LocalRow}
    (hrows : List.Forall₂ (LocalRow.RenamedVariable r.mappings r.source final ns) rows rows')
    {old new : LocalRow}
    (h : r.TypedBeside final (rows'.filter fun row => (assigned? (slotNames ns) row).isSome) old
      new) : old.RenamedType r.mappings r.source final rows ns new := by
  have hplace : ∀ row : LocalRow, row.place = old.place → ∀ name,
      row.Takes ns name ↔ old.Takes ns name := by
    intro row hrow name
    simp only [LocalRow.place, Prod.mk.injEq] at hrow
    rw [LocalRow.Takes, LocalRow.Takes, hrow.1, hrow.2.2]
  have hmoved : ∀ row row' : LocalRow,
      row.RenamedVariable r.mappings r.source final ns row' → row'.place = row.place := by
    intro row row' hrow
    rw [LocalRow.place, LocalRow.place, hrow.start, hrow.length, hrow.slot]
  have hname := h.name
  cases hfound : LocalRow.nameAt? (rows'.filter fun row => (assigned? (slotNames ns) row).isSome)
      old.place with
  | some i =>
    obtain ⟨row', hmem, hat, rfl⟩ := LocalRow.exists_of_nameAt? hfound
    obtain ⟨hmem, htaken⟩ := List.mem_filter.mp hmem
    obtain ⟨taken, htaken⟩ := Option.isSome_iff_exists.mp htaken
    obtain ⟨row, hrow, hrenamed⟩ := hrows.exists_of_mem_right hmem
    have hrowAt : row.place = old.place := (hmoved row row' hrenamed).symm.trans hat
    have hold : old.Takes ns taken := (hplace row' hat taken).mp ((assigned?_eq_some hns).mp htaken)
    rw [hfound, Option.getD_some] at hname
    refine ⟨h.start, h.length, h.slot, h.signature, fun name htakes _ => ?_, fun hnot => ?_⟩
    · have heq := ((assigned?_eq_some hns).mpr htakes).symm.trans ((assigned?_eq_some hns).mpr hold)
      obtain rfl := Option.some.inj heq
      rw [hname]
      exact hrenamed.named name ((hplace row hrowAt name).mpr hold)
    · exact absurd hrowAt (hnot taken hold row hrow)
  | none =>
    rw [hfound, Option.getD_none] at hname
    refine ⟨h.start, h.length, h.slot, h.signature, fun name htakes ⟨row, hrow, hat⟩ => ?_,
      fun _ => hname⟩
    -- The variable in this place is among the named ones, so it would have been found.
    obtain ⟨row', hmem, hrenamed⟩ := hrows.exists_of_mem_left hrow
    have hat' : row'.place = old.place := (hmoved row row' hrenamed).trans hat
    have hassigned := (assigned?_eq_some hns).mpr ((hplace row' hat' name).mpr htakes)
    exact absurd hat' (LocalRow.ne_of_nameAt? hfound row'
      (List.mem_filter.mpr ⟨hmem, by rw [hassigned]; rfl⟩))

theorem variableRows_of_bodyAttribute {a : Attribute} {b : BodyAttribute}
    (h : r.bodyAttribute a = .ok b) : a.variableRows r.source = .ok b.variableRows := by
  obtain ⟨name, hname, h⟩ := Except.bind_eq_ok.mp h
  refine Except.bind_eq_ok.mpr ⟨name, hname, ?_⟩
  split at h
  · obtain ⟨rows, hrows, h⟩ := Except.bind_eq_ok.mp h
    obtain rfl := Except.pure_eq_ok.mp h
    simpa [BodyAttribute.variableRows] using hrows
  · obtain ⟨rows, hrows, h⟩ := Except.bind_eq_ok.mp h
    obtain rfl := Except.pure_eq_ok.mp h
    rfl
  · rename_i hne _
    obtain rfl := Except.pure_eq_ok.mp h
    rw [if_neg hne]
    rfl

theorem variableRows_of_bodies {c : Code} {bodies : List BodyAttribute}
    (h : List.Forall₂ (fun a b => r.bodyAttribute a = .ok b) c.attributes bodies) :
    c.variableRows r.source = .ok (bodies.flatMap BodyAttribute.variableRows) := by
  have hrows : c.attributes.mapM (Attribute.variableRows r.source) =
      .ok (bodies.map BodyAttribute.variableRows) := by
    rw [Except.mapM_eq_ok, List.forall₂_map_right_iff]
    exact h.imp fun a b => r.variableRows_of_bodyAttribute
  exact Except.bind_eq_ok.mpr ⟨_, hrows, by rw [List.flatMap_def]; rfl⟩

/-- The variables of all tables, when the tables are related one by one. -/
theorem forall₂_variableRows {V : LocalRow → LocalRow → Prop} {bodies bodies' : List BodyAttribute}
    (h : List.Forall₂ (RelatedTables (List.Forall₂ V) Eq) bodies bodies') :
    List.Forall₂ V (bodies.flatMap BodyAttribute.variableRows)
      (bodies'.flatMap BodyAttribute.variableRows) := by
  induction h with
  | nil => exact .nil
  | cons hfirst _ ih =>
    rw [List.flatMap_cons, List.flatMap_cons]
    refine List.rel_append ?_ ih
    cases hfirst with
    | locals name h => exact h
    | localTypes => exact .nil
    | other => exact .nil

theorem RelatedTables.imp {V T T' : List LocalRow → List LocalRow → Prop} {a b : BodyAttribute}
    (h : RelatedTables V T a b) (himp : ∀ rows rows', T rows rows' → T' rows rows') :
    RelatedTables V T' a b := by
  cases h with
  | locals name h => exact .locals name h
  | localTypes name h => exact .localTypes name (himp _ _ h)
  | other a => exact .other a

/-- What becomes of a body, whatever slots there are. -/
theorem yields_namedCode (method : NamedMethod) (used : UsedNames) (c : Code) :
    Yields r final (fun new => ∃ rows ns, c.variableRows r.source = .ok rows ∧
      r.NamedByTypes method used rows ns ∧
        List.Forall₂ (Attribute.Kept r.source (RelatedInBody
          (List.Forall₂ (LocalRow.RenamedVariable r.mappings r.source final ns))
          (List.Forall₂ (LocalRow.RenamedType r.mappings r.source final rows ns))))
          c.attributes new.1.attributes) (r.code method c used) := by
  refine yields_bind (yields_mapM (fun a => yields_look (r.bodyAttribute a)) _) fun bodies => ?_
  refine yields_lift fun cs hcs => yields_lift fun ⟨assigned, used'⟩ hassigned => ?_
  have hnaming := namedByTypes_of_assign hcs (NamesM.outcome_eq_ok.mp hassigned)
  refine yields_bind (yields_mapM (r.yields_variableTable final hnaming.sorted) _) fun _ => ?_
  refine yields_bind (yields_mapM (r.yields_typeTable final _) _) fun _ => ?_
  refine yields_bind (yields_mapM (fun a => yields_look (BodyAttribute.toAttribute a)) _)
    fun _ => yields_pure fun hattributes htypes hvariables hbodies =>
      ⟨_, _, r.variableRows_of_bodies hbodies, hnaming, ?_⟩
  have hrows := forall₂_variableRows hvariables
  have hsteps := List.forall₂_comp hbodies (List.forall₂_comp hvariables
    (List.forall₂_comp htypes hattributes))
  refine hsteps.imp fun a b ⟨old, hold, middle, hmiddle, new, hnew, hb⟩ => ?_
  refine r.related_of_tables hold ((hmiddle.trans hnew).imp fun rows rows' h => ?_) hb
  exact h.imp fun row row' => r.renamedType_of_beside final hnaming.sorted hrows

theorem yields_code {method : NamedMethod} (howner : method.id.owner = r.owner)
    (hfits : method.Fits) (used : UsedNames) (c : Code) :
    Yields r final (fun new => c.RenamedVariables r.mappings r.dictionary method r.source final
      used new.1) (r.code method c used) :=
  (r.yields_namedCode final method used c).imp fun _ ⟨rows, ns, hrows, hnaming, hattributes⟩ =>
    ⟨rows, ns, hrows, hnaming.namedByRows howner hfits, hattributes⟩

/-! ## Methods -/

theorem find?_cons {p : Pool} {name found : String} {a : Attribute} {rest : List Attribute}
    (h : p.text a.name = .ok found) : Attribute.find? p name (a :: rest) =
      if found = name then .ok (some a) else Attribute.find? p name rest := by
  rw [Attribute.find?, h]
  rfl

/-- The first body among the attributes of a method.  Its parameters are named first. -/
theorem yields_body {R : Code → Code → Prop} (hsource : Revises r.source final)
    (method : NamedMethod) (used : UsedNames)
    (hcode : ∀ c, Yields r final (fun new => R c new.1) (r.code method c used))
    (as : List Attribute) :
    Yields r final (fun as' => ∀ a, Attribute.find? r.source "Code" as = .ok (some a) →
      ∃ a', Attribute.find? final "Code" as' = .ok (some a') ∧
        SamePayload Code.codec R a.payload a'.payload) (r.methodAttributes method as used) := by
  induction as with
  | nil => exact yields_pure fun a h => by simp [Attribute.find?] at h
  | cons first rest ih =>
    refine yields_lift fun name hname => ?_
    split
    · rename_i hbody
      subst hbody
      refine yields_lift fun code hdecode => yields_bind (hcode code) fun new =>
        yields_lift fun bs hbs =>
          yields_bind (yields_any (r.keeps_methodAttributes method rest new.2)) fun _ =>
            yields_pure fun _ hnew a ha => ?_
      rw [find?_cons hname, if_pos rfl] at ha
      obtain rfl := Option.some.inj (Except.ok.inj ha)
      have hname' : final.text (Attribute.mk first.name bs).name = .ok "Code" :=
        hsource.text hname
      refine ⟨⟨first.name, bs⟩, ?_, code, new.1, hdecode, ?_, hnew⟩
      · rw [find?_cons hname', if_pos rfl]
      · exact Code.faithful_codec.faithfulOn.decode_eq_ok trivial hbs
    · rename_i hother
      refine yields_bind (r.yields_declared final first) fun new => yields_bind ih fun others =>
        yields_pure fun hothers hnew a ha => ?_
      rw [find?_cons hname, if_neg hother] at ha
      obtain ⟨a', ha', hpayload⟩ := hothers a ha
      have hname' : final.text new.name = .ok name := by
        rw [hnew.name]
        exact hsource.text hname
      exact ⟨a', by rw [find?_cons hname', if_neg hother, ha'], hpayload⟩

theorem yields_renamedBody (hsource : Revises r.source final) (old : Member) :
    Yields r final (fun new =>
      old.RenamedBody r.mappings r.dictionary r.owner r.source final new.1) (r.method old) := by
  refine (r.yields_method final (P := fun as' =>
    ∃ method, old.NamedAs r.mappings r.owner r.source method ∧
      (FieldType.totalSlots method.parameters < 0x10000 → old.hasBody = true →
        RenamedBodies r.mappings r.dictionary method r.source final old.attributes as')) old
    fun method used hnamed hused => ?_).imp fun new h => h.2.2
  have hgrows := r.keeps_methodAttributes method old.attributes used
  refine (yields_of_imp hgrows fun htotal => yields_of_imp hgrows fun hbody => ?_).imp
    fun _ h => ⟨method, hnamed, h⟩
  rw [hused hbody]
  exact r.yields_body final hsource method .empty
    (r.yields_code final hnamed.owner (hnamed.fits htotal) .empty) old.attributes

end Relabelling

namespace ClassFile

open Relabelling

/-- A run that succeeds names the variables of every method by its parameters. -/
theorem variables_of_relabel {bs : Bytes} {c : ClassFile} {m : Mappings} {d : Option Dictionary}
    {out : RelabelledClass} (hparse : parse bs = .ok c) (h : c.relabel m d = .ok out) :
    ∃ owner new, c.name = .ok owner ∧ parse out.bytes = .ok new ∧
      (∀ i text, c.pool.text i = .ok text → new.pool.text i = .ok text) ∧
      List.Forall₂ (Member.RenamedBody m d owner c.pool new.pool) c.methods new.methods := by
  obtain ⟨r, new, hr, -, hnew, hrelabelled⟩ :=
    relabelled_of_relabel (storable_of_parse hparse) h
  have hrevises := hrelabelled.underway.revises
  refine ⟨r.owner, new, hr.name, hnew, fun i text htext => hrelabelled.text htext, ?_⟩
  rw [← hr.source, ← hr.mappings, ← hr.dictionary]
  exact hrelabelled.methods.imp fun old new' ⟨report, hmade⟩ =>
    hmade.of_yields (r.yields_renamedBody _ hrevises old)

end ClassFile

/-! ## A parameter of type `This`

The class `A` has a method with a receiver and one parameter.  Without mappings and with a
dictionary that has no rules the parameter is called `this` after its type, as the receiver is. -/

namespace ReceiverType

/-- A body in whose table of variables `name` is the index of the name of the parameter. -/
def body (name : UInt8) : Bytes :=
  [0, 0, 0, 2, 0, 0, 0, 1, 177, 0, 0, 0, 1, 0, 6, 0, 0, 0, 22, 0, 2, 0, 0, 0, 1, 0, 7, 0, 8, 0, 0,
    0, 0, 0, 1, 0, name, 0, 10, 0, 1]

def bytes (name : UInt8) : Bytes :=
  [0xCA, 0xFE, 0xBA, 0xBE, 0, 0, 0, 52, 0, 11, 1, 0, 1, 65, 7, 0, 1, 1, 0, 1, 109, 1, 0, 9, 40, 76,
    84, 104, 105, 115, 59, 41, 86, 1, 0, 4, 67, 111, 100, 101, 1, 0, 18, 76, 111, 99, 97, 108, 86,
    97, 114, 105, 97, 98, 108, 101, 84, 97, 98, 108, 101, 1, 0, 4, 116, 104, 105, 115, 1, 0, 3, 76,
    65, 59, 1, 0, 1, 112, 1, 0, 6, 76, 84, 104, 105, 115, 59, 0, 0, 0, 2, 0, 0, 0, 0, 0, 0, 0, 1,
    0, 0, 0, 3, 0, 4, 0, 1, 0, 5, 0, 0, 0, 41] ++ body name ++ [0, 0]

def texts : List (String × Index) :=
  [("A", 1), ("m", 3), ("(LThis;)V", 4), ("Code", 5), ("LocalVariableTable", 6), ("this", 7),
    ("LA;", 8), ("p", 9), ("LThis;", 10)]

def pool : Pool where
  slots := #[.unusable, .utf8 "A", .classRef 1, .utf8 "m", .utf8 "(LThis;)V", .utf8 "Code",
    .utf8 "LocalVariableTable", .utf8 "this", .utf8 "LA;", .utf8 "p", .utf8 "LThis;"]
  texts := .ofList texts compare
  classes := {(1, 2)}
  pairs := ∅

def method (name : UInt8) : Member := ⟨⟨0⟩, 3, 4, [⟨5, body name⟩]⟩

def classFile (name : UInt8) : ClassFile :=
  ⟨⟨52, 0⟩, pool, ⟨0⟩, 2, 0, [], [], [method name], []⟩

def relabelled : RelabelledClass := ⟨"A", "A", bytes 7, []⟩

def rows (name : UInt8) : List LocalRow := [⟨0, 1, 7, 8, 0⟩, ⟨0, 1, name.toUInt16, 10, 1⟩]

def code (name : UInt8) : Code :=
  ⟨0, 2, [177], [], [⟨6, [0, 2, 0, 0, 0, 1, 0, 7, 0, 8, 0, 0, 0, 0, 0, 1, 0, name, 0, 10, 0, 1]⟩]⟩

def named : NamedMethod := ⟨⟨"A", "m", "(LThis;)V"⟩, false, [⟨.object "This", 0⟩]⟩

def relabelling : Relabelling := ⟨.empty, some ⟨[]⟩, pool, "A", []⟩

theorem parse_bytes : ClassFile.parse (bytes 9) = .ok (classFile 9) := by decide +kernel

/-- The rows come by slot, so sorting leaves them as they are. -/
theorem candidates_rows : relabelling.candidates named (rows 9) =
    .ok [⟨0, "this", "LA;"⟩, ⟨1, "p", "LThis;"⟩] := by
  have hfound : (LocalRow.openingRows (rows 9)).filterMapM (relabelling.candidate? named) =
      .ok [⟨0, "this", "LA;"⟩, ⟨1, "p", "LThis;"⟩] := by decide +kernel
  rw [Relabelling.candidates_eq, hfound]
  exact congrArg Except.ok (List.mergeSort_of_pairwise (by decide))

theorem code_body :
    relabelling.code named (code 9) .empty pool = .ok (code 7, ⟨["this"]⟩) pool := by
  refine bind_eq_ok.mpr ⟨[.locals 6 (rows 9)], pool, by decide +kernel, ?_⟩
  refine bind_eq_ok.mpr ⟨_, pool, lift_eq_ok.mpr ⟨candidates_rows, rfl⟩, ?_⟩
  decide +kernel

theorem methodAttributes_body : relabelling.methodAttributes named [⟨5, body 9⟩] .empty pool =
    .ok [⟨5, body 7⟩] pool := by
  refine bind_eq_ok.mpr ⟨"Code", pool, by decide +kernel, ?_⟩
  rw [if_pos rfl]
  refine bind_eq_ok.mpr ⟨code 9, pool, by decide +kernel, ?_⟩
  exact bind_eq_ok.mpr ⟨_, pool, code_body, by decide +kernel⟩

theorem method_body : relabelling.method (method 9) pool = .ok (method 7, none) pool := by
  refine bind_eq_ok.mpr ⟨"m", pool, by decide +kernel, ?_⟩
  refine bind_eq_ok.mpr ⟨"(LThis;)V", pool, by decide +kernel, ?_⟩
  refine bind_eq_ok.mpr ⟨⟨"m", "(LThis;)V"⟩, pool, by decide +kernel, ?_⟩
  refine bind_eq_ok.mpr
    ⟨⟨[⟨.object "This", 0⟩], ⟨.primitive .void, 0⟩⟩, pool, by decide +kernel, ?_⟩
  refine bind_eq_ok.mpr ⟨(none, .empty), pool, by decide +kernel, ?_⟩
  exact bind_eq_ok.mpr ⟨_, pool, methodAttributes_body, by decide +kernel⟩

theorem parts_classFile : relabelling.parts (classFile 9) pool = .ok (classFile 7, []) pool := by
  refine bind_eq_ok.mpr ⟨(), pool, by decide +kernel, ?_⟩
  refine bind_eq_ok.mpr ⟨[], pool, by decide +kernel, ?_⟩
  refine bind_eq_ok.mpr ⟨[(method 7, none)], pool, ?_, by decide +kernel⟩
  exact bind_eq_ok.mpr ⟨_, pool, method_body, rfl⟩

theorem relabel_classFile :
    (classFile 9).relabel .empty (some ⟨[]⟩) = .ok relabelled := by
  have hr : (classFile 9).relabelling .empty (some ⟨[]⟩) = .ok relabelling :=
    Except.bind_eq_ok.mpr ⟨"A", by decide +kernel,
      Except.bind_eq_ok.mpr ⟨none, by decide +kernel, rfl⟩⟩
  have hnew : (classFile 9).relabelled .empty (some ⟨[]⟩) = .ok (classFile 7, []) := by
    refine Except.bind_eq_ok.mpr ⟨relabelling, hr, ?_⟩
    have hparts : relabelling.parts (classFile 9) (classFile 9).pool = .ok (classFile 7, []) pool :=
      parts_classFile
    rw [hparts]
    rfl
  exact Except.bind_eq_ok.mpr ⟨"A", by decide +kernel,
    Except.bind_eq_ok.mpr ⟨_, hnew, by decide +kernel⟩⟩

end ReceiverType

namespace ClassFile

theorem variables_of_relabel_receiverType :
    parse (ReceiverType.bytes 9) = .ok (ReceiverType.classFile 9) ∧
      (ReceiverType.classFile 9).relabel .empty (some ⟨[]⟩) = .ok ReceiverType.relabelled ∧
      ∃ owner new, (ReceiverType.classFile 9).name = .ok owner ∧
        parse ReceiverType.relabelled.bytes = .ok new ∧
        (∀ i text, ReceiverType.pool.text i = .ok text → new.pool.text i = .ok text) ∧
        List.Forall₂ (Member.RenamedBody .empty (some ⟨[]⟩) owner ReceiverType.pool new.pool)
          [ReceiverType.method 9] new.methods :=
  ⟨ReceiverType.parse_bytes, ReceiverType.relabel_classFile,
    variables_of_relabel ReceiverType.parse_bytes ReceiverType.relabel_classFile⟩

end ClassFile
end ClassRelabel
