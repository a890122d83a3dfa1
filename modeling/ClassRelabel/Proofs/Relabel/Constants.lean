/-
The constants of a relabelled class.

`Renames r q old new` says that `new` means in the pool `q` what `old` meant before, under its new
name.  One step of the pass over the constants establishes it for its own constant and keeps it
for all others, because texts and names with descriptors never change; so in the end it holds of
every constant (`underway_constants`).
-/
import ClassRelabel.Proofs.Relabel.Growth

namespace ClassRelabel

open Pool

namespace Pool

/-- The listed constants are those at usable indices. -/
theorem mem_toList {p : Pool} (hp : p.WellLaid) {e : Index × Constant} :
    e ∈ p.toList ↔ p.slots[e.1.toNat]? = some e.2 ∧ e.2 ≠ .unusable := by
  obtain ⟨i, c⟩ := e
  simp only [toList, List.mem_filterMap, Prod.exists, List.mem_zipIdx_iff_getElem?,
    Array.getElem?_toList]
  constructor
  · rintro ⟨d, j, hd, h⟩
    split at h
    · simp at h
    · rename_i hu
      obtain ⟨rfl, rfl⟩ := Prod.mk.inj (Option.some.inj h)
      rw [hp.toNat_index hd]
      exact ⟨hd, hu⟩
  · rintro ⟨hc, hu⟩
    refine ⟨c, i.toNat, hc, ?_⟩
    rw [if_neg hu, UInt16.ofNat_toNat]

/-- A change in place that is a revision keeps a pool well formed. -/
theorem WellFormed.of_revises {p q : Pool} (hp : p.WellFormed) (h : Revises p q)
    (hsize : q.slots.size = p.slots.size) (htexts : q.texts = p.texts)
    (hpairs : q.pairs = p.pairs) : q.WellFormed := by
  -- The slots correspond one to one, so what stands in `q` is a revision of something in `p`.
  have hback : ∀ (j : Nat) (d : Constant), q.slots[j]? = some d →
      ∃ c, p.slots[j]? = some c ∧ c.frame = d.frame := by
    intro j d hd
    have hlt := lt_size_of_getElem? hd
    rw [hsize] at hlt
    obtain ⟨e, he, hframe⟩ := h j _ (Array.getElem?_eq_getElem hlt)
    rw [hd] at he
    rw [← Option.some.inj he] at hframe
    exact ⟨_, Array.getElem?_eq_getElem hlt, hframe.symm⟩
  have hsame : ∀ (j : Nat) (d : Constant), q.slots[j]? = some d → d.isReference = false →
      p.slots[j]? = some d := by
    intro j d hd hkept
    obtain ⟨c, hc, hframe⟩ := hback j d hd
    rw [hc, Constant.eq_of_frame_eq hframe hkept]
  refine ⟨⟨?_, h.slot hp.zero rfl, ?_, ?_, ?_⟩, ⟨?_, ?_⟩⟩
  · show q.slots.size < 0x10000
    rw [hsize]
    exact hp.count_lt
  · intro j d hd hw
    obtain ⟨c, hc, hframe⟩ := hback j d hd
    rw [← Constant.isWide_eq_of_frame_eq hframe] at hw
    exact h.slot (hp.wide j c hc hw) rfl
  · intro j hj
    obtain ⟨d, hd, hw⟩ := hp.usable j (hsame _ _ hj rfl)
    obtain ⟨e, he, hframe⟩ := h j d hd
    exact ⟨e, he, by rwa [Constant.isWide_eq_of_frame_eq hframe]⟩
  · intro j bs hj
    exact hp.raw j bs (hsame _ _ hj rfl)
  · intro s i hs
    rw [htexts] at hs
    exact h.slot (hp.texts s i hs) rfl
  · intro a b i hab
    rw [hpairs] at hab
    exact h.slot (hp.pairs a b i hab) rfl

theorem replace_eq_ok {i : Index} {c : Constant} {p q : Pool} {u : Unit}
    (h : replace i c p = .ok u q) :
    (p.recordReference i c).texts = q.texts ∧ (p.recordReference i c).pairs = q.pairs ∧
      q.slots = p.slots.setIfInBounds i.toNat c := by
  obtain ⟨old, -, -, rfl⟩ := exists_of_replace h
  exact ⟨rfl, rfl, rfl⟩

theorem replace_tables {i : Index} {c : Constant} {p q : Pool} {u : Unit}
    (h : replace i c p = .ok u q) (hc : c.isReference = true) :
    q.texts = p.texts ∧ q.pairs = p.pairs := by
  obtain ⟨htexts, hpairs, -⟩ := replace_eq_ok h
  rw [← htexts, ← hpairs]
  cases c <;> first | exact ⟨rfl, rfl⟩ | simp [Constant.isReference] at hc

end Pool

namespace Relabelling

variable {r : Relabelling} {p q : Pool}

theorem text_redirect {i j : Index} {new : String} (h : r.redirect i new p = .ok j q)
    (hp : p.WellFormed) (hsource : Revises r.source p) : q.text j = .ok new := by
  obtain ⟨s, u, hlift, h⟩ := EStateM.bind_eq_ok.mp h
  obtain ⟨hs, rfl⟩ := lift_eq_ok.mp hlift
  split at h
  · rename_i heq
    obtain ⟨rfl, rfl⟩ := EStateM.pure_eq_ok.mp h
    rw [← heq]
    exact hsource.text hs
  · exact text_internText h hp.toSound

theorem namedType_redirectPair {i j : Index} {new : NamedType}
    (h : r.redirectPair i new p = .ok j q) (hp : p.WellFormed) (hsource : Revises r.source p) :
    q.namedType j = .ok new := by
  obtain ⟨t, u, hlift, h⟩ := EStateM.bind_eq_ok.mp h
  obtain ⟨ht, rfl⟩ := lift_eq_ok.mp hlift
  split at h
  · rename_i heq
    obtain ⟨rfl, rfl⟩ := EStateM.pure_eq_ok.mp h
    rw [← heq]
    exact hsource.namedType ht
  · exact namedType_internPair h hp

/-! ## One constant -/

/-- `new` means in `q` what `old` meant in the pool before, under its new name. -/
inductive Renames (r : Relabelling) (q : Pool) : Constant → Constant → Prop
  | classRef {i j : Index} {name : String} (old : r.source.text i = .ok name)
      (new : q.text j = .ok (r.mappings.renameClass name)) :
      Renames r q (.classRef i) (.classRef j)
  | member {kind : MemberKind} {owner i j : Index} {ownerName : String} {named renamed : NamedType}
      (owned : r.source.className owner = .ok ownerName)
      (old : r.source.namedType i = .ok named)
      (mapped : r.memberType kind ownerName named = .ok renamed)
      (new : q.namedType j = .ok renamed) :
      Renames r q (.member kind owner i) (.member kind owner j)
  | methodType {i j : Index} {descriptor renamed : String}
      (old : r.source.text i = .ok descriptor)
      (mapped : r.mappings.renameMethodType descriptor = .ok renamed)
      (new : q.text j = .ok renamed) : Renames r q (.methodType i) (.methodType j)
  | dynamic {bootstrap : UInt16} {i j : Index} {named : NamedType} {renamed : String}
      (old : r.source.namedType i = .ok named)
      (mapped : r.mappings.renameDescriptor named.descriptor = .ok renamed)
      (new : q.namedType j = .ok ⟨named.name, renamed⟩) :
      Renames r q (.dynamic bootstrap i) (.dynamic bootstrap j)
  | invokeDynamic {bootstrap : UInt16} {i j : Index} {named : NamedType} {name renamed : String}
      (old : r.source.namedType i = .ok named)
      (site : r.callSiteName bootstrap named = .ok name)
      (mapped : r.mappings.renameMethodType named.descriptor = .ok renamed)
      (new : q.namedType j = .ok ⟨name, renamed⟩) :
      Renames r q (.invokeDynamic bootstrap i) (.invokeDynamic bootstrap j)
  | same {c : Constant} (h : c.isReference = false) : Renames r q c c

theorem Renames.frame_eq {old new : Constant} (h : Renames r q old new) :
    new.frame = old.frame := by
  cases h <;> rfl

/-- Only references are changed at all. -/
theorem Renames.isReference {old new : Constant} (h : Renames r q old new) (hne : new ≠ old) :
    new.isReference = true := by
  cases h <;> first | rfl | exact absurd rfl hne

theorem Renames.revise {old new : Constant} (h : Renames r p old new) (hrev : Revises p q) :
    Renames r q old new := by
  cases h with
  | classRef old new => exact .classRef old (hrev.text new)
  | member owned old mapped new => exact .member owned old mapped (hrev.namedType new)
  | methodType old mapped new => exact .methodType old mapped (hrev.text new)
  | dynamic old mapped new => exact .dynamic old mapped (hrev.namedType new)
  | invokeDynamic old site mapped new => exact .invokeDynamic old site mapped (hrev.namedType new)
  | same h => exact .same h

theorem renames_of_constant {old new : Constant} (h : r.constant old p = .ok new q)
    (hp : p.WellFormed) (hsource : Revises r.source p) : Renames r q old new := by
  cases old with
  | classRef i =>
    simp only [constant, EStateM.bind_eq_ok, lift_eq_ok, EStateM.pure_eq_ok] at h
    obtain ⟨name, _, ⟨hname, rfl⟩, j, _, hj, rfl, rfl⟩ := h
    exact .classRef hname (text_redirect hj hp hsource)
  | member kind owner i =>
    simp only [constant, EStateM.bind_eq_ok, lift_eq_ok, EStateM.pure_eq_ok] at h
    obtain ⟨ownerName, _, ⟨howner, rfl⟩, named, _, ⟨hnamed, rfl⟩, renamed, _, ⟨hmapped, rfl⟩, j, _,
      hj, rfl, rfl⟩ := h
    exact .member howner hnamed hmapped (namedType_redirectPair hj hp hsource)
  | methodType i =>
    simp only [constant, EStateM.bind_eq_ok, lift_eq_ok, EStateM.pure_eq_ok] at h
    obtain ⟨descriptor, _, ⟨hdescriptor, rfl⟩, renamed, _, ⟨hmapped, rfl⟩, j, _, hj, rfl, rfl⟩ := h
    exact .methodType hdescriptor hmapped (text_redirect hj hp hsource)
  | dynamic bootstrap i =>
    simp only [constant, EStateM.bind_eq_ok, lift_eq_ok, EStateM.pure_eq_ok] at h
    obtain ⟨named, _, ⟨hnamed, rfl⟩, renamed, _, ⟨hmapped, rfl⟩, j, _, hj, rfl, rfl⟩ := h
    exact .dynamic hnamed hmapped (namedType_redirectPair hj hp hsource)
  | invokeDynamic bootstrap i =>
    simp only [constant, EStateM.bind_eq_ok, lift_eq_ok, EStateM.pure_eq_ok] at h
    obtain ⟨named, _, ⟨hnamed, rfl⟩, name, _, ⟨hsite, rfl⟩, renamed, _, ⟨hmapped, rfl⟩, j, _, hj,
      rfl, rfl⟩ := h
    exact .invokeDynamic hnamed hsite hmapped (namedType_redirectPair hj hp hsource)
  | _ =>
    obtain ⟨rfl, rfl⟩ := EStateM.pure_eq_ok.mp h
    exact .same rfl

/-! ## The pass over all constants -/

/-- The slot `j` holds what `old` is renamed to. -/
def Placed (r : Relabelling) (q : Pool) (j : Nat) (old : Constant) : Prop :=
  ∃ new, q.slots[j]? = some new ∧ Renames r q old new

theorem Placed.extend {j : Nat} {old : Constant} (h : Placed r p j old) (hext : Extends p q) :
    Placed r q j old := by
  obtain ⟨new, hnew, hrenames⟩ := h
  exact ⟨new, hext j new hnew, hrenames.revise hext.revises⟩

/-- The pool during the pass: every constant of the pool before is renamed or still as it was. -/
structure Underway (r : Relabelling) (p : Pool) : Prop where
  wellFormed : p.WellFormed
  revises : Revises r.source p
  adds : AddsNames r.source p
  partly : ∀ (j : Nat) (old : Constant), r.source.slots[j]? = some old →
    p.slots[j]? = some old ∨ Placed r p j old

/-- What was renamed in `p` is renamed in `q`. -/
def KeepsPlaced (r : Relabelling) (p q : Pool) : Prop :=
  ∀ (j : Nat) (old : Constant), r.source.slots[j]? = some old → Placed r p j old → Placed r q j old

theorem Underway.grow (h : Underway r p) (hgrows : Grows p q) :
    Underway r q ∧ KeepsPlaced r p q := by
  refine ⟨⟨hgrows.wellFormed h.wellFormed, h.revises.trans hgrows.keeps.revises,
    h.adds.trans hgrows.keeps.revises hgrows.adds, fun j old hold => ?_⟩,
    fun j old _ hplaced => hplaced.extend hgrows.keeps⟩
  rcases h.partly j old hold with hsame | hplaced
  · exact Or.inl (hgrows.keeps j old hsame)
  · exact Or.inr (hplaced.extend hgrows.keeps)

theorem Underway.replace {i : Index} {old new : Constant} {u : Unit} (h : Underway r p)
    (hold : r.source.slots[i.toNat]? = some old) (hrenames : Renames r p old new)
    (hne : new ≠ old) (hreplace : Pool.replace i new p = .ok u q) :
    Underway r q ∧ Placed r q i.toNat old ∧ KeepsPlaced r p q := by
  obtain ⟨d, hd, hframe⟩ := h.revises i.toNat old hold
  obtain ⟨htexts, hpairs⟩ := replace_tables hreplace (hrenames.isReference hne)
  have hslots := (replace_eq_ok hreplace).2.2
  have hself : q.slots[i.toNat]? = some new := by
    rw [hslots, Array.getElem?_setIfInBounds_self_of_lt (lt_size_of_getElem? hd)]
  have hother : ∀ j, j ≠ i.toNat → q.slots[j]? = p.slots[j]? := fun j hj => by
    rw [hslots, Array.getElem?_setIfInBounds_ne (Ne.symm hj)]
  have hsize : q.slots.size = p.slots.size := by rw [hslots, Array.size_setIfInBounds]
  have hrevises : Revises p q := by
    intro j c hc
    by_cases hj : j = i.toNat
    · subst hj
      obtain rfl := Option.some.inj (hd.symm.trans hc)
      exact ⟨new, hself, hrenames.frame_eq.trans hframe.symm⟩
    · exact ⟨c, by rw [hother j hj, hc], rfl⟩
  have hadds : AddsNames p q := by
    intro j c hn hc
    rw [Array.getElem?_eq_none_iff] at hn
    have hlt := lt_size_of_getElem? hc
    omega
  have hplaced : Placed r q i.toNat old := ⟨new, hself, hrenames.revise hrevises⟩
  have hkeep : KeepsPlaced r p q := by
    intro j c hc ⟨e, he, hce⟩
    by_cases hj : j = i.toNat
    · subst hj
      obtain rfl := Option.some.inj (hold.symm.trans hc)
      exact hplaced
    · exact ⟨e, by rw [hother j hj, he], hce.revise hrevises⟩
  refine ⟨⟨h.wellFormed.of_revises hrevises hsize htexts hpairs, h.revises.trans hrevises,
    h.adds.trans hrevises hadds, fun j c hc => ?_⟩, hplaced, hkeep⟩
  rcases h.partly j c hc with hsame | hdone
  · by_cases hj : j = i.toNat
    · subst hj
      obtain rfl := Option.some.inj (hold.symm.trans hc)
      exact Or.inr hplaced
    · exact Or.inl (by rw [hother j hj, hsame])
  · exact Or.inr (hkeep j c hc hdone)

/-- Relabels the constant at one index. -/
def constantAt (r : Relabelling) (e : Index × Constant) : PoolM Unit := do
  let new ← r.constant e.2
  unless new = e.2 do Pool.replace e.1 new

theorem constants_eq : r.constants = r.source.toList.forM r.constantAt := rfl

theorem underway_constantAt {i : Index} {old : Constant} {u : Unit}
    (hold : r.source.slots[i.toNat]? = some old) (hp : Underway r p)
    (h : r.constantAt (i, old) p = .ok u q) :
    Underway r q ∧ Placed r q i.toNat old ∧ KeepsPlaced r p q := by
  obtain ⟨new, p₁, hnew, h⟩ := EStateM.bind_eq_ok.mp h
  obtain ⟨hp₁, hkeep⟩ := hp.grow (r.keeps_constant old p new p₁ hnew)
  have hrenames := (renames_of_constant hnew hp.wellFormed hp.revises)
  split at h
  · rename_i heq
    obtain ⟨-, rfl⟩ := EStateM.pure_eq_ok.mp h
    refine ⟨hp₁, ?_, hkeep⟩
    rcases hp₁.partly i.toNat old hold with hsame | hplaced
    · exact ⟨old, hsame, by rwa [heq] at hrenames⟩
    · exact hplaced
  · rename_i hne
    obtain ⟨hq, hplaced, hkeep'⟩ := hp₁.replace hold hrenames hne h
    exact ⟨hq, hplaced, fun j c hc hdone => hkeep' j c hc (hkeep j c hc hdone)⟩

/-- The pass over some constants of the pool before renames them and keeps what was renamed. -/
theorem underway_forM {es : List (Index × Constant)}
    (hes : ∀ e ∈ es, r.source.slots[e.1.toNat]? = some e.2) (hp : Underway r p) {u : Unit}
    (h : es.forM r.constantAt p = .ok u q) :
    Underway r q ∧ (∀ e ∈ es, Placed r q e.1.toNat e.2) ∧ KeepsPlaced r p q := by
  induction es generalizing p with
  | nil =>
    obtain ⟨-, rfl⟩ := EStateM.pure_eq_ok.mp h
    exact ⟨hp, by simp, fun _ _ _ hdone => hdone⟩
  | cons e es ih =>
    have hrun : (r.constantAt e >>= fun _ => es.forM r.constantAt) p = .ok u q := h
    obtain ⟨v, p₁, hfirst, hrest⟩ := EStateM.bind_eq_ok.mp hrun
    have hold := hes e List.mem_cons_self
    obtain ⟨hp₁, hplaced, hkeep⟩ := underway_constantAt hold hp hfirst
    obtain ⟨hq, hall, hkeep'⟩ := ih (fun e he => hes e (List.mem_cons_of_mem _ he)) hp₁ hrest
    refine ⟨hq, fun e' he' => ?_, fun j c hc hdone => hkeep' j c hc (hkeep j c hc hdone)⟩
    rcases List.mem_cons.mp he' with rfl | he'
    · exact hkeep' _ _ hold hplaced
    · exact hall e' he'

/-- After the pass every constant of the pool before is renamed. -/
theorem underway_constants {u : Unit} (hsource : r.source.WellFormed)
    (h : r.constants r.source = .ok u q) :
    Underway r q ∧ ∀ (j : Nat) (old : Constant), r.source.slots[j]? = some old → Placed r q j old := by
  have hstart : Underway r r.source :=
    ⟨hsource, Revises.refl _, AddsNames.refl _, fun _ _ hold => Or.inl hold⟩
  rw [constants_eq] at h
  obtain ⟨hq, hall, -⟩ := underway_forM
    (fun e he => ((mem_toList hsource.toWellLaid).mp he).1) hstart h
  refine ⟨hq, fun j old hold => ?_⟩
  by_cases hu : old = .unusable
  · -- An unusable slot is not visited, and nothing else can have put a constant there.
    subst hu
    rcases hq.partly j _ hold with hsame | hplaced
    · exact ⟨_, hsame, .same rfl⟩
    · exact hplaced
  · have hj := hsource.toNat_index hold
    have hplaced := hall (UInt16.ofNat j, old)
      ((mem_toList hsource.toWellLaid).mpr ⟨by rwa [hj], hu⟩)
    rwa [hj] at hplaced

end Relabelling
end ClassRelabel
