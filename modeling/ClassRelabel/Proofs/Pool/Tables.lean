/-
The tables of a pool say where its constants stand.

A pool is `Indexed` if its tables give for every text, every name of a class and every name with a
descriptor the first index that holds it, and nothing else.  Appending keeps this, and an index of
that kind is fixed by the constants alone: two such pools with the same constants are equal
(`Indexed.eq_of_slots_eq`).
-/
import Mathlib.Data.Nat.Find
import ClassRelabel.Proofs.Pool.Interning

namespace ClassRelabel

open Std (ExtTreeMap)

namespace Pool

/-- The index `i` holds the constant, and no index before it does. -/
structure First (p : Pool) (c : Constant) (i : Index) : Prop where
  holds : p.slots[i.toNat]? = some c
  before : ∀ j < i.toNat, p.slots[j]? ≠ some c

/-- The tables give the first index of everything they are asked for, and nothing else. -/
structure Indexed (p : Pool) : Prop where
  texts : ∀ (s : String) (i : Index), p.texts[s]? = some i ↔ p.First (.utf8 s) i
  classes : ∀ name i : Index, p.classes[name]? = some i ↔ p.First (.classRef name) i
  pairs : ∀ a b i : Index, p.pairs[(a, b)]? = some i ↔ p.First (.nameAndType a b) i

variable {p q : Pool} {c d : Constant} {i j : Index}

theorem indexed_iff :
    p.Indexed ↔ ∀ c i, c.isKey = true → (p.lookup? c = some i ↔ p.First c i) := by
  constructor
  · intro hp c i hc
    cases c with
    | utf8 s => exact hp.texts s i
    | classRef name => exact hp.classes name i
    | nameAndType a b => exact hp.pairs a b i
    | _ => simp [Constant.isKey] at hc
  · intro h
    exact ⟨fun s i => h (.utf8 s) i rfl, fun name i => h (.classRef name) i rfl,
      fun a b i => h (.nameAndType a b) i rfl⟩

/-! ## First indices -/

/-- A constant of the pool has a first index. -/
theorem exists_first {k : Nat} (hcount : p.count < 0x10000) (hc : p.slots[k]? = some c) :
    ∃ i, p.First c i := by
  classical
  have hex : ∃ k, p.slots[k]? = some c := ⟨k, hc⟩
  have hlt : Nat.find hex < p.count := lt_size_of_getElem? (Nat.find_spec hex)
  have hn : (UInt16.ofNat (Nat.find hex)).toNat = Nat.find hex := by
    rw [UInt16.toNat_ofNat']
    omega
  refine ⟨UInt16.ofNat (Nat.find hex), ?_, ?_⟩
  · rw [hn]
    exact Nat.find_spec hex
  · rw [hn]
    intro j hj
    exact Nat.find_min hex hj

/-- Constants behind the others leave first indices as they are. -/
theorem Extends.first (h : Extends p q) (hi : p.First c i) : q.First c i := by
  refine ⟨h _ _ hi.holds, fun j hj => ?_⟩
  have hlt := lt_size_of_getElem? hi.holds
  have hslot : p.slots[j]? = some p.slots[j] := Array.getElem?_eq_getElem (by omega)
  rw [h _ _ hslot, ← hslot]
  exact hi.before j hj

theorem first_push (h : push c p = .ok i q) (hd : d ≠ .unusable) :
    q.First d j ↔ p.First d j ∨ (c = d ∧ i = j ∧ ∀ k : Nat, p.slots[k]? ≠ some d) := by
  have hslot := getElem?_push h
  have hi := toNat_of_push h
  constructor
  · intro hj
    have hbefore : ∀ k < j.toNat, k < p.slots.size → p.slots[k]? ≠ some d := by
      intro k hk hlt
      have hne := hj.before k hk
      rwa [hslot, if_pos hlt] at hne
    have hholds := hj.holds
    rw [hslot] at hholds
    split at hholds
    · rename_i hlt
      exact Or.inl ⟨hholds, fun k hk => hbefore k hk (by omega)⟩
    · split at hholds
      · rename_i heq
        refine Or.inr ⟨Option.some.inj hholds, UInt16.toNat_inj.mp (by omega), fun k hk => ?_⟩
        have hlt := lt_size_of_getElem? hk
        exact hbefore k (by omega) hlt hk
      · split at hholds
        · exact absurd (Option.some.inj hholds).symm hd
        · simp at hholds
  · rintro (hj | ⟨rfl, rfl, hnone⟩)
    · exact (extends_push h).first hj
    · refine ⟨slot_push h, fun k hk => ?_⟩
      rw [hslot, if_pos (by omega)]
      exact hnone k

/-! ## Indexed pools -/

theorem indexed_empty : Indexed empty := by
  rw [indexed_iff]
  intro c i hc
  have hnone : empty.lookup? c = none := by cases c <;> simp [lookup?, empty]
  have hnot : ¬empty.First c i := by
    intro hi
    have hzero := lt_size_of_getElem? hi.holds
    have hslot := hi.holds
    obtain hzero : i.toNat = 0 := Nat.lt_one_iff.mp hzero
    rw [hzero] at hslot
    obtain rfl : Constant.unusable = c := Option.some.inj hslot
    simp [Constant.isKey] at hc
  simp [hnone, hnot]

theorem indexed_push (h : push c p = .ok i q) (hcount : p.count < 0x10000) (hp : p.Indexed) :
    q.Indexed := by
  rw [indexed_iff] at hp ⊢
  intro d j hd
  have hu : d ≠ .unusable := by
    rintro rfl
    simp [Constant.isKey] at hd
  rw [lookup?_push h, first_push h hu, ← hp d j hd]
  cases hlookup : p.lookup? d with
  | some k =>
    -- The pool holds the constant already.
    have hk := (hp d k hd).mp hlookup
    have hnot : ¬∀ k : Nat, p.slots[k]? ≠ some d := fun hall => hall _ hk.holds
    simp [hnot]
  | none =>
    have hall : ∀ k : Nat, p.slots[k]? ≠ some d := by
      intro k hk
      obtain ⟨first, hfirst⟩ := exists_first hcount hk
      rw [(hp d first hd).mpr hfirst] at hlookup
      simp at hlookup
    simp [hd, hall]

/-- The tables of an indexed pool are fixed by its constants. -/
theorem Indexed.eq_of_slots_eq (hp : p.Indexed) (hq : q.Indexed) (h : p.slots = q.slots) :
    p = q := by
  have hfirst : ∀ c i, p.First c i ↔ q.First c i := by
    intro c i
    constructor
    · intro hi
      exact ⟨h ▸ hi.holds, fun j hj => h ▸ hi.before j hj⟩
    · intro hi
      exact ⟨h ▸ hi.holds, fun j hj => h ▸ hi.before j hj⟩
  have htexts : p.texts = q.texts := by
    refine ExtTreeMap.ext_getElem? fun s => Option.ext fun i => ?_
    rw [hp.texts, hq.texts, hfirst]
  have hclasses : p.classes = q.classes := by
    refine ExtTreeMap.ext_getElem? fun name => Option.ext fun i => ?_
    rw [hp.classes, hq.classes, hfirst]
  have hpairs : p.pairs = q.pairs := by
    refine ExtTreeMap.ext_getElem? fun ab => Option.ext fun i => ?_
    obtain ⟨a, b⟩ := ab
    rw [hp.pairs, hq.pairs, hfirst]
  cases p
  cases q
  simp_all

end Pool
end ClassRelabel
