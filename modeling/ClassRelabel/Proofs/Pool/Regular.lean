/-
Pools that can be written.

A pool is `Regular` if it is well laid, its tables say where its constants stand, and none of its
texts is too long to be written.  The empty pool is regular, a pool that is read is, and appending
a constant that can be written keeps it so.  A regular pool is written and read back, with its
tables (`Regular.reads_encode`).
-/
import ClassRelabel.Proofs.Codec.Inverse
import ClassRelabel.Proofs.Pool.Spelling
import ClassRelabel.Proofs.Pool.Tables

namespace ClassRelabel

open EStateM Reader

namespace Constant

/-- A constant that can be written and read back. -/
structure Writable (c : Constant) : Prop extends Storable c where
  fits : ∀ s, c = utf8 s → (ModifiedUtf8.encode s).length < 0x10000

theorem writable_of_recoded {bs : Bytes} {c : Constant} (hc : c.Storable) (h : Recoded bs c) :
    c.Writable := by
  refine ⟨hc, ?_⟩
  rintro s rfl
  obtain ⟨_, written, _, hencode, _⟩ := h
  obtain ⟨text, htext, -⟩ := Except.bind_eq_ok.mp hencode
  simp only [Codec.text] at htext
  split at htext
  · rename_i hfits
    exact hfits
  · simp at htext

/-- Every constant that is read can be written. -/
theorem returns_writable_read : Returns Writable read := by
  intro c a c' hrun
  obtain ⟨bs, hrecoded⟩ := returns_of_takes takes_read c a c' hrun
  exact writable_of_recoded (returns_storable_read c a c' hrun) hrecoded

end Constant

namespace Pool

structure Regular (p : Pool) : Prop extends WellLaid p, Indexed p where
  fits : ∀ (i : Nat) (s : String), p.slots[i]? = some (.utf8 s) →
    (ModifiedUtf8.encode s).length < 0x10000

variable {p q : Pool} {c : Constant} {i : Index}

theorem regular_empty : Regular empty := by
  refine ⟨wellLaid_empty, indexed_empty, ?_⟩
  intro i s hs
  have hlt := lt_size_of_getElem? hs
  obtain rfl : i = 0 := Nat.lt_one_iff.mp hlt
  simp [empty] at hs

theorem regular_push (h : push c p = .ok i q) (hc : c.Writable) (hp : p.Regular) : q.Regular := by
  refine ⟨wellLaid_push h hc.toStorable hp.toWellLaid, indexed_push h hp.count_lt hp.toIndexed, ?_⟩
  intro j s hs
  rw [getElem?_push h] at hs
  split at hs
  · exact hp.fits j s hs
  · split at hs
    · exact hc.fits s (Option.some.inj hs)
    · split at hs <;> simp at hs

theorem returns_regular_read : Returns Regular read :=
  returns_read Constant.returns_writable_read (fun _ _ _ _ hc hp h => regular_push h hc hp)
    regular_empty

/-! ## Writing -/

theorem Regular.encode_slot (hp : p.Regular) {j : Nat} (hc : p.slots[j]? = some c) :
    ∃ bs, c.encode = .ok bs := by
  cases c with
  | utf8 s =>
    have hfits := hp.fits j s hc
    simp [Constant.encode, Codec.text, hfits, bind, Except.bind, pure, Except.pure]
  | utf8Raw bs =>
    obtain ⟨hfits, -⟩ := hp.raw j bs hc
    simp [Constant.encode, tableLength_of_lt hfits, bind, Except.bind, pure, Except.pure]
  | member kind owner pair => cases kind <;> exact ⟨_, rfl⟩
  | _ => exact ⟨_, rfl⟩

theorem Regular.exists_encode (hp : p.Regular) : ∃ bs, p.encode = .ok bs := by
  have hall : ∀ c ∈ p.slots.toList.drop 1, ∃ bs, Constant.encode c = .ok bs := by
    intro c hc
    obtain ⟨j, hj⟩ := List.mem_iff_getElem?.mp (List.mem_of_mem_drop hc)
    rw [Array.getElem?_toList] at hj
    exact hp.encode_slot hj
  obtain ⟨bs, hbs⟩ := Codec.exists_writeAll_iff.mpr hall
  refine ⟨bigEndian 2 p.count ++ bs, ?_⟩
  rw [encode, if_pos hp.count_lt, hbs]
  rfl

/-- A regular pool is written, and the same pool is read back. -/
theorem Regular.reads_encode (hp : p.Regular) : ∃ bs, p.encode = .ok bs ∧ Reads read bs p := by
  obtain ⟨bs, hbs⟩ := hp.exists_encode
  obtain ⟨q, hslots, hreads⟩ := Pool.reads_encode hp.toWellLaid hbs
  have hq : q.Regular := returns_regular_read _ _ _ (hreads 0 [])
  obtain rfl : q = p := hq.toIndexed.eq_of_slots_eq hp.toIndexed hslots
  exact ⟨bs, hbs, hreads⟩

end Pool
end ClassRelabel
