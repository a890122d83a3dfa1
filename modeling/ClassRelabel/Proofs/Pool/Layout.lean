/-
The layout of a constant pool.

In a pool that is well laid, index zero and exactly the indices behind wide constants are
unusable, and every index fits in two bytes.  Appending keeps the layout, so every pool that is
built by `push` has it.
-/
import ClassRelabel.Pool.Basic
import ClassRelabel.Text.ModifiedUtf8

namespace ClassRelabel
namespace Constant

/-- Bytes that spell units which are no Unicode text. -/
def RawText (bs : Bytes) : Prop :=
  bs.length < 0x10000 ∧ ∃ us, ModifiedUtf8.decodeUnits bs = .ok us ∧ Utf16.ofUnits? us = none

/-- A constant that can be read from a class file. -/
structure Storable (c : Constant) : Prop where
  usable : c ≠ unusable
  raw : ∀ bs, c = utf8Raw bs → RawText bs

end Constant

namespace Pool

structure WellLaid (p : Pool) : Prop where
  count_lt : p.count < 0x10000
  zero : p.slots[0]? = some .unusable
  wide : ∀ (i : Nat) (c : Constant), p.slots[i]? = some c → c.isWide = true →
    p.slots[i + 1]? = some .unusable
  usable : ∀ i : Nat, p.slots[i + 1]? = some .unusable →
    ∃ c, p.slots[i]? = some c ∧ c.isWide = true
  raw : ∀ (i : Nat) (bs : Bytes), p.slots[i]? = some (.utf8Raw bs) → Constant.RawText bs

theorem lt_size_of_getElem? {p : Pool} {j : Nat} {c : Constant} (h : p.slots[j]? = some c) :
    j < p.slots.size :=
  (Array.getElem?_eq_some_iff.mp h).1

/-- A slot has an index of two bytes. -/
theorem WellLaid.toNat_index {p : Pool} (hp : p.WellLaid) {j : Nat} {c : Constant}
    (h : p.slots[j]? = some c) : (UInt16.ofNat j).toNat = j := by
  have hlt := lt_size_of_getElem? h
  have hcount : p.slots.size < 0x10000 := hp.count_lt
  rw [UInt16.toNat_ofNat']
  omega

theorem wellLaid_empty : WellLaid empty where
  count_lt := by decide
  zero := rfl
  wide i c h hw := by
    cases i with
    | zero =>
      obtain rfl : Constant.unusable = c := by simpa [empty] using h
      simp [Constant.isWide] at hw
    | succ i => simp [empty] at h
  usable i h := by simp [empty] at h
  raw i bs h := by
    cases i with
    | zero => simp [empty] at h
    | succ i => simp [empty] at h

@[simp] theorem slots_recordReference (p : Pool) (i : Index) (c : Constant) :
    (p.recordReference i c).slots = p.slots := by
  cases c <;> rfl

@[simp] theorem slots_record (p : Pool) (i : Index) (c : Constant) :
    (p.record i c).slots = p.slots := by
  cases c <;> rfl

theorem push_eq_ok {c : Constant} {p q : Pool} {i : Index} :
    push c p = .ok i q ↔
      p.count < limit c ∧ UInt16.ofNat p.count = i ∧
        (p.record (UInt16.ofNat p.count) c).append c = q := by
  unfold push
  split
  · rename_i h
    simp [h]
  · rename_i h
    simp [h]

/-- A constant that does not fit is not appended. -/
theorem push_eq_error {c : Constant} {p q : Pool} {e : Fault} (h : push c p = .error e q) : q = p := by
  unfold push at h
  split at h
  · simp at h
  · exact ((EStateM.Result.error.inj h).2).symm

theorem limit_le (c : Constant) : limit c ≤ 0xFFFF := by
  unfold limit
  split <;> omega

/-- A constant is found at the index that `push` returns. -/
theorem toNat_of_push {c : Constant} {p q : Pool} {i : Index} (h : push c p = .ok i q) :
    i.toNat = p.slots.size := by
  obtain ⟨hlt, rfl, -⟩ := push_eq_ok.mp h
  have hle := limit_le c
  rw [UInt16.toNat_ofNat']
  show p.slots.size % 2 ^ 16 = p.slots.size
  have hcount : p.slots.size = p.count := rfl
  omega

/-- What stands at each index after a constant was appended. -/
theorem getElem?_append (p : Pool) (c : Constant) (j : Nat) :
    (p.append c).slots[j]? =
      if j < p.slots.size then p.slots[j]?
      else if j = p.slots.size then some c
      else if j = p.slots.size + 1 ∧ c.isWide = true then some .unusable
      else none := by
  have hnone : ¬j < p.slots.size → p.slots[j]? = none := by
    intro hj
    rw [Array.getElem?_eq_none_iff]
    omega
  unfold append
  by_cases hw : c.isWide = true
  · simp only [if_pos hw, Array.getElem?_push, Array.size_push]
    grind
  · simp only [if_neg hw, Array.getElem?_push]
    grind

theorem getElem?_push {c : Constant} {p q : Pool} {i : Index} (h : push c p = .ok i q) (j : Nat) :
    q.slots[j]? =
      if j < p.slots.size then p.slots[j]?
      else if j = p.slots.size then some c
      else if j = p.slots.size + 1 ∧ c.isWide = true then some .unusable
      else none := by
  obtain ⟨-, -, rfl⟩ := push_eq_ok.mp h
  simpa using getElem?_append (p.record (UInt16.ofNat p.count) c) c j

theorem count_push {c : Constant} {p q : Pool} {i : Index} (h : push c p = .ok i q) :
    q.count = p.count + if c.isWide then 2 else 1 := by
  obtain ⟨-, -, rfl⟩ := push_eq_ok.mp h
  unfold count append
  split <;> simp

theorem wellLaid_push {c : Constant} {p q : Pool} {i : Index} (h : push c p = .ok i q)
    (hc : c.Storable) (hp : p.WellLaid) : q.WellLaid := by
  have hslot := getElem?_push h
  have hlt := (push_eq_ok.mp h).1
  have hpos := lt_size_of_getElem? hp.zero
  have hnone : ∀ j, p.slots.size ≤ j → p.slots[j]? = none := fun j hj => by
    rwa [Array.getElem?_eq_none_iff]
  refine ⟨?_, ?_, ?_, ?_, ?_⟩
  · rw [count_push h]
    unfold limit at hlt
    by_cases hw : c.isWide = true
    · rw [if_pos hw] at hlt ⊢
      omega
    · rw [if_neg hw] at hlt ⊢
      omega
  · rw [hslot, if_pos hpos]
    exact hp.zero
  · intro j d hd hw
    rw [hslot] at hd ⊢
    split at hd
    · have hnext := hp.wide j d hd hw
      have hj : j + 1 < p.slots.size := (Array.getElem?_eq_some_iff.mp hnext).1
      rw [if_pos hj]
      exact hnext
    · split at hd
      · obtain rfl := Option.some.inj hd
        rw [if_neg (by omega), if_neg (by omega), if_pos ⟨by omega, hw⟩]
      · split at hd
        · obtain rfl := Option.some.inj hd
          simp [Constant.isWide] at hw
        · simp at hd
  · intro j hj
    rw [hslot] at hj
    split at hj
    · rename_i hlt
      obtain ⟨d, hd, hw⟩ := hp.usable j hj
      refine ⟨d, ?_, hw⟩
      rw [hslot, if_pos (by omega)]
      exact hd
    · split at hj
      · exact absurd (Option.some.inj hj) hc.usable
      · split at hj
        · rename_i hnew
          refine ⟨c, ?_, hnew.2⟩
          rw [hslot, if_neg (by omega), if_pos (by omega)]
        · simp at hj
  · intro j bs hj
    rw [hslot] at hj
    split at hj
    · exact hp.raw j bs hj
    · split at hj
      · exact hc.raw bs (Option.some.inj hj)
      · split at hj
        · simp at hj
        · simp at hj

end Pool
end ClassRelabel
