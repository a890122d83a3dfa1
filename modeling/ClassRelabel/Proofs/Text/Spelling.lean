/-
What bytes spell.

`Spells bs us` derives the UTF-16 units that `bs` spell, and the decoder accepts exactly the bytes
that spell some (`decodeUnits_eq_ok`).  Many byte strings spell the same units.  The one that is
written for text is none of the longer ones: `length_encode_of_decode`.
-/
import ClassRelabel.Proofs.Text.ModifiedUtf8

namespace ClassRelabel

namespace Utf16

/-- A unit that is no surrogate is the code point of a character. -/
theorem toNat_ofNat {u : UInt16} (hhigh : isHigh u = false) (hlow : isLow u = false) :
    (Char.ofNat u.toNat).toNat = u.toNat := by
  have hu : u.toNat < 0x10000 := u.toNat_lt
  simp only [isHigh, isLow, Bool.and_eq_false_iff, decide_eq_false_iff_not] at hhigh hlow
  have hvalid : Nat.isValidChar u.toNat := by
    simp only [Nat.isValidChar]
    omega
  rw [Char.ofNat, dif_pos hvalid]
  rfl

theorem toNat_joinSurrogates {u v : UInt16} (hu : isHigh u = true) (hv : isLow v = true) :
    (joinSurrogates u v).toNat = 0x10000 + (u.toNat - 0xD800) * 0x400 + (v.toNat - 0xDC00) := by
  simp only [isHigh, isLow, Bool.and_eq_true, decide_eq_true_eq] at hu hv
  have hvalid : Nat.isValidChar (0x10000 + (u.toNat - 0xD800) * 0x400 + (v.toNat - 0xDC00)) := by
    simp only [Nat.isValidChar]
    omega
  rw [joinSurrogates, Char.ofNat, dif_pos hvalid]
  rfl

theorem unitsOfChar_single {u : UInt16} (hhigh : isHigh u = false) (hlow : isLow u = false) :
    unitsOfChar (Char.ofNat u.toNat) = [u] := by
  have hu : u.toNat < 0x10000 := u.toNat_lt
  have hn := toNat_ofNat hhigh hlow
  rw [unitsOfChar, if_pos (by omega), hn, UInt16.ofNat_toNat]

theorem unitsOfChar_pair {u v : UInt16} (hu : isHigh u = true) (hv : isLow v = true) :
    unitsOfChar (joinSurrogates u v) = [u, v] := by
  have hn := toNat_joinSurrogates hu hv
  simp only [isHigh, isLow, Bool.and_eq_true, decide_eq_true_eq] at hu hv
  have hhigh : 0xD800 + ((joinSurrogates u v).toNat - 0x10000) / 0x400 = u.toNat := by omega
  have hlow : 0xDC00 + ((joinSurrogates u v).toNat - 0x10000) % 0x400 = v.toNat := by omega
  rw [unitsOfChar, if_neg (by omega)]
  simp only [hhigh, hlow, UInt16.ofNat_toNat]

/-- Text read from units is spelled by the same units. -/
theorem units_of_ofUnits? {us : List UInt16} {cs : List Char} (h : ofUnits? us = some cs) :
    units cs = us := by
  induction us using ofUnits?.induct generalizing cs with
  | case1 =>
    obtain rfl : [] = cs := by simpa [ofUnits?] using h
    rfl
  | case2 u hu => simp [ofUnits?, hu] at h
  | case3 u hu =>
    have hu' : isHigh u = false ∧ isLow u = false := by simpa using hu
    obtain rfl : [Char.ofNat u.toNat] = cs := by simpa [ofUnits?, hu'] using h
    simp [units, unitsOfChar_single hu'.1 hu'.2]
  | case4 u v rest hu hv ih =>
    obtain ⟨ds, hds, rfl⟩ : ∃ ds, ofUnits? rest = some ds ∧ joinSurrogates u v :: ds = cs := by
      simpa [ofUnits?, hu, hv] using h
    have hrest := ih hds
    rw [units] at hrest ⊢
    rw [List.flatMap_cons, unitsOfChar_pair hu hv, hrest]
    rfl
  | case5 u v rest hu hv => simp [ofUnits?, hu, hv] at h
  | case6 u v rest hu hlow => simp [ofUnits?, hu, hlow] at h
  | case7 u v rest hu hlow ih =>
    have hu' : isHigh u = false ∧ isLow u = false := by
      simpa using And.intro hu hlow
    obtain ⟨ds, hds, rfl⟩ : ∃ ds, ofUnits? (v :: rest) = some ds ∧ Char.ofNat u.toNat :: ds = cs := by
      simpa [ofUnits?, hu, hlow] using h
    have hrest := ih hds
    rw [units] at hrest ⊢
    rw [List.flatMap_cons, unitsOfChar_single hu'.1 hu'.2, hrest]
    rfl

end Utf16

namespace ModifiedUtf8

theorem length_encodeUnit (u : UInt16) : (encodeUnit u).length =
    if u.toNat ≠ 0 ∧ u.toNat < 0x80 then 1 else if u.toNat < 0x800 then 2 else 3 := by
  simp only [encodeUnit]
  split
  · rfl
  · split <;> rfl

/-- The units that bytes spell, one spelling after the other.  Of a later byte only the low six bits
count. -/
inductive Spells : Bytes → List UInt16 → Prop
  | nil : Spells [] []
  | single {a : UInt8} {rest : Bytes} {us : List UInt16} (hzero : a.toNat ≠ 0)
      (hlt : a.toNat < 0x80) (hrest : Spells rest us) : Spells (a :: rest) (a.toUInt16 :: us)
  | pair {a : UInt8} {rest : Bytes} {us : List UInt16} (b : UInt8) (hle : 0xC0 ≤ a.toNat)
      (hlt : a.toNat < 0xE0) (hrest : Spells rest us) :
      Spells (a :: b :: rest) (pairUnit a b :: us)
  | triple {a : UInt8} {rest : Bytes} {us : List UInt16} (b c : UInt8) (hle : 0xE0 ≤ a.toNat)
      (hlt : a.toNat < 0xF0) (hrest : Spells rest us) :
      Spells (a :: b :: c :: rest) (tripleUnit a b c :: us)

theorem Spells.decodeInto {bs : Bytes} {us : List UInt16} (h : Spells bs us)
    (before : List UInt16) : decodeInto before bs = .ok (before.reverse ++ us) := by
  induction h generalizing before with
  | nil => simp [ModifiedUtf8.decodeInto]
  | single hzero hlt _ ih => rw [decodeInto_single before _ hzero hlt, ih]; simp
  | pair b hle hlt _ ih => rw [decodeInto_pair before b _ hle hlt, ih]; simp
  | triple b c hle hlt _ ih => rw [decodeInto_triple before b c _ hle hlt, ih]; simp

theorem spells_of_decodeInto {before us : List UInt16} {bs : Bytes}
    (h : decodeInto before bs = .ok us) : ∃ read, Spells bs read ∧ us = before.reverse ++ read := by
  have hnext : ∀ {before : List UInt16} {u : UInt16} {bs rest : Bytes},
      (∀ read, Spells rest read → Spells bs (u :: read)) →
      (∃ read, Spells rest read ∧ us = (u :: before).reverse ++ read) →
      ∃ read, Spells bs read ∧ us = before.reverse ++ read := by
    rintro before u bs rest hspells ⟨read, hread, hus⟩
    exact ⟨u :: read, hspells read hread, by simp [hus]⟩
  induction before, bs using decodeInto.induct with
  | case1 before => exact ⟨[], .nil, by simpa [decodeInto] using h.symm⟩
  | case3 before a rest h0 hlt ih =>
    have hzero : a.toNat ≠ 0 := fun hz => h0 (UInt8.toNat_inj.mp hz)
    have hlt : a.toNat < 0x80 := UInt8.lt_iff_toNat_lt.mp hlt
    rw [decodeInto_single before rest hzero hlt] at h
    exact hnext (fun _ => .single hzero hlt) (ih h)
  | case5 before a h0 h1 h2 h3 b rest ih =>
    have hle : 0xC0 ≤ a.toNat := Nat.not_lt.mp h2
    have hlt : a.toNat < 0xE0 := h3
    rw [decodeInto_pair before b rest hle hlt] at h
    exact hnext (fun _ => .pair b hle hlt) (ih h)
  | case7 before a h0 h1 h2 h3 h4 b c rest ih =>
    have hle : 0xE0 ≤ a.toNat := Nat.not_lt.mp h3
    have hlt : a.toNat < 0xF0 := h4
    rw [decodeInto_triple before b c rest hle hlt] at h
    exact hnext (fun _ => .triple b c hle hlt) (ih h)
  | case2 before rest =>
    rw [decodeInto.eq_def] at h
    simp only [if_true, reduceCtorEq] at h
  | case4 before a rest h0 h1 h2 =>
    rw [decodeInto.eq_def] at h
    simp only [h0, h1, h2, if_true, if_false, reduceCtorEq] at h
  | case6 before a h0 h1 h2 h3 =>
    rw [decodeInto.eq_def] at h
    simp only [h0, h1, h2, h3, if_true, if_false, reduceCtorEq] at h
  | case8 before a rest h0 h1 h2 h3 h4 hshort =>
    rw [decodeInto.eq_def] at h
    simp only [h0, h1, h2, h3, h4, if_true, if_false, reduceCtorEq] at h
  | case9 before a rest h0 h1 h2 h3 h4 =>
    rw [decodeInto.eq_def] at h
    simp only [h0, h1, h2, h3, h4, if_false, reduceCtorEq] at h

theorem decodeUnits_eq_ok {bs : Bytes} {us : List UInt16} :
    decodeUnits bs = .ok us ↔ Spells bs us := by
  constructor
  · intro h
    obtain ⟨read, hread, rfl⟩ := spells_of_decodeInto h
    exact hread
  · intro h
    exact h.decodeInto []

/-- Units are written by no more bytes than spell them. -/
theorem Spells.length_encodeUnits_le {bs : Bytes} {us : List UInt16} (h : Spells bs us) :
    (encodeUnits us).length ≤ bs.length := by
  have hcons : ∀ (u : UInt16) (us : List UInt16),
      (encodeUnits (u :: us)).length = (encodeUnit u).length + (encodeUnits us).length := by
    intro u us
    simp [encodeUnits]
  induction h with
  | nil => exact Nat.le_refl 0
  | @single a rest us hzero hlt _ ih =>
    have hunit : (encodeUnit a.toUInt16).length = 1 := by
      rw [length_encodeUnit, UInt8.toNat_toUInt16, if_pos ⟨hzero, hlt⟩]
    rw [hcons, List.length_cons]
    omega
  | @pair a rest us b _ _ _ ih =>
    have hunit : (encodeUnit (pairUnit a b)).length ≤ 2 := by
      have hlt : (pairUnit a b).toNat < 0x800 := by
        rw [pairUnit, UInt16.toNat_ofNat']
        omega
      rw [length_encodeUnit]
      split <;> omega
    rw [hcons, List.length_cons, List.length_cons]
    omega
  | @triple a rest us b c _ _ _ ih =>
    have hunit : (encodeUnit (tripleUnit a b c)).length ≤ 3 := by
      rw [length_encodeUnit]
      split
      · omega
      · split <;> omega
    rw [hcons, List.length_cons, List.length_cons, List.length_cons]
    omega

theorem decode_eq_ok {bs : Bytes} {s : String} :
    decode bs = .ok s ↔ decodeUnits bs = .ok (Utf16.units s.toList) := by
  cases hus : decodeUnits bs with
  | error e => simp [decode, hus, bind, Except.bind]
  | ok us =>
    cases hcs : Utf16.ofUnits? us with
    | none =>
      have hne : us ≠ Utf16.units s.toList := by
        rintro rfl
        simp [Utf16.ofUnits?_units] at hcs
      simp [decode, hus, hcs, bind, Except.bind, hne]
    | some cs =>
      obtain rfl := Utf16.units_of_ofUnits? hcs
      simp only [decode, hus, hcs, bind, Except.bind, Except.ok.injEq]
      constructor
      · rintro rfl
        rw [String.toList_ofList]
      · intro h
        have hcs' := congrArg Utf16.ofUnits? h
        rw [Utf16.ofUnits?_units, Utf16.ofUnits?_units] at hcs'
        rw [Option.some.inj hcs', String.ofList_toList]

/-- Text is written by no more bytes than it was read from. -/
theorem length_encode_of_decode {bs : Bytes} {s : String} (h : decode bs = .ok s) :
    (encode s).length ≤ bs.length :=
  (decodeUnits_eq_ok.mp (decode_eq_ok.mp h)).length_encodeUnits_le

end ModifiedUtf8
end ClassRelabel
