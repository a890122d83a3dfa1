/-
Modified UTF-8 reads back what it writes.

`decodeInto_encodeUnit` is the statement for one UTF-16 unit, with any units read before and any
bytes behind; `ofUnits?_unitsOfChar` is the statement for the units of one character.  The whole
text follows by induction in `ofUnits?_units` and `decodeUnits_encode`.
-/
import ClassRelabel.Text.ModifiedUtf8

namespace ClassRelabel

namespace Utf16

/-- A code point lies outside the range of the surrogates. -/
theorem toNat_bounds (c : Char) :
    c.toNat < 0xD800 ∨ (0xDFFF < c.toNat ∧ c.toNat < 0x110000) := by
  have h := c.valid
  simp only [UInt32.isValidChar, Nat.isValidChar] at h
  exact h

theorem ofUnits?_single {c : Char} (hc : c.toNat < 0x10000) (rest : List UInt16) :
    ofUnits? (UInt16.ofNat c.toNat :: rest) = (ofUnits? rest).map (c :: ·) := by
  have hn : (UInt16.ofNat c.toNat).toNat = c.toNat := by
    rw [UInt16.toNat_ofNat']
    omega
  have hb := toNat_bounds c
  have hhigh : isHigh (UInt16.ofNat c.toNat) = false := by
    simp only [isHigh, hn, Bool.and_eq_false_iff, decide_eq_false_iff_not]
    omega
  have hlow : isLow (UInt16.ofNat c.toNat) = false := by
    simp only [isLow, hn, Bool.and_eq_false_iff, decide_eq_false_iff_not]
    omega
  cases rest with
  | nil => simp [ofUnits?, hhigh, hlow, hn]
  | cons v rest => simp [ofUnits?, hhigh, hlow, hn]

theorem ofUnits?_pair {c : Char} (hc : ¬c.toNat < 0x10000) (rest : List UInt16) :
    ofUnits? (UInt16.ofNat (0xD800 + (c.toNat - 0x10000) / 0x400) ::
        UInt16.ofNat (0xDC00 + (c.toNat - 0x10000) % 0x400) :: rest) =
      (ofUnits? rest).map (c :: ·) := by
  have hb := toNat_bounds c
  have hhigh : (UInt16.ofNat (0xD800 + (c.toNat - 0x10000) / 0x400)).toNat =
      0xD800 + (c.toNat - 0x10000) / 0x400 := by
    rw [UInt16.toNat_ofNat']
    omega
  have hlow : (UInt16.ofNat (0xDC00 + (c.toNat - 0x10000) % 0x400)).toNat =
      0xDC00 + (c.toNat - 0x10000) % 0x400 := by
    rw [UInt16.toNat_ofNat']
    omega
  have hjoin : joinSurrogates (UInt16.ofNat (0xD800 + (c.toNat - 0x10000) / 0x400))
      (UInt16.ofNat (0xDC00 + (c.toNat - 0x10000) % 0x400)) = c := by
    rw [joinSurrogates, hhigh, hlow]
    have hsum : 0x10000 + (0xD800 + (c.toNat - 0x10000) / 0x400 - 0xD800) * 0x400 +
        (0xDC00 + (c.toNat - 0x10000) % 0x400 - 0xDC00) = c.toNat := by omega
    rw [hsum, Char.ofNat_toNat]
  have h1 : isHigh (UInt16.ofNat (0xD800 + (c.toNat - 0x10000) / 0x400)) = true := by
    simp only [isHigh, hhigh, Bool.and_eq_true, decide_eq_true_eq]
    omega
  have h2 : isLow (UInt16.ofNat (0xDC00 + (c.toNat - 0x10000) % 0x400)) = true := by
    simp only [isLow, hlow, Bool.and_eq_true, decide_eq_true_eq]
    omega
  rw [ofUnits?, if_pos h1, if_pos h2, hjoin]

theorem ofUnits?_unitsOfChar (c : Char) (rest : List UInt16) :
    ofUnits? (unitsOfChar c ++ rest) = (ofUnits? rest).map (c :: ·) := by
  by_cases hc : c.toNat < 0x10000
  · rw [unitsOfChar, if_pos hc]
    exact ofUnits?_single hc rest
  · rw [unitsOfChar, if_neg hc]
    exact ofUnits?_pair hc rest

theorem ofUnits?_units (cs : List Char) : ofUnits? (units cs) = some cs := by
  induction cs with
  | nil => rfl
  | cons c cs ih =>
    rw [units, List.flatMap_cons, ofUnits?_unitsOfChar]
    show (ofUnits? (units cs)).map (c :: ·) = some (c :: cs)
    rw [ih, Option.map_some]

end Utf16

namespace ModifiedUtf8

theorem toNat_byte {n : Nat} (h : n < 0x100) : (UInt8.ofNat n).toNat = n := by
  rw [UInt8.toNat_ofNat']
  omega

section FirstByte

variable (before : List UInt16) {a : UInt8} (b c : UInt8) (rest : Bytes)

theorem decodeInto_single (h0 : a.toNat ≠ 0) (h : a.toNat < 0x80) :
    decodeInto before (a :: rest) = decodeInto (a.toUInt16 :: before) rest := by
  rw [decodeInto.eq_def]
  simp only [← UInt8.toNat_inj, UInt8.lt_iff_toNat_lt, UInt8.reduceToNat]
  rw [if_neg h0, if_pos h]

theorem decodeInto_pair (h : 0xC0 ≤ a.toNat) (h' : a.toNat < 0xE0) :
    decodeInto before (a :: b :: rest) = decodeInto (pairUnit a b :: before) rest := by
  rw [decodeInto]
  simp only [← UInt8.toNat_inj, UInt8.lt_iff_toNat_lt, UInt8.reduceToNat]
  rw [if_neg (by omega), if_neg (by omega), if_neg (by omega), if_pos h']

theorem decodeInto_triple (h : 0xE0 ≤ a.toNat) (h' : a.toNat < 0xF0) :
    decodeInto before (a :: b :: c :: rest) = decodeInto (tripleUnit a b c :: before) rest := by
  rw [decodeInto]
  simp only [← UInt8.toNat_inj, UInt8.lt_iff_toNat_lt, UInt8.reduceToNat]
  rw [if_neg (by omega), if_neg (by omega), if_neg (by omega), if_neg (by omega), if_pos h']

end FirstByte

/-- The spelling of a unit in front of any bytes is read as that unit. -/
theorem decodeInto_encodeUnit (before : List UInt16) (u : UInt16) (rest : Bytes) :
    decodeInto before (encodeUnit u ++ rest) = decodeInto (u :: before) rest := by
  have hu : u.toNat < 0x10000 := u.toNat_lt
  by_cases h1 : u.toNat ≠ 0 ∧ u.toNat < 0x80
  · have ha := toNat_byte (n := u.toNat) (by omega)
    have hunit : (UInt8.ofNat u.toNat).toUInt16 = u := by
      rw [← UInt16.toNat_inj, UInt8.toNat_toUInt16, ha]
    simp only [encodeUnit, if_pos h1, List.cons_append, List.nil_append]
    rw [decodeInto_single before rest (by omega) (by omega), hunit]
  · by_cases h2 : u.toNat < 0x800
    · have ha := toNat_byte (n := 0xC0 + u.toNat / 0x40) (by omega)
      have hb := toNat_byte (n := 0x80 + u.toNat % 0x40) (by omega)
      have hunit : pairUnit (UInt8.ofNat (0xC0 + u.toNat / 0x40))
          (UInt8.ofNat (0x80 + u.toNat % 0x40)) = u := by
        rw [pairUnit, ha, hb, ← UInt16.toNat_inj, UInt16.toNat_ofNat']
        omega
      simp only [encodeUnit, if_neg h1, if_pos h2, List.cons_append, List.nil_append]
      rw [decodeInto_pair before _ rest (by omega) (by omega), hunit]
    · have ha := toNat_byte (n := 0xE0 + u.toNat / 0x1000) (by omega)
      have hb := toNat_byte (n := 0x80 + u.toNat / 0x40 % 0x40) (by omega)
      have hc := toNat_byte (n := 0x80 + u.toNat % 0x40) (by omega)
      have hunit : tripleUnit (UInt8.ofNat (0xE0 + u.toNat / 0x1000))
          (UInt8.ofNat (0x80 + u.toNat / 0x40 % 0x40))
          (UInt8.ofNat (0x80 + u.toNat % 0x40)) = u := by
        rw [tripleUnit, ha, hb, hc, ← UInt16.toNat_inj, UInt16.toNat_ofNat']
        omega
      simp only [encodeUnit, if_neg h1, if_neg h2, List.cons_append, List.nil_append]
      rw [decodeInto_triple before _ _ rest (by omega) (by omega), hunit]

theorem decodeInto_encodeUnits (before us : List UInt16) :
    decodeInto before (encodeUnits us) = .ok (before.reverse ++ us) := by
  induction us generalizing before with
  | nil => simp [encodeUnits, decodeInto]
  | cons u us ih =>
    rw [encodeUnits, List.flatMap_cons, decodeInto_encodeUnit]
    show decodeInto (u :: before) (encodeUnits us) = _
    rw [ih, List.reverse_cons, List.append_assoc, List.singleton_append]

theorem decodeUnits_encode (s : String) :
    decodeUnits (encode s) = .ok (Utf16.units s.toList) :=
  decodeInto_encodeUnits [] _

end ModifiedUtf8
end ClassRelabel
