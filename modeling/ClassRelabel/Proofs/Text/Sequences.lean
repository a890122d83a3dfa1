/-
Sequences of bytes.

A unit is spelled by a sequence of one to three bytes, and the first of them tells how many there
are.  The later ones of a well-formed sequence begin with the bits `10`.  What is written is well
formed and loses nothing (`encode_lossless`).  The decoder goes by the first bytes alone
(`accepted_iff_led`), so it takes a letter for a later byte too (`accepted_swallowedLetter`).
-/
import ClassRelabel.Proofs.Text.Spelling

namespace ClassRelabel
namespace ModifiedUtf8

variable {s t bs xs ys : Bytes} {ss ts : List Bytes}

/-- A byte of the form `10xxxxxx`. -/
def IsContinuation (b : UInt8) : Prop := 0x80 ≤ b.toNat ∧ b.toNat < 0xC0

/-- As many bytes as the first one asks for: `0xxxxxxx` other than zero stands alone, `110xxxxx`
has one byte behind it and `1110xxxx` has two. -/
inductive IsLed : Bytes → Prop
  | single {a : UInt8} (hzero : a.toNat ≠ 0) (hlt : a.toNat < 0x80) : IsLed [a]
  | pair {a : UInt8} (b : UInt8) (hle : 0xC0 ≤ a.toNat) (hlt : a.toNat < 0xE0) : IsLed [a, b]
  | triple {a : UInt8} (b c : UInt8) (hle : 0xE0 ≤ a.toNat) (hlt : a.toNat < 0xF0) :
      IsLed [a, b, c]

/-- The bytes of one unit. -/
structure IsSequence (s : Bytes) : Prop where
  led : IsLed s
  continued : ∀ b ∈ s.tail, IsContinuation b

/-- Bytes that are sequences, one after the other. -/
def WellFormed (bs : Bytes) : Prop := ∃ ss : List Bytes, (∀ s ∈ ss, IsSequence s) ∧ ss.flatten = bs

/-! ## Cutting into sequences -/

/-- How many bytes the first one asks for, itself included. -/
def width (a : UInt8) : Nat := if a.toNat < 0x80 then 1 else if a.toNat < 0xE0 then 2 else 3

theorem IsLed.eq_cons (h : IsLed s) : ∃ a rest, s = a :: rest ∧ s.length = width a := by
  cases h with
  | @single a hzero hlt => exact ⟨a, [], rfl, (if_pos hlt).symm⟩
  | @pair a b hle hlt =>
    have hwidth : width a = 2 := by rw [width, if_neg (by omega), if_pos hlt]
    exact ⟨a, [b], rfl, hwidth.symm⟩
  | @triple a b c hle hlt =>
    have hwidth : width a = 3 := by rw [width, if_neg (by omega), if_neg (by omega)]
    exact ⟨a, [b, c], rfl, hwidth.symm⟩

theorem IsLed.append_inj (hs : IsLed s) (ht : IsLed t) (h : s ++ xs = t ++ ys) :
    s = t ∧ xs = ys := by
  obtain ⟨a, s', hs', hslength⟩ := hs.eq_cons
  obtain ⟨b, t', ht', htlength⟩ := ht.eq_cons
  have hfirst : a = b := by
    rw [hs', ht', List.cons_append, List.cons_append] at h
    exact (List.cons.inj h).1
  exact List.append_inj h (by rw [hslength, htlength, hfirst])

/-- Bytes are cut in one way. -/
theorem eq_of_flatten_eq (hss : ∀ s ∈ ss, IsLed s) (hts : ∀ t ∈ ts, IsLed t)
    (h : ss.flatten = ts.flatten) : ss = ts := by
  have hne : ∀ {s : Bytes} {rest : List Bytes}, IsLed s → (s :: rest).flatten ≠ [] := by
    intro s rest hs
    obtain ⟨a, s', rfl, -⟩ := hs.eq_cons
    simp
  induction ss generalizing ts with
  | nil =>
    cases ts with
    | nil => rfl
    | cons t ts => exact absurd h.symm (hne (hts t List.mem_cons_self))
  | cons s ss ih =>
    obtain ⟨hs, hss⟩ := List.forall_mem_cons.mp hss
    cases ts with
    | nil => exact absurd h (hne hs)
    | cons t ts =>
      obtain ⟨ht, hmore⟩ := List.forall_mem_cons.mp hts
      rw [List.flatten_cons, List.flatten_cons] at h
      obtain ⟨rfl, hrest⟩ := hs.append_inj ht h
      rw [ih hss hmore hrest]

/-- Bytes that are cut by their first bytes are well formed only in the cut that they have. -/
theorem wellFormed_flatten (hss : ∀ s ∈ ss, IsLed s) :
    WellFormed ss.flatten ↔ ∀ s ∈ ss, IsSequence s := by
  constructor
  · rintro ⟨ts, hts, hflatten⟩
    rwa [eq_of_flatten_eq hss (fun t ht => (hts t ht).led) hflatten.symm]
  · exact fun h => ⟨ss, h, rfl⟩

theorem exists_spells_iff :
    (∃ us, Spells bs us) ↔ ∃ ss : List Bytes, (∀ s ∈ ss, IsLed s) ∧ ss.flatten = bs := by
  constructor
  · rintro ⟨us, h⟩
    induction h with
    | nil => exact ⟨[], by simp, rfl⟩
    | single hzero hlt _ ih =>
      obtain ⟨ss, hss, rfl⟩ := ih
      exact ⟨_ :: ss, List.forall_mem_cons.mpr ⟨.single hzero hlt, hss⟩, rfl⟩
    | pair b hle hlt _ ih =>
      obtain ⟨ss, hss, rfl⟩ := ih
      exact ⟨_ :: ss, List.forall_mem_cons.mpr ⟨.pair b hle hlt, hss⟩, rfl⟩
    | triple b c hle hlt _ ih =>
      obtain ⟨ss, hss, rfl⟩ := ih
      exact ⟨_ :: ss, List.forall_mem_cons.mpr ⟨.triple b c hle hlt, hss⟩, rfl⟩
  · rintro ⟨ss, hss, rfl⟩
    induction ss with
    | nil => exact ⟨[], .nil⟩
    | cons s ss ih =>
      obtain ⟨hs, hss⟩ := List.forall_mem_cons.mp hss
      obtain ⟨us, hus⟩ := ih hss
      cases hs with
      | single hzero hlt => exact ⟨_, .single hzero hlt hus⟩
      | pair b hle hlt => exact ⟨_, .pair b hle hlt hus⟩
      | triple b c hle hlt => exact ⟨_, .triple b c hle hlt hus⟩

/-! ## What is written -/

theorem isSequence_encodeUnit (u : UInt16) : IsSequence (encodeUnit u) := by
  have hu : u.toNat < 0x10000 := u.toNat_lt
  -- The low six bits of a number behind the bits `10`.
  have hlow : ∀ n, IsContinuation (UInt8.ofNat (0x80 + n % 0x40)) := by
    intro n
    rw [IsContinuation, toNat_byte (by omega)]
    omega
  simp only [encodeUnit]
  split
  · rename_i h
    have ha := toNat_byte (n := u.toNat) (by omega)
    exact ⟨.single (by omega) (by omega), by simp⟩
  · split
    · have ha := toNat_byte (n := 0xC0 + u.toNat / 0x40) (by omega)
      exact ⟨.pair _ (by omega) (by omega), List.forall_mem_singleton.mpr (hlow _)⟩
    · have ha := toNat_byte (n := 0xE0 + u.toNat / 0x1000) (by omega)
      have htail := List.forall_mem_cons.mpr ⟨hlow (u.toNat / 0x40),
        List.forall_mem_singleton.mpr (hlow u.toNat)⟩
      exact ⟨.triple _ _ (by omega) (by omega), htail⟩

theorem wellFormed_encodeUnits (us : List UInt16) : WellFormed (encodeUnits us) :=
  ⟨us.map encodeUnit, List.forall_mem_map.mpr fun u _ => isSequence_encodeUnit u, rfl⟩

/-- Neither zero nor a byte from `0xF0` up stands in a sequence. -/
theorem IsSequence.bounds (h : IsSequence s) : ∀ b ∈ s, b.toNat ≠ 0 ∧ b.toNat < 0xF0 := by
  have htail : ∀ b ∈ s.tail, b.toNat ≠ 0 ∧ b.toNat < 0xF0 := by
    intro b hb
    obtain ⟨hlow, hhigh⟩ := h.continued b hb
    omega
  cases h.led with
  | single hzero hlt => exact List.forall_mem_cons.mpr ⟨by omega, htail⟩
  | pair b hle hlt => exact List.forall_mem_cons.mpr ⟨by omega, htail⟩
  | triple b c hle hlt => exact List.forall_mem_cons.mpr ⟨by omega, htail⟩

theorem WellFormed.bounds (h : WellFormed bs) : ∀ b ∈ bs, b ≠ 0 ∧ b < 0xF0 := by
  obtain ⟨ss, hss, rfl⟩ := h
  intro b hb
  obtain ⟨s, hs, hbs⟩ := List.mem_flatten.mp hb
  obtain ⟨hzero, hlt⟩ := (hss s hs).bounds b hbs
  exact ⟨fun heq => hzero (UInt8.toNat_inj.mpr heq), UInt8.lt_iff_toNat_lt.mpr hlt⟩

theorem encode_append (s t : String) : encode (s ++ t) = encode s ++ encode t := by
  simp [encode, encodeUnits, Utf16.units]

theorem decode_encode (s : String) : decode (encode s) = .ok s :=
  decode_eq_ok.mpr (decodeUnits_encode s)

/-- Text is read back from what is written for it, which has no zero byte and none from `0xF0` up,
and is written piece by piece.  Text from any bytes takes no more bytes than these, and is read
back from them. -/
theorem encode_lossless :
    (∀ s, decode (encode s) = .ok s ∧ ∀ b ∈ encode s, b ≠ 0 ∧ b < 0xF0) ∧
    (∀ s t, encode (s ++ t) = encode s ++ encode t) ∧
    ∀ bs s, decode bs = .ok s →
      (encode s).length ≤ bs.length ∧ decode (encode s) = .ok s := by
  refine ⟨fun s => ⟨decode_encode s, ?_⟩, encode_append, fun bs s h => ⟨?_, decode_encode s⟩⟩
  · exact (wellFormed_encodeUnits _).bounds
  · exact length_encode_of_decode h

/-- A surrogate pair, and a letter in three bytes where one would do. -/
theorem encode_lossless_longLetter :
    decode [0xED, 0xA0, 0x81, 0xED, 0xB0, 0xB7, 0xE0, 0x81, 0x81] = .ok "𐐷A" ∧
      (encode "𐐷A").length ≤ 9 ∧ decode (encode "𐐷A") = .ok "𐐷A" := by
  have h : decode [0xED, 0xA0, 0x81, 0xED, 0xB0, 0xB7, 0xE0, 0x81, 0x81] = .ok "𐐷A" := by rfl
  exact ⟨h, encode_lossless.2.2 _ _ h⟩

/-! ## What is accepted -/

/-- Bytes are accepted if they can be cut by their first bytes, whatever the later ones are.  So
exactly the well-formed ones among them are accepted where the later bytes are continuation bytes,
and bytes that are accepted and not well formed come out as others when what was read is written. -/
theorem accepted_iff_led (bs : Bytes) :
    ((∃ us, decodeUnits bs = .ok us) ↔
      ∃ ss : List Bytes, (∀ s ∈ ss, IsLed s) ∧ ss.flatten = bs) ∧
    (((∃ us, decodeUnits bs = .ok us) ↔ WellFormed bs) ↔
      ∀ ss : List Bytes, (∀ s ∈ ss, IsLed s) → ss.flatten = bs →
        ∀ s ∈ ss, ∀ b ∈ s.tail, IsContinuation b) ∧
    ∀ us, decodeUnits bs = .ok us → ¬WellFormed bs →
      encodeUnits us ≠ bs ∧ decodeUnits (encodeUnits us) = .ok us := by
  have haccepted : (∃ us, decodeUnits bs = .ok us) ↔
      ∃ ss : List Bytes, (∀ s ∈ ss, IsLed s) ∧ ss.flatten = bs := by
    simp only [decodeUnits_eq_ok, exists_spells_iff]
  refine ⟨haccepted, ?_, fun us _ hbad => ⟨?_, decodeInto_encodeUnits [] us⟩⟩
  · rw [haccepted]
    constructor
    · rintro hiff ss hss rfl s hs
      have hsequences := (wellFormed_flatten hss).mp (hiff.mp ⟨ss, hss, rfl⟩)
      exact (hsequences s hs).continued
    · intro hcontinued
      constructor
      · rintro ⟨ss, hss, rfl⟩
        exact ⟨ss, fun s hs => ⟨hss s hs, hcontinued ss hss rfl s hs⟩, rfl⟩
      · rintro ⟨ss, hss, hflatten⟩
        exact ⟨ss, fun s hs => (hss s hs).led, hflatten⟩
  · rintro rfl
    exact hbad (wellFormed_encodeUnits us)

/-! ### A letter behind a byte that asks for one more -/

/-- The only cut is the whole, and the letter in it is no continuation byte. -/
theorem not_wellFormed_swallowedLetter : ¬WellFormed [0xC3, 0x41] := by
  intro h
  have hled : ∀ s ∈ [[(0xC3 : UInt8), 0x41]], IsLed s :=
    List.forall_mem_singleton.mpr (.pair _ (by decide) (by decide))
  have hsequence := (wellFormed_flatten hled).mp h _ List.mem_cons_self
  exact absurd (hsequence.continued 0x41 List.mem_cons_self).1 (by decide)

theorem accepted_iff_led_swallowedLetter :
    decodeUnits [0xC3, 0x41] = .ok [0xC1] ∧ ¬WellFormed [0xC3, 0x41] ∧
      encodeUnits [0xC1] ≠ [0xC3, 0x41] ∧ decodeUnits (encodeUnits [0xC1]) = .ok [0xC1] := by
  have hread : decodeUnits [0xC3, 0x41] = .ok [0xC1] := rfl
  exact ⟨hread, not_wellFormed_swallowedLetter,
    (accepted_iff_led [0xC3, 0x41]).2.2 _ hread not_wellFormed_swallowedLetter⟩

/-- The letter is taken for a later byte, and the text that comes of it is spelled otherwise. -/
theorem accepted_swallowedLetter :
    decode [0xC3, 0x41] = .ok "Á" ∧ encode "Á" = [0xC3, 0x81] ∧
      ¬((∃ us, decodeUnits [0xC3, 0x41] = .ok us) ↔ WellFormed [0xC3, 0x41]) :=
  ⟨rfl, by decide +kernel, fun hiff => not_wellFormed_swallowedLetter (hiff.mp ⟨_, rfl⟩)⟩

end ModifiedUtf8
end ClassRelabel
