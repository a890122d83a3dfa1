/-
A constant pool reads back what it wrote.

What is read is a storable constant, so a pool that is read is well formed
(`returns_wellFormed_read`).  A well formed pool that is written is read back with the same
constants at the same indices (`reads_encode`); only its tables are built anew.
-/
import ClassRelabel.Pool.Encoding
import ClassRelabel.Proofs.Codec
import ClassRelabel.Proofs.Pool.Interning
import ClassRelabel.Proofs.Text.ModifiedUtf8

namespace ClassRelabel

open EStateM Reader

namespace Constant

/-! ## One constant -/

theorem storable_of_ne {c : Constant} (hu : c ≠ unusable) (hr : ∀ bs, c ≠ utf8Raw bs) :
    c.Storable :=
  ⟨hu, fun bs h => absurd h (hr bs)⟩

theorem returns_length_take (n : Nat) : Returns (fun bs : Bytes => bs.length = n) (take n) := by
  intro c bs c' h
  simp only [take] at h
  split at h
  · rename_i hlength
    simp only [EStateM.Result.ok.injEq] at h
    rw [← h.1]
    exact hlength
  · simp at h

theorem returns_ofFormat {α : Type} (x : Except FormatFault α) :
    Returns (fun a => x = .ok a) (ofFormat x) := by
  cases x with
  | ok a => exact returns_pure rfl
  | error e => exact returns_error _

theorem returns_storable_readText : Returns Storable readText := by
  refine returns_then fun length => returns_bind (returns_length_take length.toNat) fun bs hbs =>
    returns_bind (returns_ofFormat _) fun us hus => ?_
  split
  · exact returns_pure (storable_of_ne (by simp) (by simp))
  · rename_i hnone
    have hlt : bs.length < 0x10000 := by
      rw [hbs]
      exact length.toNat_lt
    refine returns_pure ⟨by simp, ?_⟩
    rintro _ ⟨⟩
    exact ⟨hlt, us, hus, hnone⟩

theorem returns_storable_readPair {make : Index → Index → Constant}
    (h : ∀ a b, (make a b).Storable) : Returns Storable (readPair make) :=
  returns_then fun a => returns_then fun b => returns_pure (h a b)

theorem returns_storable_read : Returns Storable read := by
  refine returns_then fun tag => ?_
  split
  · exact returns_storable_readText
  all_goals first
    | exact returns_then fun _ => returns_pure (storable_of_ne (by simp) (by simp))
    | exact returns_storable_readPair fun _ _ => storable_of_ne (by simp) (by simp)
    | exact returns_then fun _ => returns_then fun _ =>
        returns_pure (storable_of_ne (by simp) (by simp))
    | exact returns_then fun _ => returns_error _

theorem reads_readText {bs : Bytes} {us : List UInt16} (hlt : bs.length < 0x10000)
    (hus : ModifiedUtf8.decodeUnits bs = .ok us) :
    Reads readText (bigEndian 2 bs.length ++ bs) (match Utf16.ofUnits? us with
      | some cs => utf8 (String.ofList cs)
      | none => utf8Raw bs) := by
  have hn : (UInt16.ofNat bs.length).toNat = bs.length := by
    rw [UInt16.toNat_ofNat']
    omega
  have hlength := reads_u16 (UInt16.ofNat bs.length)
  rw [hn] at hlength
  refine reads_bind hlength ?_
  rw [hn, ← List.append_nil bs]
  refine reads_bind (reads_take (by rw [List.append_nil])) ?_
  rw [List.append_nil, hus]
  have hunits : Reads (ofFormat (.ok us)) [] us := reads_pure us
  refine reads_bind hunits ?_
  cases Utf16.ofUnits? us with
  | none => exact reads_pure _
  | some cs => exact reads_pure _

theorem reads_readPair (make : Index → Index → Constant) (a b : Index) :
    Reads (readPair make) (encodeIndex a ++ encodeIndex b) (make a b) :=
  reads_bind (reads_u16 a) (reads_bind_pure (reads_u16 b))

/-- A constant that can be read is read back from its bytes. -/
theorem reads_encode {c : Constant} {bs : Bytes} (hc : c.Storable) (h : c.encode = .ok bs) :
    Reads read bs c := by
  -- The tag selects how the rest is read.
  cases c with
  | unusable => exact absurd rfl hc.usable
  | utf8 s =>
    obtain ⟨bs, hbs, h⟩ := Except.bind_eq_ok.mp h
    rw [← Except.pure_eq_ok.mp h]
    simp only [Codec.text] at hbs
    split at hbs
    · rename_i hlt
      obtain rfl := Except.ok.inj hbs
      have htext := reads_readText hlt (ModifiedUtf8.decodeUnits_encode s)
      rw [Utf16.ofUnits?_units] at htext
      simp only [String.ofList_toList] at htext
      exact reads_bind (reads_u8 1) htext
    · simp at hbs
  | utf8Raw raw =>
    obtain ⟨n, hn, h⟩ := Except.bind_eq_ok.mp h
    rw [← Except.pure_eq_ok.mp h, encodeIndex, toNat_of_tableLength hn, List.cons_append]
    obtain ⟨hlt, us, hus, hnone⟩ := hc.raw raw rfl
    have htext := reads_readText hlt hus
    rw [hnone] at htext
    exact reads_bind (reads_u8 1) htext
  | integer n =>
    obtain rfl := Except.ok.inj h
    have hvalue := reads_bind_pure (f := fun n => integer n.toInt32) (reads_u32 n.toUInt32)
    exact reads_bind (reads_u8 3) hvalue
  | float n =>
    obtain rfl := Except.ok.inj h
    exact reads_bind (reads_u8 4) (reads_bind_pure (reads_u32 n))
  | long n =>
    obtain rfl := Except.ok.inj h
    have hvalue := reads_bind_pure (f := fun n => long n.toInt64) (reads_u64 n.toUInt64)
    exact reads_bind (reads_u8 5) hvalue
  | double n =>
    obtain rfl := Except.ok.inj h
    exact reads_bind (reads_u8 6) (reads_bind_pure (reads_u64 n))
  | classRef i =>
    obtain rfl := Except.ok.inj h
    exact reads_bind (reads_u8 7) (reads_bind_pure (reads_u16 i))
  | string i =>
    obtain rfl := Except.ok.inj h
    exact reads_bind (reads_u8 8) (reads_bind_pure (reads_u16 i))
  | member kind owner i =>
    cases kind with
    | field =>
      obtain rfl := Except.ok.inj h
      rw [List.cons_append]
      exact reads_bind (reads_u8 9) (reads_readPair _ owner i)
    | method =>
      obtain rfl := Except.ok.inj h
      rw [List.cons_append]
      exact reads_bind (reads_u8 10) (reads_readPair _ owner i)
    | interfaceMethod =>
      obtain rfl := Except.ok.inj h
      rw [List.cons_append]
      exact reads_bind (reads_u8 11) (reads_readPair _ owner i)
  | nameAndType a b =>
    obtain rfl := Except.ok.inj h
    rw [List.cons_append]
    exact reads_bind (reads_u8 12) (reads_readPair _ a b)
  | methodHandle kind i =>
    obtain rfl := Except.ok.inj h
    exact reads_bind (reads_u8 15) (reads_bind (reads_u8 kind.raw) (reads_bind_pure (reads_u16 i)))
  | methodType i =>
    obtain rfl := Except.ok.inj h
    exact reads_bind (reads_u8 16) (reads_bind_pure (reads_u16 i))
  | dynamic bootstrap i =>
    obtain rfl := Except.ok.inj h
    rw [List.cons_append]
    exact reads_bind (reads_u8 17) (reads_readPair _ bootstrap i)
  | invokeDynamic bootstrap i =>
    obtain rfl := Except.ok.inj h
    rw [List.cons_append]
    exact reads_bind (reads_u8 18) (reads_readPair _ bootstrap i)
  | moduleRef i =>
    obtain rfl := Except.ok.inj h
    exact reads_bind (reads_u8 19) (reads_bind_pure (reads_u16 i))
  | packageRef i =>
    obtain rfl := Except.ok.inj h
    exact reads_bind (reads_u8 20) (reads_bind_pure (reads_u16 i))

end Constant

namespace Pool

/-! ## The whole pool -/

section Returns

variable {C : Constant → Prop} {P : Pool → Prop}

/-- What every constant that is read keeps of the pool it is appended to holds of the pool that is
read. -/
theorem returns_readInto (hread : Returns C Constant.read)
    (hpush : ∀ c p i q, C c → P p → push c p = .ok i q → P q) {count fuel : Nat} {p : Pool}
    (hp : P p) : Returns P (readInto count fuel p) := by
  induction fuel generalizing p with
  | zero => exact returns_pure hp
  | succ fuel ih =>
    rw [readInto]
    split
    · refine returns_bind hread fun c hc => ?_
      split
      · rename_i hrun
        exact ih (hpush _ _ _ _ hc hp hrun)
      · exact returns_error _
    · exact returns_pure hp

theorem returns_read (hread : Returns C Constant.read)
    (hpush : ∀ c p i q, C c → P p → push c p = .ok i q → P q) (hempty : P empty) :
    Returns P read := by
  refine returns_then fun count => returns_bind (returns_readInto hread hpush hempty)
    fun p hp => ?_
  split
  · exact returns_pure hp
  · exact returns_error _

end Returns

theorem returns_wellFormed_read : Returns WellFormed read :=
  returns_read Constant.returns_storable_read (fun _ _ _ _ hc hp h => wellFormed_push h hc hp)
    wellFormed_empty

/-- `q` holds the first constants of `p`, up to one that is written next. -/
structure Begins (q p : Pool) : Prop where
  count_le : q.count ≤ p.count
  same : ∀ j : Nat, j < q.count → q.slots[j]? = p.slots[j]?
  next : p.slots[q.count]? ≠ some .unusable

theorem Begins.slots_eq {p q : Pool} (h : Begins q p) (hcount : ¬q.count < p.count) :
    q.slots = p.slots := by
  have hsize : q.slots.size = p.slots.size := Nat.le_antisymm h.count_le (Nat.not_lt.mp hcount)
  refine Array.ext_getElem? fun j => ?_
  by_cases hj : j < q.slots.size
  · exact h.same j hj
  · rw [Array.getElem?_eq_none (by omega), Array.getElem?_eq_none (by omega)]

/-- The number of indices that a constant takes. -/
def width (c : Constant) : Nat := if c.isWide then 2 else 1

/-- The next constant fits and is again in its place. -/
theorem Begins.push {p q : Pool} {c : Constant} (h : Begins q p) (hp : p.WellLaid)
    (hc : p.slots[q.count]? = some c) :
    ∃ i q', Pool.push c q = .ok i q' ∧ Begins q' p ∧ q'.count = q.count + width c := by
  have hlt : q.count < p.count := lt_size_of_getElem? hc
  have hmax := hp.count_lt
  have hsecond : c.isWide = true → q.count + 1 < p.count := fun hw =>
    lt_size_of_getElem? (hp.wide _ c hc hw)
  have hlimit : q.count < limit c := by
    unfold limit
    split
    · rename_i hw
      have hnext := hsecond hw
      omega
    · omega
  obtain ⟨q', hpush⟩ : ∃ q', Pool.push c q = .ok (UInt16.ofNat q.count) q' :=
    ⟨_, push_eq_ok.mpr ⟨hlimit, rfl, rfl⟩⟩
  have hcount : q'.count = q.count + width c := count_push hpush
  refine ⟨_, q', hpush, ⟨?_, ?_, ?_⟩, hcount⟩
  · rw [hcount, width]
    split
    · exact hsecond ‹_›
    · exact hlt
  · intro j hj
    rw [hcount, width] at hj
    rw [getElem?_push hpush]
    split
    · exact h.same j ‹_›
    · rename_i hge
      have hge' : q.count ≤ j := Nat.not_lt.mp hge
      split
      · rename_i heq
        rw [heq]
        exact hc.symm
      · rename_i hne
        have hne' : j ≠ q.count := hne
        by_cases hw : c.isWide = true
        · rw [if_pos hw] at hj
          obtain rfl : j = q.count + 1 := by omega
          rw [if_pos ⟨rfl, hw⟩]
          exact (hp.wide _ c hc hw).symm
        · rw [if_neg hw] at hj
          omega
  · rw [hcount, width]
    intro hu
    by_cases hw : c.isWide = true
    · rw [if_pos hw] at hu
      obtain ⟨d, hd, hdw⟩ := hp.usable _ hu
      rw [hp.wide _ c hc hw] at hd
      rw [← Option.some.inj hd] at hdw
      simp [Constant.isWide] at hdw
    · rw [if_neg hw] at hu
      obtain ⟨d, hd, hdw⟩ := hp.usable _ hu
      rw [hc] at hd
      exact hw (by rwa [Option.some.inj hd])

theorem drop_toList {p : Pool} {j : Nat} {c : Constant} (hc : p.slots[j]? = some c) :
    p.slots.toList.drop j = c :: p.slots.toList.drop (j + 1) := by
  rw [← Array.getElem?_toList] at hc
  obtain ⟨hlt, hget⟩ := List.getElem?_eq_some_iff.mp hc
  rw [List.drop_eq_getElem_cons hlt, hget]

/-- A constant is written in front of those behind its last index. -/
theorem writeAll_drop {p : Pool} {j : Nat} {c : Constant} {bs : Bytes} (hp : p.WellLaid)
    (hc : p.slots[j]? = some c)
    (hbs : Codec.writeAll Constant.encode (p.slots.toList.drop j) = .ok bs) :
    ∃ first rest, c.encode = .ok first ∧
      Codec.writeAll Constant.encode (p.slots.toList.drop (j + width c)) = .ok rest ∧
      first ++ rest = bs := by
  rw [drop_toList hc] at hbs
  obtain ⟨first, rest, hfirst, hrest, h⟩ := Codec.writeAll_cons_eq_ok.mp hbs
  refine ⟨first, rest, hfirst, ?_, h⟩
  unfold width
  split
  · rename_i hw
    -- The second index of a wide constant is written as nothing.
    rw [drop_toList (hp.wide j c hc hw)] at hrest
    obtain ⟨none, rest', hnone, hrest', rfl⟩ := Codec.writeAll_cons_eq_ok.mp hrest
    rw [← Except.ok.inj hnone]
    exact hrest'
  · exact hrest

theorem writeAll_drop_of_le {p : Pool} {j : Nat} {bs : Bytes} (h : p.count ≤ j)
    (hbs : Codec.writeAll Constant.encode (p.slots.toList.drop j) = .ok bs) : [] = bs := by
  rw [List.drop_eq_nil_of_le h] at hbs
  exact Except.ok.inj hbs

/-- The constants of `p` from the next on are read behind those of `q`. -/
theorem reads_readInto {p q : Pool} {fuel : Nat} {bs : Bytes} (hp : p.WellLaid) (hq : Begins q p)
    (hfuel : p.count ≤ q.count + fuel)
    (hbs : Codec.writeAll Constant.encode (p.slots.toList.drop q.count) = .ok bs) :
    ∃ r, r.slots = p.slots ∧ Reads (readInto p.count fuel q) bs r := by
  induction fuel generalizing q bs with
  | zero =>
    obtain rfl := writeAll_drop_of_le (by omega) hbs
    exact ⟨q, hq.slots_eq (by omega), reads_pure q⟩
  | succ fuel ih =>
    rw [readInto]
    by_cases hlt : q.count < p.count
    · rw [if_pos hlt]
      have hc : p.slots[q.count]? = some p.slots[q.count] := Array.getElem?_eq_getElem hlt
      generalize p.slots[q.count] = c at hc
      have hstorable : c.Storable := by
        refine ⟨?_, fun raw hraw => hp.raw _ raw (by rw [hc, hraw])⟩
        rintro rfl
        exact hq.next hc
      obtain ⟨first, rest, hfirst, hrest, rfl⟩ := writeAll_drop hp hc hbs
      obtain ⟨i, q', hpush, hq', hcount⟩ := hq.push hp hc
      rw [← hcount] at hrest
      have hwidth : 0 < width c := by
        unfold width
        split <;> omega
      obtain ⟨r, hr, hreads⟩ := ih hq' (by omega) hrest
      refine ⟨r, hr, reads_bind (Constant.reads_encode hstorable hfirst) ?_⟩
      rw [hpush]
      exact hreads
    · obtain rfl := writeAll_drop_of_le (Nat.not_lt.mp hlt) hbs
      rw [if_neg hlt]
      exact ⟨q, hq.slots_eq hlt, reads_pure q⟩

theorem begins_empty {p : Pool} (hp : p.WellLaid) : Begins empty p where
  count_le := lt_size_of_getElem? hp.zero
  same j hj := by
    obtain rfl : j = 0 := Nat.lt_one_iff.mp hj
    rw [hp.zero]
    rfl
  next hu := by
    obtain ⟨d, hd, hw⟩ := hp.usable 0 hu
    rw [hp.zero] at hd
    rw [← Option.some.inj hd] at hw
    simp [Constant.isWide] at hw

/-- A pool that is written is read back with the same constants at the same indices. -/
theorem reads_encode {p : Pool} {bs : Bytes} (hp : p.WellLaid) (h : p.encode = .ok bs) :
    ∃ q, q.slots = p.slots ∧ Reads read bs q := by
  simp only [encode] at h
  split at h
  · rename_i hlt
    obtain ⟨constants, hconstants, h⟩ := Except.bind_eq_ok.mp h
    rw [← Except.pure_eq_ok.mp h]
    have hfuel : p.count ≤ empty.count + p.count := Nat.le_add_left _ _
    obtain ⟨q, hq, hreads⟩ := reads_readInto hp (begins_empty hp) hfuel hconstants
    have hn : (UInt16.ofNat p.count).toNat = p.count := by
      rw [UInt16.toNat_ofNat']
      omega
    have hcount := reads_u16 (UInt16.ofNat p.count)
    rw [hn] at hcount
    refine ⟨q, hq, reads_bind hcount ?_⟩
    rw [hn, ← List.append_nil constants]
    refine reads_bind hreads ?_
    have hsize : q.count = p.count := congrArg Array.size hq
    rw [if_pos hsize]
    exact reads_pure q
  · simp at h

end Pool
end ClassRelabel
