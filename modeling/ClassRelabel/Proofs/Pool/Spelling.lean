/-
How a pool is written again.

`Constant.scan` and `Pool.spellings` find the bytes that spell the texts of a pool by the lengths of
its constants alone, without a look at what they mean.  A pool that is read is written by no more
bytes than it was read from, and by the same bytes exactly if each of its texts has the spelling
that is written for it (`Pool.takes_read`).  Nothing else is ever written in another way.
-/
import ClassRelabel.Proofs.Codec.Exact
import ClassRelabel.Proofs.Pool.Encoding
import ClassRelabel.Proofs.Text.Spelling

namespace ClassRelabel

open Reader

/-- Bytes that are written for the text they spell.  Bytes that spell no text are never written in
another way. -/
def ModifiedUtf8.Canonical (bs : Bytes) : Prop :=
  ∀ s, decode bs = .ok s → encode s = bs

/-- A spelling is compared with the one that is written for its text. -/
instance (bs : Bytes) : Decidable (ModifiedUtf8.Canonical bs) :=
  match h : ModifiedUtf8.decode bs with
  | .ok s => decidable_of_iff (ModifiedUtf8.encode s = bs)
      ⟨fun heq _ hs => Except.ok.inj (h.symm.trans hs) ▸ heq, fun hcanonical => hcanonical s h⟩
  | .error _ => .isTrue fun _ hs => by rw [h] at hs; contradiction

/-! ## The spellings of a pool -/

namespace Constant

/-- The number of bytes that the fields of a constant take, by its tag.  Texts are not among these
constants: their bytes are counted in front of them. -/
def fieldBytes (tag : UInt8) : Nat :=
  match tag.toNat with
  | 3 | 4 | 9 | 10 | 11 | 12 | 17 | 18 => 4
  | 5 | 6 => 8
  | 15 => 3
  | _ => 2

/-- The number of indices that a constant takes, by its tag. -/
def indexCount (tag : UInt8) : Nat := if tag = 5 ∨ tag = 6 then 2 else 1

/-- Passes over a constant.  Returns the number of indices it takes and, for a text, the bytes that
spell it. -/
def scan : Reader (Nat × Option Bytes) := do
  let tag ← Reader.u8
  if tag = 1 then
    let length ← Reader.u16
    let text ← Reader.take length.toNat
    return (1, some text)
  else
    let _ ← Reader.take (fieldBytes tag)
    return (indexCount tag, none)

end Constant

namespace Pool

/-- The bytes that spell the texts at the indices from `i` to the last one below `count`.  There are
at most `fuel` constants. -/
def spellingsFrom (count : Nat) : Nat → Nat → Reader (List Bytes)
  | 0, _ => pure []
  | fuel + 1, i =>
    if i < count then do
      let (width, text?) ← Constant.scan
      let texts ← spellingsFrom count fuel (i + width)
      return text?.toList ++ texts
    else
      pure []

/-- The bytes that spell the texts of a pool, in the order of their indices. -/
def spellings : Reader (List Bytes) := do
  let count ← Reader.u16
  spellingsFrom count.toNat count.toNat 1

end Pool

/-! ## Bytes before and after -/

/-- The bytes `written` take the place of `bs`, among which are `texts`, the spellings of texts. -/
structure Rewritten (texts : List Bytes) (bs written : Bytes) : Prop where
  length_le : written.length ≤ bs.length
  eq_iff : written = bs ↔ ∀ text ∈ texts, ModifiedUtf8.Canonical text

theorem Rewritten.refl (bs : Bytes) : Rewritten [] bs bs :=
  ⟨Nat.le_refl _, by simp⟩

theorem Rewritten.append {texts texts' : List Bytes} {bs bs' written written' : Bytes}
    (h : Rewritten texts bs written) (h' : Rewritten texts' bs' written') :
    Rewritten (texts ++ texts') (bs ++ bs') (written ++ written') := by
  constructor
  · have hle := h.length_le
    have hle' := h'.length_le
    rw [List.length_append, List.length_append]
    omega
  · rw [List.forall_mem_append, ← h.eq_iff, ← h'.eq_iff]
    constructor
    · intro heq
      -- Both parts are no longer than before, so none is shorter if the whole is as long.
      have hlength := congrArg List.length heq
      have hle := h.length_le
      have hle' := h'.length_le
      rw [List.length_append, List.length_append] at hlength
      exact List.append_inj heq (by omega)
    · rintro ⟨rfl, rfl⟩
      rfl

/-- Bytes in front that are no spelling of a text. -/
theorem Rewritten.append_left {texts : List Bytes} {bs written : Bytes} (front : Bytes)
    (h : Rewritten texts bs written) : Rewritten texts (front ++ bs) (front ++ written) :=
  (Rewritten.refl front).append h

/-- Bytes behind that are no spelling of a text. -/
theorem Rewritten.append_right {texts : List Bytes} {bs written : Bytes} (tail : Bytes)
    (h : Rewritten texts bs written) : Rewritten texts (bs ++ tail) (written ++ tail) := by
  have happend := h.append (Rewritten.refl tail)
  rwa [List.append_nil] at happend

/-! ## One constant -/

namespace Constant

/-- The constant is written for the bytes it was read from, and `scan` passes over these. -/
def Recoded (bs : Bytes) (c : Constant) : Prop :=
  ∃ text? written, Reads scan bs (Pool.width c, text?) ∧ c.encode = .ok written ∧
    Rewritten text?.toList bs written

theorem reads_scan_fields {tag : UInt8} {fields : Bytes} (htag : tag ≠ 1)
    (hlength : fields.length = fieldBytes tag) :
    Reads scan (tag :: fields) (indexCount tag, none) := by
  have hread : Reads Reader.u8 [tag] tag := reads_u8 tag
  refine reads_bind hread ?_
  rw [if_neg htag]
  exact reads_bind_pure (reads_take hlength)

theorem reads_scan_text {text : Bytes} (hlt : text.length < 0x10000) :
    Reads scan (1 :: (bigEndian 2 text.length ++ text)) (1, some text) := by
  have hn : (UInt16.ofNat text.length).toNat = text.length := by
    rw [UInt16.toNat_ofNat']
    omega
  have hlength := reads_u16 (UInt16.ofNat text.length)
  rw [hn] at hlength
  have hread : Reads Reader.u8 [1] 1 := reads_u8 1
  refine reads_bind hread ?_
  rw [if_pos rfl]
  exact reads_bind hlength (reads_bind_pure (reads_take hn.symm))

/-- A constant that is no text is written by the bytes it was read from. -/
theorem recoded_fields {tag : UInt8} {fields : Bytes} {c : Constant} (htag : tag ≠ 1)
    (hlength : fields.length = fieldBytes tag) (hwidth : Pool.width c = indexCount tag)
    (hencode : c.encode = .ok (tag :: fields)) : Recoded (tag :: fields) c := by
  refine ⟨none, _, ?_, hencode, Rewritten.refl _⟩
  rw [hwidth]
  exact reads_scan_fields htag hlength

theorem recoded_utf8 {text : Bytes} {s : String} (hlt : text.length < 0x10000)
    (hs : ModifiedUtf8.decode text = .ok s) :
    Recoded (1 :: (bigEndian 2 text.length ++ text)) (utf8 s) := by
  have hle := ModifiedUtf8.length_encode_of_decode hs
  have hfits : (ModifiedUtf8.encode s).length < 0x10000 := by omega
  refine ⟨some text, 1 :: (bigEndian 2 (ModifiedUtf8.encode s).length ++ ModifiedUtf8.encode s),
    reads_scan_text hlt, ?_, ?_, ?_⟩
  · simp [encode, Codec.text, hfits, bind, Except.bind, pure, Except.pure]
  · simp only [List.length_cons, List.length_append, length_bigEndian]
    omega
  · have hcanonical : (∀ t ∈ (some text).toList, ModifiedUtf8.Canonical t) ↔
        ModifiedUtf8.encode s = text := by
      simp [ModifiedUtf8.Canonical, hs]
    rw [hcanonical]
    constructor
    · intro heq
      have htail := (List.cons.inj heq).2
      exact (List.append_inj htail (by simp [length_bigEndian])).2
    · intro heq
      rw [heq]

theorem recoded_utf8Raw {text : Bytes} (hlt : text.length < 0x10000)
    (hraw : ∀ s, ModifiedUtf8.decode text ≠ .ok s) :
    Recoded (1 :: (bigEndian 2 text.length ++ text)) (utf8Raw text) := by
  have hn : (UInt16.ofNat text.length).toNat = text.length := by
    rw [UInt16.toNat_ofNat']
    omega
  refine ⟨some text, 1 :: (bigEndian 2 text.length ++ text), reads_scan_text hlt, ?_,
    Nat.le_refl _, ?_⟩
  · simp [encode, encodeIndex, tableLength_of_lt hlt, hn, bind, Except.bind, pure, Except.pure]
  · simp [ModifiedUtf8.Canonical, hraw]

/-- The fields of a constant, read behind its tag. -/
theorem takes_fields {α : Type} {r : Reader α} {make : α → Constant} {fields : α → Bytes}
    {tag : UInt8} (htag : tag ≠ 1) (hr : Takes (fun bs a => bs = fields a) r)
    (hlength : ∀ a, (fields a).length = fieldBytes tag)
    (hwidth : ∀ a, Pool.width (make a) = indexCount tag)
    (hencode : ∀ a, (make a).encode = .ok (tag :: fields a)) :
    Takes (fun bs c => Recoded ([tag] ++ bs) c) (r >>= fun a => pure (make a)) := by
  refine takes_bind hr ?_
  rintro a _ rfl
  refine takes_pure ?_
  rw [List.append_nil]
  exact recoded_fields htag (hlength a) (hwidth a) (hencode a)

theorem takes_index {make : Index → Constant} {tag : UInt8} (htag : tag ≠ 1)
    (hbytes : fieldBytes tag = 2) (hwidth : ∀ i, Pool.width (make i) = indexCount tag)
    (hencode : ∀ i, (make i).encode = .ok (tag :: encodeIndex i)) :
    Takes (fun bs c => Recoded ([tag] ++ bs) c) (Reader.u16 >>= fun i => pure (make i)) :=
  takes_fields htag takes_u16 (fun i => by rw [length_bigEndian, hbytes]) hwidth hencode

theorem takes_readPair {make : Index → Index → Constant} {tag : UInt8} (htag : tag ≠ 1)
    (hbytes : fieldBytes tag = 4) (hwidth : ∀ i j, Pool.width (make i j) = indexCount tag)
    (hencode : ∀ i j, (make i j).encode = .ok (tag :: encodeIndex i ++ encodeIndex j)) :
    Takes (fun bs c => Recoded ([tag] ++ bs) c) (readPair make) := by
  refine takes_bind takes_u16 ?_
  rintro i _ rfl
  refine takes_bind takes_u16 ?_
  rintro j _ rfl
  refine takes_pure ?_
  rw [List.append_nil]
  refine recoded_fields htag ?_ (hwidth i j) (hencode i j)
  show (bigEndian 2 i.toNat ++ bigEndian 2 j.toNat).length = fieldBytes tag
  rw [List.length_append, length_bigEndian, length_bigEndian, hbytes]

theorem takes_readText : Takes (fun bs c => Recoded ([1] ++ bs) c) readText := by
  refine takes_bind takes_u16 ?_
  rintro n _ rfl
  refine takes_bind (takes_take n.toNat) ?_
  rintro _ bs ⟨rfl, hlength⟩
  have hlt : bs.length < 0x10000 := by
    rw [hlength]
    exact n.toNat_lt
  refine takes_bind (takes_ofFormat _) ?_
  rintro us _ ⟨rfl, hus⟩
  split
  · rename_i cs hcs
    refine takes_pure ?_
    rw [List.append_nil, List.append_nil, ← hlength]
    refine recoded_utf8 hlt ?_
    rw [ModifiedUtf8.decode_eq_ok, hus, String.toList_ofList, Utf16.units_of_ofUnits? hcs]
  · rename_i hnone
    refine takes_pure ?_
    rw [List.append_nil, List.append_nil, ← hlength]
    refine recoded_utf8Raw hlt fun s hs => ?_
    rw [ModifiedUtf8.decode_eq_ok, hus] at hs
    rw [Except.ok.inj hs, Utf16.ofUnits?_units] at hnone
    simp at hnone

theorem takes_read : Takes Recoded read := by
  refine takes_bind takes_u8 ?_
  rintro tag _ rfl
  have htag : ∀ n : UInt8, tag.toNat = n.toNat → tag = n := fun n => UInt8.toNat_inj.mp
  split <;> rename_i heq
  · obtain rfl := htag 1 heq
    exact takes_readText
  · obtain rfl := htag 3 heq
    exact takes_fields (by decide) takes_u32 (fun _ => length_bigEndian 4 _) (fun _ => rfl)
      fun n => by rw [encode, UInt32.toUInt32_toInt32]
  · obtain rfl := htag 4 heq
    exact takes_fields (by decide) takes_u32 (fun _ => length_bigEndian 4 _) (fun _ => rfl)
      fun _ => rfl
  · obtain rfl := htag 5 heq
    exact takes_fields (by decide) takes_u64 (fun _ => length_bigEndian 8 _) (fun _ => rfl)
      fun n => by rw [encode, UInt64.toUInt64_toInt64]
  · obtain rfl := htag 6 heq
    exact takes_fields (by decide) takes_u64 (fun _ => length_bigEndian 8 _) (fun _ => rfl)
      fun _ => rfl
  · obtain rfl := htag 7 heq
    exact takes_index (by decide) rfl (fun _ => rfl) fun _ => rfl
  · obtain rfl := htag 8 heq
    exact takes_index (by decide) rfl (fun _ => rfl) fun _ => rfl
  · obtain rfl := htag 9 heq
    exact takes_readPair (by decide) rfl (fun _ _ => rfl) fun _ _ => rfl
  · obtain rfl := htag 10 heq
    exact takes_readPair (by decide) rfl (fun _ _ => rfl) fun _ _ => rfl
  · obtain rfl := htag 11 heq
    exact takes_readPair (by decide) rfl (fun _ _ => rfl) fun _ _ => rfl
  · obtain rfl := htag 12 heq
    exact takes_readPair (by decide) rfl (fun _ _ => rfl) fun _ _ => rfl
  · obtain rfl := htag 15 heq
    refine takes_bind takes_u8 ?_
    rintro kind _ rfl
    refine takes_bind takes_u16 ?_
    rintro i _ rfl
    refine takes_pure (recoded_fields (by decide) ?_ rfl rfl)
    simp [length_bigEndian, fieldBytes]
  · obtain rfl := htag 16 heq
    exact takes_index (by decide) rfl (fun _ => rfl) fun _ => rfl
  · obtain rfl := htag 17 heq
    exact takes_readPair (by decide) rfl (fun _ _ => rfl) fun _ _ => rfl
  · obtain rfl := htag 18 heq
    exact takes_readPair (by decide) rfl (fun _ _ => rfl) fun _ _ => rfl
  · obtain rfl := htag 19 heq
    exact takes_index (by decide) rfl (fun _ => rfl) fun _ => rfl
  · obtain rfl := htag 20 heq
    exact takes_index (by decide) rfl (fun _ => rfl) fun _ => rfl
  · intro c a c' hrun
    obtain ⟨_, d, _, hthrow⟩ := EStateM.bind_eq_ok.mp hrun
    exact (EStateM.returns_error (P := fun _ => False) _ d a c' hthrow).elim

end Constant

/-! ## The whole pool -/

namespace Pool

/-- The constant and, behind a wide one, the index it takes besides. -/
def taken (c : Constant) : List Constant := if c.isWide then [c, .unusable] else [c]

theorem toList_push {c : Constant} {p q : Pool} {i : Index} (h : push c p = .ok i q) :
    q.slots.toList = p.slots.toList ++ taken c := by
  obtain ⟨-, -, rfl⟩ := push_eq_ok.mp h
  unfold append taken
  split <;> simp

theorem writeAll_taken {c : Constant} {bs : Bytes} (h : c.encode = .ok bs) :
    Codec.writeAll Constant.encode (taken c) = .ok bs := by
  have hnil : Codec.writeAll Constant.encode [] = .ok [] := rfl
  unfold taken
  split
  · refine Codec.writeAll_cons_eq_ok.mpr ⟨bs, [], h, ?_, List.append_nil bs⟩
    exact Codec.writeAll_cons_eq_ok.mpr ⟨[], [], rfl, hnil, rfl⟩
  · exact Codec.writeAll_cons_eq_ok.mpr ⟨bs, [], h, hnil, List.append_nil bs⟩

theorem writeAll_append {write : Constant → Except Fault Bytes} {cs ds : List Constant}
    {bs bs' : Bytes} (h : Codec.writeAll write cs = .ok bs)
    (h' : Codec.writeAll write ds = .ok bs') : Codec.writeAll write (cs ++ ds) = .ok (bs ++ bs') := by
  induction cs generalizing bs with
  | nil =>
    obtain rfl : [] = bs := Except.ok.inj h
    exact h'
  | cons c cs ih =>
    obtain ⟨first, rest, hfirst, hrest, rfl⟩ := Codec.writeAll_cons_eq_ok.mp h
    exact Codec.writeAll_cons_eq_ok.mpr
      ⟨first, rest ++ bs', hfirst, ih hrest, (List.append_assoc first rest bs').symm⟩

/-- What is read behind the constants of `p` is written again behind them. -/
theorem takes_readInto {count fuel : Nat} {p : Pool} :
    Takes (fun bs q => ∃ added texts written, q.slots.toList = p.slots.toList ++ added ∧
      Reads (spellingsFrom count fuel p.count) bs texts ∧
      Codec.writeAll Constant.encode added = .ok written ∧ Rewritten texts bs written)
      (readInto count fuel p) := by
  induction fuel generalizing p with
  | zero =>
    refine takes_pure ⟨[], [], [], (List.append_nil _).symm, reads_pure [], rfl, Rewritten.refl []⟩
  | succ fuel ih =>
    rw [readInto, spellingsFrom]
    by_cases hlt : p.count < count
    · rw [if_pos hlt, if_pos hlt]
      refine takes_bind Constant.takes_read ?_
      rintro c bs ⟨text?, written, hscan, hencode, hwritten⟩
      cases hpush : push c p with
      | error e q => exact takes_error _
      | ok i p' =>
        have hcount : p'.count = p.count + width c := count_push hpush
        refine takes_imp ih ?_
        rintro bs' q ⟨added, texts, written', hslots, htexts, hwriteAll, hwritten'⟩
        rw [hcount] at htexts
        refine ⟨taken c ++ added, text?.toList ++ texts, written ++ written', ?_, ?_, ?_,
          hwritten.append hwritten'⟩
        · rw [hslots, toList_push hpush, List.append_assoc]
        · exact reads_bind hscan (reads_bind_pure htexts)
        · exact writeAll_append (writeAll_taken hencode) hwriteAll
    · rw [if_neg hlt, if_neg hlt]
      exact takes_pure ⟨[], [], [], (List.append_nil _).symm, reads_pure [], rfl, Rewritten.refl []⟩

/-- A pool that is read is written for the bytes it was read from. -/
theorem takes_read : Takes (fun bs p => ∃ texts written, Reads spellings bs texts ∧
    p.encode = .ok written ∧ Rewritten texts bs written) read := by
  refine takes_bind takes_u16 ?_
  rintro n _ rfl
  refine takes_bind takes_readInto ?_
  rintro p bs ⟨added, texts, written, hslots, htexts, hwriteAll, hwritten⟩
  by_cases hcount : p.count = n.toNat
  · rw [if_pos hcount]
    refine takes_pure ⟨texts, bigEndian 2 n.toNat ++ written, ?_, ?_, ?_⟩
    · rw [List.append_nil]
      exact reads_bind (reads_u16 n) htexts
    · have hlt : p.count < 0x10000 := by
        rw [hcount]
        exact n.toNat_lt
      have hdrop : p.slots.toList.drop 1 = added := by
        rw [hslots]
        rfl
      rw [encode, if_pos hlt, hdrop, hwriteAll, hcount]
      rfl
    · rw [List.append_nil]
      exact hwritten.append_left _
  · rw [if_neg hcount]
    exact takes_error _

end Pool
end ClassRelabel
