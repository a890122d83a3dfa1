/-
Codecs read back what they write.

`Reads r bs a` says that `r` takes the bytes `bs` off the front of any byte string and returns
`a`.  It passes from the steps of a reader to the whole, so the order of the fields is stated
once.  `Codec.Faithful` says it of every value and the bytes written for it, and each way of
building a codec keeps it: `faithful_pair`, `faithful_iso`, `faithful_table`.
-/
import Mathlib.Algebra.Group.Nat.Defs
import ClassRelabel.Attribute.Code
import ClassRelabel.Attribute.Structure
import ClassRelabel.Proofs.Effect

namespace ClassRelabel

/-- A number that fits its width reads back. -/
theorem ofBigEndian_bigEndian {width n : Nat} (h : n < 256 ^ width) :
    ofBigEndian (bigEndian width n) = n := by
  induction width generalizing n with
  | zero => simp at h; simp [bigEndian, ofBigEndian, h]
  | succ width ih =>
    have hdiv : n / 256 < 256 ^ width := by
      rw [Nat.pow_succ] at h
      omega
    rw [bigEndian, ofBigEndian_append, ih hdiv, UInt8.toNat_ofNat']
    omega

variable {α β : Type}

namespace Reader

/-- The reader takes `bs` off the front, whatever stands behind, and returns `a`. -/
def Reads (r : Reader α) (bs : Bytes) (a : α) : Prop :=
  ∀ offset rest, r ⟨offset, bs ++ rest⟩ = .ok a ⟨offset + bs.length, rest⟩

theorem reads_pure (a : α) : Reads (pure a) [] a := fun _ _ => rfl

theorem reads_bind {r : Reader α} {f : α → Reader β} {bs cs : Bytes} {a : α} {b : β}
    (hr : Reads r bs a) (hf : Reads (f a) cs b) : Reads (r >>= f) (bs ++ cs) b := by
  intro offset rest
  rw [EStateM.bind_eq_ok]
  refine ⟨a, ⟨offset + bs.length, cs ++ rest⟩, ?_, ?_⟩
  · rw [List.append_assoc]
    exact hr offset (cs ++ rest)
  · rw [hf (offset + bs.length) rest, List.length_append, Nat.add_assoc]

/-- A last step that only packs what was read. -/
theorem reads_bind_pure {r : Reader α} {f : α → β} {bs : Bytes} {a : α} (hr : Reads r bs a) :
    Reads (r >>= fun a => pure (f a)) bs (f a) := by
  have h := reads_bind (f := fun a => pure (f a)) hr (reads_pure (f a))
  rwa [List.append_nil] at h

theorem reads_take {n : Nat} {bs : Bytes} (h : bs.length = n) : Reads (take n) bs bs := by
  subst h
  intro offset rest
  simp [take]

theorem reads_number {width n : Nat} (h : n < 256 ^ width) :
    Reads (number width) (bigEndian width n) n := by
  have htake := reads_take (length_bigEndian width n)
  have hn := reads_bind_pure (f := ofBigEndian) htake
  rwa [ofBigEndian_bigEndian h] at hn

theorem reads_u8 (n : UInt8) : Reads u8 [n] n := by
  have h : n.toNat < 256 ^ 1 := n.toNat_lt
  have hread := reads_bind_pure (f := UInt8.ofNat) (reads_number h)
  rwa [UInt8.ofNat_toNat, bigEndian, bigEndian, List.nil_append, UInt8.ofNat_toNat] at hread

theorem reads_u16 (n : UInt16) : Reads u16 (bigEndian 2 n.toNat) n := by
  have h : n.toNat < 256 ^ 2 := n.toNat_lt
  have hread := reads_bind_pure (f := UInt16.ofNat) (reads_number h)
  rwa [UInt16.ofNat_toNat] at hread

theorem reads_u32 (n : UInt32) : Reads u32 (bigEndian 4 n.toNat) n := by
  have h : n.toNat < 256 ^ 4 := n.toNat_lt
  have hread := reads_bind_pure (f := UInt32.ofNat) (reads_number h)
  rwa [UInt32.ofNat_toNat] at hread

theorem reads_u64 (n : UInt64) : Reads u64 (bigEndian 8 n.toNat) n := by
  have h : n.toNat < 256 ^ 8 := n.toNat_lt
  have hread := reads_bind_pure (f := UInt64.ofNat) (reads_number h)
  rwa [UInt64.ofNat_toNat] at hread

/-- The number of unread bytes is at least the number of those that are read. -/
theorem reads_remaining {f : Nat → Reader α} {bs : Bytes} {a : α}
    (hf : ∀ n, bs.length ≤ n → Reads (f n) bs a) : Reads (remaining >>= f) bs a := by
  intro offset rest
  rw [EStateM.bind_eq_ok]
  refine ⟨(bs ++ rest).length, _, rfl, hf _ ?_ offset rest⟩
  rw [List.length_append]
  omega

/-- Values one after the other, behind those read before. -/
theorem reads_timesInto {r : Reader α} {chunks : List Bytes} {xs : List α}
    (h : List.Forall₂ (Reads r) chunks xs) (before : List α) :
    Reads (timesInto r xs.length before) chunks.flatten (before.reverse ++ xs) := by
  induction h generalizing before with
  | nil =>
    rw [List.append_nil]
    exact reads_pure _
  | @cons bs a chunks xs hfirst _ ih =>
    have hrest := ih (a :: before)
    rw [List.reverse_cons, List.append_assoc, List.singleton_append] at hrest
    exact reads_bind hfirst hrest

theorem reads_times {r : Reader α} {chunks : List Bytes} {xs : List α}
    (h : List.Forall₂ (Reads r) chunks xs) : Reads (times xs.length r) chunks.flatten xs :=
  reads_timesInto h []

theorem returns_timesInto {P : α → Prop} {r : Reader α} (hr : EStateM.Returns P r) (n : Nat)
    {before : List α} (hbefore : ∀ x ∈ before, P x) :
    EStateM.Returns (fun xs => ∀ x ∈ xs, P x) (timesInto r n before) := by
  induction n generalizing before with
  | zero => exact EStateM.returns_pure fun x hx => hbefore x (List.mem_reverse.mp hx)
  | succ n ih =>
    refine EStateM.returns_bind hr fun a ha => ih fun x hx => ?_
    rcases List.mem_cons.mp hx with rfl | hx
    · exact ha
    · exact hbefore x hx

theorem returns_table {P : α → Prop} {r : Reader α} (hr : EStateM.Returns P r) :
    EStateM.Returns (fun xs => ∀ x ∈ xs, P x) (Reader.table r) :=
  EStateM.returns_then fun n => returns_timesInto hr n.toNat (by simp)

/-- A whole byte string that a reader takes is read as its value. -/
theorem all_eq_ok {r : Reader α} {leftOver : Nat → FormatFault} {bs : Bytes} {a : α}
    (h : Reads r bs a) : r.all leftOver bs = .ok a := by
  have hrun := h 0 []
  rw [List.append_nil] at hrun
  simp [all, Cursor.ofBytes, hrun]

/-- A value read from a whole byte string is one that the reader returns. -/
theorem of_all_eq_ok {P : α → Prop} {r : Reader α} {leftOver : Nat → FormatFault} {bs : Bytes}
    {a : α} (hr : EStateM.Returns P r) (h : r.all leftOver bs = .ok a) : P a := by
  unfold all at h
  split at h
  · rename_i b c hrun
    split at h
    · rw [← Except.ok.inj h]
      exact hr _ b c hrun
    · simp at h
  · simp at h

end Reader

open Reader

theorem tableLength_eq_ok {rows : Nat} {n : UInt16} :
    tableLength rows = .ok n ↔ rows < 0x10000 ∧ UInt16.ofNat rows = n := by
  by_cases h : rows < 0x10000 <;> simp [tableLength, h]

theorem toNat_of_tableLength {rows : Nat} {n : UInt16} (h : tableLength rows = .ok n) :
    n.toNat = rows := by
  obtain ⟨hlt, rfl⟩ := tableLength_eq_ok.mp h
  rw [UInt16.toNat_ofNat']
  omega

namespace Codec

/-- Every value is read back from the bytes written for it. -/
def Faithful (c : Codec α) : Prop :=
  ∀ a bs, c.write a = .ok bs → Reads c.read bs a

/-- The same of the values that `P` holds of. -/
def FaithfulOn (P : α → Prop) (c : Codec α) : Prop :=
  ∀ a, P a → ∀ bs, c.write a = .ok bs → Reads c.read bs a

theorem faithful_u16 : u16.Faithful := by
  rintro n bs ⟨⟩
  exact reads_u16 n

theorem write_pair_eq_ok {a : Codec α} {b : Codec β} {p : α × β} {bs : Bytes} :
    (a.pair b).write p = .ok bs ↔
      ∃ xs ys, a.write p.1 = .ok xs ∧ b.write p.2 = .ok ys ∧ xs ++ ys = bs := by
  simp only [pair, Except.bind_eq_ok, Except.pure_eq_ok]
  constructor
  · rintro ⟨xs, hx, ys, hy, h⟩
    exact ⟨xs, ys, hx, hy, h⟩
  · rintro ⟨xs, ys, hx, hy, h⟩
    exact ⟨xs, hx, ys, hy, h⟩

theorem reads_pair {a : Codec α} {b : Codec β} {xs ys : Bytes} {x : α} {y : β}
    (hx : Reads a.read xs x) (hy : Reads b.read ys y) : Reads (a.pair b).read (xs ++ ys) (x, y) :=
  reads_bind hx (reads_bind_pure hy)

theorem returns_pair {a : Codec α} {b : Codec β} {P : α → Prop} {Q : β → Prop}
    (ha : EStateM.Returns P a.read) (hb : EStateM.Returns Q b.read) :
    EStateM.Returns (fun x => P x.1 ∧ Q x.2) (a.pair b).read :=
  EStateM.returns_bind ha fun _ hx => EStateM.returns_bind hb fun _ hy =>
    EStateM.returns_pure ⟨hx, hy⟩

theorem faithful_pair {a : Codec α} {b : Codec β} (ha : a.Faithful) (hb : b.Faithful) :
    (a.pair b).Faithful := by
  rintro ⟨x, y⟩ bs h
  obtain ⟨xs, ys, hx, hy, rfl⟩ := write_pair_eq_ok.mp h
  exact reads_pair (ha x xs hx) (hb y ys hy)

theorem reads_iso {a : Codec α} {pack : α → β} {unpack : β → α} {bs : Bytes} {x : α}
    (h : Reads a.read bs x) : Reads (a.iso pack unpack).read bs (pack x) := by
  intro offset rest
  show (pack <$> a.read) ⟨offset, bs ++ rest⟩ = _
  rw [EStateM.map_eq_ok]
  exact ⟨x, h offset rest, rfl⟩

theorem faithful_iso {a : Codec α} {pack : α → β} {unpack : β → α} (ha : a.Faithful)
    (hpack : ∀ b, pack (unpack b) = b) : (a.iso pack unpack).Faithful := by
  intro b bs h
  rw [← hpack b]
  exact reads_iso (ha (unpack b) bs h)

theorem writeAll_cons_eq_ok {write : α → Except Fault Bytes} {x : α} {xs : List α} {bs : Bytes} :
    writeAll write (x :: xs) = .ok bs ↔
      ∃ first rest, write x = .ok first ∧ writeAll write xs = .ok rest ∧ first ++ rest = bs := by
  simp only [writeAll, List.mapM_cons, Except.bind_eq_ok, Except.pure_eq_ok]
  constructor
  · rintro ⟨_, ⟨first, hfirst, chunks, hchunks, rfl⟩, rfl⟩
    exact ⟨first, _, hfirst, ⟨chunks, hchunks, rfl⟩, List.flatten_cons.symm⟩
  · rintro ⟨first, rest, hfirst, ⟨chunks, hchunks, rfl⟩, rfl⟩
    exact ⟨_, ⟨first, hfirst, chunks, hchunks, rfl⟩, List.flatten_cons⟩

/-- The rows of a written list are read back one by one.  A row is no longer than the list. -/
theorem reads_of_writeAll {r : Reader α} {write : α → Except Fault Bytes} {xs : List α}
    {bs : Bytes} (hw : ∀ x ∈ xs, ∀ row : Bytes, row.length ≤ bs.length → write x = .ok row →
      Reads r row x) (h : writeAll write xs = .ok bs) : Reads (times xs.length r) bs xs := by
  obtain ⟨chunks, hchunks, h⟩ := Except.bind_eq_ok.mp h
  obtain rfl := Except.pure_eq_ok.mp h
  have hrows := Except.mapM_eq_ok.mp hchunks
  refine reads_times (List.forall₂_iff_get.mpr ⟨hrows.length_eq.symm, fun i hi hx => ?_⟩)
  have hle := (List.sublist_flatten_of_mem (List.get_mem chunks ⟨i, hi⟩)).length_le
  exact hw _ (List.get_mem xs ⟨i, hx⟩) _ hle (hrows.get hx hi)

theorem faithfulOn_table {P : α → Prop} {c : Codec α} (hc : c.FaithfulOn P) :
    c.table.FaithfulOn fun xs => ∀ x ∈ xs, P x := by
  intro xs hxs bs h
  obtain ⟨count, hcount, h⟩ := Except.bind_eq_ok.mp h
  obtain ⟨rows, hrows, h⟩ := Except.bind_eq_ok.mp h
  rw [← Except.pure_eq_ok.mp h]
  have hall := reads_of_writeAll (fun x hx row _ => hc x (hxs x hx) row) hrows
  rw [← toNat_of_tableLength hcount] at hall
  exact reads_bind (reads_u16 count) hall

theorem faithful_table {c : Codec α} (hc : c.Faithful) : c.table.Faithful := fun xs =>
  faithfulOn_table (P := fun _ => True) (fun x _ => hc x) xs fun _ _ => trivial

theorem faithful_block (tooLong : FormatFault) : (block tooLong).Faithful := by
  intro xs bs h
  by_cases hlt : xs.length < 0x100000000
  · obtain rfl : bigEndian 4 xs.length ++ xs = bs := by simpa [block, hlt] using h
    have hn : (UInt32.ofNat xs.length).toNat = xs.length := by
      rw [UInt32.toNat_ofNat']
      omega
    have hlength := reads_u32 (UInt32.ofNat xs.length)
    rw [hn] at hlength
    exact reads_bind hlength (reads_take hn.symm)
  · simp [block, hlt] at h

theorem FaithfulOn.decode_eq_ok {P : α → Prop} {c : Codec α} (hc : c.FaithfulOn P) {a : α}
    {bs : Bytes} (ha : P a) (h : c.write a = .ok bs) : c.decode bs = .ok a :=
  all_eq_ok (hc a ha bs h)

theorem Faithful.faithfulOn {c : Codec α} (hc : c.Faithful) : c.FaithfulOn fun _ => True :=
  fun a _ => hc a

end Codec

/-! ## Attributes and the payloads of attributes -/

open Codec

theorem Attribute.faithful_listCodec : Attribute.listCodec.Faithful :=
  faithful_table (faithful_iso (faithful_pair faithful_u16 (faithful_block _)) fun _ => rfl)

theorem Code.faithful_codec : Code.codec.Faithful := by
  have hhandler : Handler.codec.Faithful :=
    faithful_iso (faithful_pair faithful_u16 (faithful_pair faithful_u16
      (faithful_pair faithful_u16 faithful_u16))) fun _ => rfl
  exact faithful_iso (faithful_pair faithful_u16 (faithful_pair faithful_u16
    (faithful_pair (faithful_block _) (faithful_pair (faithful_table hhandler)
      Attribute.faithful_listCodec)))) fun _ => rfl

theorem LocalRow.faithful_tableCodec : LocalRow.tableCodec.Faithful :=
  faithful_table (faithful_iso (faithful_pair faithful_u16 (faithful_pair faithful_u16
    (faithful_pair faithful_u16 (faithful_pair faithful_u16 faithful_u16)))) fun _ => rfl)

theorem InnerClassRow.faithful_tableCodec : InnerClassRow.tableCodec.Faithful :=
  faithful_table (faithful_iso (faithful_pair faithful_u16 (faithful_pair faithful_u16
    (faithful_pair faithful_u16 faithful_u16))) fun _ => rfl)

theorem EnclosingMethod.faithful_codec : EnclosingMethod.codec.Faithful :=
  faithful_iso (faithful_pair faithful_u16 faithful_u16) fun _ => rfl

theorem RecordComponent.faithful_tableCodec : RecordComponent.tableCodec.Faithful :=
  faithful_table (faithful_iso (faithful_pair faithful_u16 (faithful_pair faithful_u16
    Attribute.faithful_listCodec)) fun _ => rfl)

end ClassRelabel
