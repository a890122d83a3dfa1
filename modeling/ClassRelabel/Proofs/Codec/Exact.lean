/-
Codecs write back what they read.

`Takes P r` says of every successful run of `r` that it took bytes off the front, which `P` relates
to the value read, and that it reads the same value off these bytes whatever stands behind them.
`Codec.Exact` is the case where writing the value gives the bytes.  It is the converse of
`Codec.Faithful`, and every way of building a codec keeps it as well.
-/
import Mathlib.Data.List.Induction
import ClassRelabel.ClassFile
import ClassRelabel.Proofs.Codec

namespace ClassRelabel

variable {α β : Type}

/-- A byte string is what its number is written by. -/
theorem bigEndian_ofBigEndian (bs : Bytes) : bigEndian bs.length (ofBigEndian bs) = bs := by
  induction bs using List.reverseRecOn with
  | nil => rfl
  | append_singleton bs b ih =>
    have hb : b.toNat < 256 := b.toNat_lt
    have hdiv : (ofBigEndian bs * 256 + b.toNat) / 256 = ofBigEndian bs := by omega
    have hbyte : UInt8.ofNat (ofBigEndian bs * 256 + b.toNat) = b := by
      rw [← UInt8.toNat_inj, UInt8.toNat_ofNat']
      omega
    rw [List.length_append, List.length_singleton, bigEndian, ofBigEndian_append, hdiv, hbyte, ih]

theorem ofBigEndian_lt (bs : Bytes) : ofBigEndian bs < 256 ^ bs.length := by
  induction bs using List.reverseRecOn with
  | nil => simp [ofBigEndian]
  | append_singleton bs b ih =>
    have hb : b.toNat < 256 := b.toNat_lt
    rw [ofBigEndian_append, List.length_append, List.length_singleton, Nat.pow_succ]
    omega

namespace Reader

variable {P : Bytes → α → Prop} {Q : Bytes → β → Prop}

/-- Every successful run takes bytes off the front that `P` relates to what is returned. -/
def Takes (P : Bytes → α → Prop) (r : Reader α) : Prop :=
  ∀ c a c', r c = .ok a c' → ∃ bs, c.rest = bs ++ c'.rest ∧ Reads r bs a ∧ P bs a

theorem takes_imp {P' : Bytes → α → Prop} {r : Reader α} (hr : Takes P r)
    (h : ∀ bs a, P bs a → P' bs a) : Takes P' r := by
  intro c a c' hrun
  obtain ⟨bs, hrest, hreads, hP⟩ := hr c a c' hrun
  exact ⟨bs, hrest, hreads, h bs a hP⟩

theorem returns_of_takes {r : Reader α} (hr : Takes P r) :
    EStateM.Returns (fun a => ∃ bs, P bs a) r := by
  intro c a c' hrun
  obtain ⟨bs, -, -, hP⟩ := hr c a c' hrun
  exact ⟨bs, hP⟩

theorem takes_pure {a : α} (h : P [] a) : Takes P (pure a) := by
  intro c b c' hrun
  obtain ⟨rfl, rfl⟩ := EStateM.pure_eq_ok.mp hrun
  exact ⟨[], rfl, reads_pure a, h⟩

theorem takes_error (e : Fault) : Takes P (throw e) := by
  intro c a c' hrun
  change EStateM.Result.error e c = .ok a c' at hrun
  contradiction

theorem takes_bind {r : Reader α} {f : α → Reader β} (hr : Takes P r)
    (hf : ∀ a bs, P bs a → Takes (fun cs b => Q (bs ++ cs) b) (f a)) : Takes Q (r >>= f) := by
  intro c b c' hrun
  obtain ⟨a, d, hfirst, hsecond⟩ := EStateM.bind_eq_ok.mp hrun
  obtain ⟨bs, hrest, hreads, hP⟩ := hr c a d hfirst
  obtain ⟨cs, hrest', hreads', hQ⟩ := hf a bs hP d b c' hsecond
  refine ⟨bs ++ cs, ?_, reads_bind hreads hreads', hQ⟩
  rw [hrest, hrest', List.append_assoc]

theorem takes_map {r : Reader α} {f : α → β} (hr : Takes P r) (hf : ∀ bs a, P bs a → Q bs (f a)) :
    Takes Q (f <$> r) := by
  have hbind : Takes Q (r >>= fun a => pure (f a)) := by
    refine takes_bind hr fun a bs hP => takes_pure ?_
    rw [List.append_nil]
    exact hf bs a hP
  rwa [bind_pure_comp] at hbind

theorem takes_take (n : Nat) : Takes (fun bs a => bs = a ∧ a.length = n) (take n) := by
  intro c a c' hrun
  simp only [take] at hrun
  split at hrun
  · rename_i hlength
    obtain ⟨rfl, rfl⟩ : c.rest.take n = a ∧ (⟨c.offset + n, c.rest.drop n⟩ : Cursor) = c' := by
      simpa using hrun
    exact ⟨c.rest.take n, (List.take_append_drop n c.rest).symm, reads_take hlength, rfl, hlength⟩
  · simp at hrun

theorem takes_number (width : Nat) :
    Takes (fun bs n => bs = bigEndian width n ∧ n < 256 ^ width) (number width) := by
  refine takes_map (takes_take width) ?_
  rintro bs _ ⟨rfl, rfl⟩
  exact ⟨(bigEndian_ofBigEndian bs).symm, ofBigEndian_lt bs⟩

theorem takes_u8 : Takes (fun bs n => bs = [n]) u8 := by
  refine takes_map (takes_number 1) ?_
  rintro _ n ⟨rfl, -⟩
  rfl

theorem takes_u16 : Takes (fun bs n => bs = bigEndian 2 n.toNat) u16 := by
  refine takes_map (takes_number 2) ?_
  rintro _ n ⟨rfl, hlt⟩
  have hfits : n < 2 ^ 16 := hlt
  rw [UInt16.toNat_ofNat', Nat.mod_eq_of_lt hfits]

theorem takes_u32 : Takes (fun bs n => bs = bigEndian 4 n.toNat) u32 := by
  refine takes_map (takes_number 4) ?_
  rintro _ n ⟨rfl, hlt⟩
  have hfits : n < 2 ^ 32 := hlt
  rw [UInt32.toNat_ofNat', Nat.mod_eq_of_lt hfits]

theorem takes_u64 : Takes (fun bs n => bs = bigEndian 8 n.toNat) u64 := by
  refine takes_map (takes_number 8) ?_
  rintro _ n ⟨rfl, hlt⟩
  have hfits : n < 2 ^ 64 := hlt
  rw [UInt64.toNat_ofNat', Nat.mod_eq_of_lt hfits]

theorem takes_ofFormat (x : Except FormatFault α) :
    Takes (fun bs a => bs = [] ∧ x = .ok a) (ofFormat x) := by
  cases x with
  | ok a => exact takes_pure ⟨rfl, rfl⟩
  | error e => exact takes_error _

/-- Values one after the other, behind those read before. -/
theorem takes_timesInto {r : Reader α} (hr : Takes P r) (n : Nat) (before : List α) :
    Takes (fun bs xs => ∃ chunks rows, bs = chunks.flatten ∧ xs = before.reverse ++ rows ∧
      rows.length = n ∧ List.Forall₂ P chunks rows) (timesInto r n before) := by
  induction n generalizing before with
  | zero => exact takes_pure ⟨[], [], rfl, by rw [List.append_nil], rfl, .nil⟩
  | succ n ih =>
    refine takes_bind hr fun a bs hP => takes_imp (ih (a :: before)) ?_
    rintro _ _ ⟨chunks, rows, rfl, rfl, hlength, hall⟩
    refine ⟨bs :: chunks, a :: rows, rfl, ?_, by rw [List.length_cons, hlength], .cons hP hall⟩
    rw [List.reverse_cons, List.append_assoc, List.singleton_append]

theorem takes_table {r : Reader α} (hr : Takes P r) :
    Takes (fun bs xs => xs.length < 0x10000 ∧ ∃ chunks, bs = bigEndian 2 xs.length ++ chunks.flatten ∧
      List.Forall₂ P chunks xs) (table r) := by
  refine takes_bind takes_u16 ?_
  rintro n _ rfl
  refine takes_imp (takes_timesInto hr n.toNat []) ?_
  rintro _ xs ⟨chunks, rows, rfl, hxs, hlength, hall⟩
  obtain rfl : xs = rows := hxs
  rw [hlength]
  exact ⟨n.toNat_lt, chunks, rfl, hall⟩

/-- What is known of the value on its own. -/
theorem takes_and_returns {Q : α → Prop} {r : Reader α} (hr : Takes P r)
    (hQ : EStateM.Returns Q r) : Takes (fun bs a => P bs a ∧ Q a) r := by
  intro c a c' hrun
  obtain ⟨bs, hrest, hreads, hP⟩ := hr c a c' hrun
  exact ⟨bs, hrest, hreads, hP, hQ c a c' hrun⟩

/-- A reader that is given the number of unread bytes reads the same with any number that is at
least that of the bytes it takes. -/
theorem takes_remaining {f : Nat → Reader α} (hf : ∀ n, Takes P (f n))
    (hreads : ∀ bs a, P bs a → ∀ n, bs.length ≤ n → Reads (f n) bs a) :
    Takes P (remaining >>= f) := by
  intro c a c' hrun
  obtain ⟨n, d, hn, hrun⟩ := EStateM.bind_eq_ok.mp hrun
  obtain ⟨rfl, rfl⟩ := EStateM.Result.ok.inj hn
  obtain ⟨bs, hrest, -, hP⟩ := hf _ c a c' hrun
  exact ⟨bs, hrest, reads_remaining (hreads bs a hP), hP⟩

/-- A byte string that is read as a whole is what was taken. -/
theorem of_all_takes {r : Reader α} (hr : Takes P r) {leftOver : Nat → FormatFault} {bs : Bytes}
    {a : α} (h : r.all leftOver bs = .ok a) : Reads r bs a ∧ P bs a := by
  unfold all at h
  split at h
  · rename_i b c hrun
    split at h
    · rename_i hempty
      obtain rfl := Except.ok.inj h
      obtain ⟨front, hrest, hreads, hP⟩ := hr _ b c hrun
      obtain rfl : bs = front := by simpa [Cursor.ofBytes, List.isEmpty_iff.mp hempty] using hrest
      exact ⟨hreads, hP⟩
    · simp at h
  · simp at h

end Reader

open Reader

theorem tableLength_of_lt {rows : Nat} (h : rows < 0x10000) :
    tableLength rows = .ok (UInt16.ofNat rows) :=
  tableLength_eq_ok.mpr ⟨h, rfl⟩

namespace Codec

/-- Every value that is read is written by the bytes it was read from. -/
def Exact (c : Codec α) : Prop := Takes (fun bs a => c.write a = .ok bs) c.read

theorem exact_u16 : u16.Exact := by
  refine takes_imp takes_u16 ?_
  rintro _ n rfl
  rfl

theorem takes_pair {P : Bytes → α → Prop} {Q : Bytes → β → Prop} {a : Codec α} {b : Codec β}
    (ha : Takes P a.read) (hb : Takes Q b.read) :
    Takes (fun bs x => ∃ xs ys, bs = xs ++ ys ∧ P xs x.1 ∧ Q ys x.2) (a.pair b).read := by
  refine takes_bind ha fun x xs hP => takes_bind hb fun y ys hQ => takes_pure ?_
  exact ⟨xs, ys, by rw [List.append_nil], hP, hQ⟩

theorem exact_pair {a : Codec α} {b : Codec β} (ha : a.Exact) (hb : b.Exact) :
    (a.pair b).Exact := by
  refine takes_imp (takes_pair ha hb) ?_
  rintro _ ⟨x, y⟩ ⟨xs, ys, rfl, hx, hy⟩
  exact write_pair_eq_ok.mpr ⟨xs, ys, hx, hy, rfl⟩

theorem exact_iso {a : Codec α} {pack : α → β} {unpack : β → α} (ha : a.Exact)
    (hunpack : ∀ x, unpack (pack x) = x) : (a.iso pack unpack).Exact := by
  refine takes_map ha fun bs x hx => ?_
  show a.write (unpack (pack x)) = .ok bs
  rw [hunpack, hx]

theorem writeAll_eq_ok {write : α → Except Fault Bytes} {xs : List α} {chunks : List Bytes}
    (h : List.Forall₂ (fun bs x => write x = .ok bs) chunks xs) :
    writeAll write xs = .ok chunks.flatten :=
  Except.bind_eq_ok.mpr ⟨chunks, Except.mapM_eq_ok.mpr h.flip, rfl⟩

theorem exact_table {c : Codec α} (hc : c.Exact) : c.table.Exact := by
  refine takes_imp (takes_table hc) ?_
  rintro _ xs ⟨hlt, chunks, rfl, hall⟩
  have hcount : (UInt16.ofNat xs.length).toNat = xs.length := by
    rw [UInt16.toNat_ofNat']
    omega
  refine Except.bind_eq_ok.mpr ⟨_, tableLength_of_lt hlt, ?_⟩
  refine Except.bind_eq_ok.mpr ⟨_, writeAll_eq_ok hall, ?_⟩
  rw [hcount]
  rfl

theorem exact_block (tooLong : FormatFault) : (block tooLong).Exact := by
  refine takes_bind takes_u32 ?_
  rintro n _ rfl
  refine takes_imp (takes_take n.toNat) ?_
  rintro bs _ ⟨rfl, hlength⟩
  have hlt : n.toNat < 0x100000000 := n.toNat_lt
  show (block tooLong).write bs = .ok (bigEndian 4 n.toNat ++ bs)
  simp only [block, hlength, if_pos hlt]

end Codec

open Codec

theorem Attribute.exact_listCodec : Attribute.listCodec.Exact :=
  exact_table (exact_iso (exact_pair exact_u16 (exact_block _)) fun _ => rfl)

theorem Member.exact_codec : Member.codec.Exact :=
  exact_iso (exact_pair exact_u16 (exact_pair exact_u16
    (exact_pair exact_u16 Attribute.exact_listCodec))) fun _ => rfl

end ClassRelabel
