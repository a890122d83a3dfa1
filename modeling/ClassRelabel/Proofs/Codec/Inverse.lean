/-
Codecs whose two directions undo each other.

`Codec.Writes P` says that the values that can be written are those that `P` holds of, and every way
of building a codec keeps it.  Together with `Codec.Exact` and `Codec.FaithfulOn` it makes up
`Codec.Inverse`: reading and writing are inverse to each other, no payload is the beginning of
another one, and it is known which values are too large to be written.
-/
import ClassRelabel.Proofs.Codec.Exact

namespace ClassRelabel

open Reader

namespace Codec

variable {α β : Type} {P : α → Prop} {Q : β → Prop}

/-! ## What can be written -/

/-- The values that can be written are those that `P` holds of. -/
def Writes (P : α → Prop) (c : Codec α) : Prop :=
  ∀ a, (∃ bs, c.write a = .ok bs) ↔ P a

theorem writes_u16 : u16.Writes fun _ => True :=
  fun n => ⟨fun _ => trivial, fun _ => ⟨bigEndian 2 n.toNat, rfl⟩⟩

theorem writes_pair {a : Codec α} {b : Codec β} (ha : a.Writes P) (hb : b.Writes Q) :
    (a.pair b).Writes fun x => P x.1 ∧ Q x.2 := by
  intro x
  show _ ↔ P x.1 ∧ Q x.2
  rw [← ha x.1, ← hb x.2]
  constructor
  · rintro ⟨bs, h⟩
    obtain ⟨xs, ys, hx, hy, -⟩ := write_pair_eq_ok.mp h
    exact ⟨⟨xs, hx⟩, ⟨ys, hy⟩⟩
  · rintro ⟨⟨xs, hx⟩, ⟨ys, hy⟩⟩
    exact ⟨xs ++ ys, write_pair_eq_ok.mpr ⟨xs, ys, hx, hy, rfl⟩⟩

/-- Two numbers, or records of numbers, can always be written. -/
theorem total_pair {a : Codec α} {b : Codec β} (ha : a.Writes fun _ => True)
    (hb : b.Writes fun _ => True) : (a.pair b).Writes fun _ => True := by
  simpa only [true_and] using writes_pair ha hb

theorem writes_iso {a : Codec α} {pack : α → β} {unpack : β → α} (ha : a.Writes P) :
    (a.iso pack unpack).Writes fun b => P (unpack b) := fun b => ha (unpack b)

/-- A last step that only packs what was written. -/
theorem exists_bind_pure_iff {x : Except Fault α} {f : α → β} :
    (∃ b, (do return f (← x) : Except Fault β) = .ok b) ↔ ∃ a, x = .ok a := by
  cases x with
  | ok a => exact ⟨fun _ => ⟨a, rfl⟩, fun _ => ⟨f a, rfl⟩⟩
  | error e => exact ⟨fun ⟨_, h⟩ => (nomatch h), fun ⟨_, h⟩ => (nomatch h)⟩

theorem exists_writeAll_iff {write : α → Except Fault Bytes} {xs : List α} :
    (∃ bs, writeAll write xs = .ok bs) ↔ ∀ x ∈ xs, ∃ bs, write x = .ok bs := by
  induction xs with
  | nil => exact ⟨fun _ => by simp, fun _ => ⟨[], rfl⟩⟩
  | cons x xs ih =>
    rw [List.forall_mem_cons, ← ih]
    constructor
    · rintro ⟨bs, h⟩
      obtain ⟨first, rest, hfirst, hrest, -⟩ := writeAll_cons_eq_ok.mp h
      exact ⟨⟨first, hfirst⟩, ⟨rest, hrest⟩⟩
    · rintro ⟨⟨first, hfirst⟩, ⟨rest, hrest⟩⟩
      exact ⟨first ++ rest, writeAll_cons_eq_ok.mpr ⟨first, rest, hfirst, hrest, rfl⟩⟩

/-- The count of a table takes two bytes. -/
theorem exists_tableLength_iff {rows : Nat} :
    (∃ count, tableLength rows = .ok count) ↔ rows ≤ 65535 := by
  simp only [tableLength_eq_ok]
  constructor
  · rintro ⟨count, hlt, -⟩
    omega
  · intro hle
    exact ⟨UInt16.ofNat rows, by omega, rfl⟩

theorem writes_table {c : Codec α} (hc : c.Writes P) :
    c.table.Writes fun xs => xs.length ≤ 65535 ∧ ∀ x ∈ xs, P x := by
  intro xs
  simp only [← hc _, ← exists_tableLength_iff, ← exists_writeAll_iff]
  constructor
  · rintro ⟨bs, h⟩
    obtain ⟨count, hcount, h⟩ := Except.bind_eq_ok.mp h
    obtain ⟨rows, hrows, -⟩ := Except.bind_eq_ok.mp h
    exact ⟨⟨count, hcount⟩, ⟨rows, hrows⟩⟩
  · rintro ⟨⟨count, hcount⟩, ⟨rows, hrows⟩⟩
    exact ⟨_, Except.bind_eq_ok.mpr ⟨count, hcount, Except.bind_eq_ok.mpr ⟨rows, hrows, rfl⟩⟩⟩

theorem writes_block (tooLong : FormatFault) :
    (block tooLong).Writes fun bs => bs.length < 2 ^ 32 := by
  intro bs
  by_cases h : bs.length < 0x100000000
  · simp only [block, if_pos h]
    exact ⟨fun _ => h, fun _ => ⟨_, rfl⟩⟩
  · simp only [block, if_neg h]
    exact iff_of_false (by simp) h

/-! ## Both directions -/

/-- What is read is written as it was, what is written is read as it was, and no payload is the
beginning of another one.  Of the values that `Allowed` holds of those are written that `Bounded`
holds of. -/
structure Inverse (Allowed Bounded : α → Prop) (c : Codec α) : Prop where
  write_of_decode : ∀ bs a, c.decode bs = .ok a → c.write a = .ok bs
  alone : ∀ bs a, c.decode bs = .ok a → ∀ other, other ≠ bs → other <+: bs ∨ bs <+: other →
    ∀ b, c.decode other ≠ .ok b
  writes : ∀ a, Allowed a → ((∃ bs, c.write a = .ok bs) ↔ Bounded a)
  decode_of_write : ∀ a bs, Allowed a → c.write a = .ok bs → c.decode bs = .ok a

/-- Bytes behind a payload are refused. -/
theorem decode_append_ne_ok {c : Codec α} (hc : c.Exact) {bs rest : Bytes} {a : α}
    (h : c.decode bs = .ok a) (hrest : rest ≠ []) (b : α) : c.decode (bs ++ rest) ≠ .ok b := by
  have hrun := (of_all_takes hc h).1 0 rest
  simp [decode, all, Cursor.ofBytes, hrun, hrest]

theorem inverse_of_exact {Allowed Bounded : α → Prop} {c : Codec α} (hexact : c.Exact)
    (hfaithful : c.FaithfulOn Allowed) (hwrites : c.Writes P)
    (hP : ∀ a, Allowed a → (P a ↔ Bounded a)) : c.Inverse Allowed Bounded := by
  refine ⟨fun bs a h => (of_all_takes hexact h).2, ?_, fun a ha => (hwrites a).trans (hP a ha),
    fun a bs ha h => hfaithful.decode_eq_ok ha h⟩
  rintro bs a h other hne (⟨rest, rfl⟩ | ⟨rest, rfl⟩) b hb
  · have hrest : rest ≠ [] := by
      rintro rfl
      exact hne (List.append_nil other).symm
    exact decode_append_ne_ok hexact hb hrest a h
  · have hrest : rest ≠ [] := by
      rintro rfl
      exact hne (List.append_nil bs)
    exact decode_append_ne_ok hexact h hrest b hb

/-- A table whose rows can always be written. -/
theorem inverse_table {c : Codec α} (hexact : c.Exact) (hfaithful : c.table.Faithful)
    (htotal : c.Writes fun _ => True) :
    c.table.Inverse (fun _ => True) fun rows => rows.length ≤ 65535 :=
  inverse_of_exact (exact_table hexact) hfaithful.faithfulOn (writes_table htotal)
    fun _ _ => ⟨And.left, fun h => ⟨h, fun _ _ => trivial⟩⟩

end Codec
end ClassRelabel
