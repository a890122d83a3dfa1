/-
A class file that is read is written again.

What is written is never longer than what was read, and it is read as the same class, down to the
tables of its pool.  It is the same byte string exactly if every text of the pool has the spelling
that is written for it.  And a class file is found in one place only: no byte string that begins
with it or that it begins with is a class file (`encode_of_parse`).
-/
import ClassRelabel.Proofs.ClassFile
import ClassRelabel.Proofs.Pool.Regular

namespace ClassRelabel

open Reader Codec EStateM

/-- The bytes of a version are those that are written for it. -/
theorem Version.takes_read : Takes (fun bs v => bs = v.encode) Version.read := by
  refine takes_bind takes_u32 ?_
  rintro found _ rfl
  by_cases hfound : found ≠ magic
  · simp only [if_pos hfound]
    refine takes_bind (P := fun _ _ => False) (takes_error _) fun _ _ h => h.elim
  · simp only [if_neg hfound]
    refine takes_bind takes_u16 ?_
    rintro minor _ rfl
    refine takes_bind takes_u16 ?_
    rintro major _ rfl
    by_cases hmajor : lastMajor < major
    · simp only [if_pos hmajor]
      exact takes_bind (P := fun _ _ => False) (takes_error _) fun _ _ h => h.elim
    · simp only [if_neg hmajor]
      refine takes_pure ?_
      rw [not_not.mp hfound, encode, List.append_nil, List.append_assoc]

/-! ## A class with a long spelling

The name `A` of the class is spelled by two bytes where one is written. -/

namespace LongSpelling

def bytes : Bytes :=
  [0xCA, 0xFE, 0xBA, 0xBE, 0, 0, 0, 52, 0, 3, 1, 0, 2, 0xC1, 0x81, 7, 0, 1, 0, 0, 0, 2, 0, 0, 0, 0,
    0, 0, 0, 0, 0, 0]

def pool : Pool where
  slots := #[.unusable, .utf8 "A", .classRef 1]
  texts := {("A", 1)}
  classes := {(1, 2)}
  pairs := ∅

def classFile : ClassFile := ⟨⟨52, 0⟩, pool, ⟨0⟩, 2, 0, [], [], [], []⟩

theorem parse_bytes : ClassFile.parse bytes = .ok classFile := by decide +kernel

end LongSpelling

namespace ClassFile

/-- The bytes that spell the texts in the pool of a class file.  The pool stands behind the magic
number and the version. -/
def spellings (bs : Bytes) : Except Fault (List Bytes) :=
  match (Reader.take 8 >>= fun _ => Pool.spellings) (.ofBytes bs) with
  | .ok texts _ => .ok texts
  | .error e _ => .error e

theorem spellings_eq_ok {front pool rest : Bytes} {texts : List Bytes} (hfront : front.length = 8)
    (h : Reads Pool.spellings pool texts) :
    spellings (front ++ (pool ++ rest)) = .ok texts := by
  have hreads : Reads (Reader.take 8 >>= fun _ => Pool.spellings) (front ++ pool) texts :=
    reads_bind (reads_take hfront) h
  have hrun := hreads 0 rest
  rw [List.append_assoc] at hrun
  simp [spellings, Cursor.ofBytes, hrun]

/-- The bytes of a class file, and what is written for them. -/
theorem takes_read : Takes (fun bs c => ∃ texts written, spellings bs = .ok texts ∧
    c.encode = .ok written ∧ Rewritten texts bs written) codec.read := by
  have hrest : (Codec.u16.pair (Codec.u16.pair (Codec.u16.pair (Codec.u16.table.pair
      (Member.codec.table.pair (Member.codec.table.pair Attribute.listCodec)))))).Exact :=
    exact_pair exact_u16 (exact_pair exact_u16 (exact_pair exact_u16 (exact_pair
      (exact_table exact_u16) (exact_pair (exact_table Member.exact_codec)
        (exact_pair (exact_table Member.exact_codec) Attribute.exact_listCodec)))))
  have hversion : Takes (fun bs v => bs = v.encode) Version.codec.read := Version.takes_read
  have hpool : Takes (fun bs p => ∃ texts written, Reads Pool.spellings bs texts ∧
      p.encode = .ok written ∧ Rewritten texts bs written) Pool.codec.read := Pool.takes_read
  refine takes_map (takes_pair hversion (takes_pair hpool hrest)) ?_
  rintro _ ⟨version, pool, others⟩ ⟨front, _, rfl, hfront, ⟨bs, rest, rfl, hbs, hothers⟩⟩
  obtain ⟨texts, written, htexts, hencode, hwritten⟩ := hbs
  obtain rfl : front = version.encode := hfront
  have hlength : version.encode.length = 8 := by simp [Version.encode, length_bigEndian]
  refine ⟨texts, version.encode ++ (written ++ rest), spellings_eq_ok hlength htexts, ?_,
    (hwritten.append_right rest).append_left version.encode⟩
  refine write_pair_eq_ok.mpr ⟨version.encode, written ++ rest, rfl, ?_, rfl⟩
  exact write_pair_eq_ok.mpr ⟨written, rest, hencode, hothers, rfl⟩

theorem indexed_of_parse {bs : Bytes} {c : ClassFile} (h : parse bs = .ok c) : c.pool.Indexed := by
  have hpool : Returns Pool.Regular Pool.codec.read := Pool.returns_regular_read
  have hread : Returns (fun c => c.pool.Indexed) codec.read :=
    returns_map (returns_pair (returns_any _) (returns_pair hpool (returns_any _))) fun x hx =>
      hx.2.1.toIndexed
  exact of_all_eq_ok (P := fun c => c.pool.Indexed) hread h

/-- A class is read back from what is written for it. -/
theorem parse_of_written {bs written : Bytes} {c : ClassFile} (h : parse bs = .ok c)
    (hwritten : c.encode = .ok written) : parse written = .ok c := by
  obtain ⟨pool, hslots, hparse⟩ := parse_of_encode (storable_of_parse h) hwritten
  obtain rfl : pool = c.pool :=
    (indexed_of_parse hparse).eq_of_slots_eq (indexed_of_parse h) hslots
  exact hparse

/-- Bytes behind a class file are refused. -/
theorem parse_append_ne_ok {bs rest : Bytes} {c : ClassFile} (h : parse bs = .ok c)
    (hrest : rest ≠ []) (d : ClassFile) : parse (bs ++ rest) ≠ .ok d := by
  have hreads : Reads codec.read bs c := (of_all_takes takes_read h).1
  have hrun := hreads 0 rest
  simp [parse, all, Cursor.ofBytes, hrun, hrest]

/-- A class file is written again by as many bytes or fewer, and read back from them.  The bytes are
the same exactly if its texts are spelled the way they are written.  It is no part of a longer class
file with the same beginning. -/
theorem encode_of_parse {bs : Bytes} {c : ClassFile} (h : parse bs = .ok c) :
    (∃ written texts, c.encode = .ok written ∧ written.length ≤ bs.length ∧
      parse written = .ok c ∧ spellings bs = .ok texts ∧
      (written = bs ↔ ∀ text ∈ texts, ModifiedUtf8.Canonical text)) ∧
    ∀ other, other ≠ bs → other <+: bs ∨ bs <+: other → ∀ d, parse other ≠ .ok d := by
  constructor
  · obtain ⟨texts, written, htexts, hencode, hwritten⟩ := (of_all_takes takes_read h).2
    exact ⟨written, texts, hencode, hwritten.length_le, parse_of_written h hencode, htexts,
      hwritten.eq_iff⟩
  · rintro other hne (⟨rest, rfl⟩ | ⟨rest, rfl⟩) d hd
    · have hrest : rest ≠ [] := by
        rintro rfl
        exact hne (List.append_nil other).symm
      exact parse_append_ne_ok hd hrest c h
    · have hrest : rest ≠ [] := by
        rintro rfl
        exact hne (List.append_nil bs)
      exact parse_append_ne_ok h hrest d hd

theorem encode_of_parse_longSpelling :
    parse LongSpelling.bytes = .ok LongSpelling.classFile ∧
      (∃ written texts, LongSpelling.classFile.encode = .ok written ∧
        written.length ≤ LongSpelling.bytes.length ∧ parse written = .ok LongSpelling.classFile ∧
        spellings LongSpelling.bytes = .ok texts ∧
        (written = LongSpelling.bytes ↔ ∀ text ∈ texts, ModifiedUtf8.Canonical text)) ∧
      ∀ other, other ≠ LongSpelling.bytes →
        other <+: LongSpelling.bytes ∨ LongSpelling.bytes <+: other → ∀ d, parse other ≠ .ok d :=
  ⟨LongSpelling.parse_bytes, encode_of_parse LongSpelling.parse_bytes⟩

end ClassFile
end ClassRelabel
