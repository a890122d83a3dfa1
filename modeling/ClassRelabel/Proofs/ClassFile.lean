/-
A class file that is written is read back.

Only classes that are `Storable` come out of the parser: their version is known and their pool is
well formed.  Of such a class everything is read back as it was written, except that the tables of
the pool are built anew (`parse_of_encode`).
-/
import ClassRelabel.ClassFile
import ClassRelabel.Proofs.Pool.Encoding

namespace ClassRelabel

open EStateM Reader Codec

namespace Version

/-- The last test of a version, after which nothing is read. -/
theorem returns_read : Returns (fun v => ¬lastMajor < v.major) read := by
  have hlast : ∀ major minor, Returns (fun v : Version => ¬lastMajor < v.major) (do
      if lastMajor < major then throw (.badVersion major minor)
      return ⟨major, minor⟩ : Reader Version) := by
    intro major minor
    by_cases h : lastMajor < major
    · simp only [if_pos h]
      exact returns_bind (Q := fun _ => False) (returns_error _) fun _ h => h.elim
    · simp only [if_neg h]
      exact returns_pure h
  refine returns_then fun found => ?_
  by_cases hfound : found ≠ magic
  · simp only [if_pos hfound]
    exact returns_bind (Q := fun _ => False) (returns_error _) fun _ h => h.elim
  · simp only [if_neg hfound]
    exact returns_then fun minor => returns_then fun major => hlast major minor

theorem reads_encode {v : Version} (h : ¬lastMajor < v.major) : Reads read v.encode v := by
  rw [encode, List.append_assoc]
  refine reads_bind (reads_u32 magic) ?_
  simp only [ne_eq, not_true_eq_false, if_false]
  refine reads_bind (reads_u16 v.minor) ?_
  rw [← List.append_nil (bigEndian 2 v.major.toNat)]
  refine reads_bind (reads_u16 v.major) ?_
  simp only [if_neg h]
  exact reads_pure v

end Version

theorem Member.faithful_codec : Member.codec.Faithful :=
  faithful_iso (faithful_pair faithful_u16 (faithful_pair faithful_u16
    (faithful_pair faithful_u16 Attribute.faithful_listCodec))) fun _ => rfl

namespace ClassFile

/-- A class that can be read from a class file. -/
structure Storable (c : ClassFile) : Prop where
  version : ¬Version.lastMajor < c.version.major
  pool : c.pool.WellFormed

theorem storable_of_parse {bs : Bytes} {c : ClassFile} (h : parse bs = .ok c) : c.Storable := by
  have hversion : Returns (fun v => ¬Version.lastMajor < v.major) Version.codec.read :=
    Version.returns_read
  have hpool : Returns Pool.WellFormed Pool.codec.read := Pool.returns_wellFormed_read
  have hread : Returns Storable codec.read :=
    returns_map (returns_pair hversion (returns_pair hpool (returns_any _))) fun x hx =>
      ⟨hx.1, hx.2.1⟩
  exact of_all_eq_ok hread h

/-- A class that is written is read back, up to the tables of its pool. -/
theorem parse_of_encode {c : ClassFile} {bs : Bytes} (hc : c.Storable) (h : c.encode = .ok bs) :
    ∃ pool, pool.slots = c.pool.slots ∧ parse bs = .ok { c with pool } := by
  have hrest := faithful_pair faithful_u16 (faithful_pair faithful_u16 (faithful_pair faithful_u16
    (faithful_pair (faithful_table faithful_u16) (faithful_pair
      (faithful_table Member.faithful_codec) (faithful_pair (faithful_table Member.faithful_codec)
        Attribute.faithful_listCodec)))))
  obtain ⟨version, others, hversion, hothers, rfl⟩ := write_pair_eq_ok.mp h
  obtain ⟨constants, tail, hconstants, htail, rfl⟩ := write_pair_eq_ok.mp hothers
  obtain rfl := Except.ok.inj hversion
  obtain ⟨pool, hslots, hpool⟩ := Pool.reads_encode hc.pool.toWellLaid hconstants
  have hversion : Reads Version.codec.read c.version.encode c.version :=
    Version.reads_encode hc.version
  have hpool : Reads Pool.codec.read constants pool := hpool
  have hwhole := reads_pair hversion (reads_pair hpool (hrest _ _ htail))
  exact ⟨pool, hslots, all_eq_ok (reads_iso hwhole)⟩

end ClassFile
end ClassRelabel
