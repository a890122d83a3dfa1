/-
Annotations are read back as they were written.

The reader of element values runs on fuel, and `reads_readWithin` says that as much fuel as there
are bytes is enough.  Not every value can be read: the tag of a constant must be one that the
format knows.  Such values are `Valid`, and the reader returns no others.
-/
import ClassRelabel.Attribute.Annotation
import ClassRelabel.Proofs.Codec

namespace ClassRelabel

open EStateM Reader Codec

namespace ElementValue

/-- The tags of all constants in the value are known. -/
inductive Valid : ElementValue → Prop
  | const {tag : UInt8} (h : isConstTag tag = true) (value : Index) : Valid (.const tag value)
  | enum (type name : Index) : Valid (.enum type name)
  | classInfo (descriptor : Index) : Valid (.classInfo descriptor)
  | nested (type : Index) {elements : List (Index × ElementValue)}
      (h : ∀ e ∈ elements, Valid e.2) : Valid (.nested type elements)
  | array {values : List ElementValue} (h : ∀ v ∈ values, Valid v) : Valid (.array values)

/-- An element is written as the index of its name and its value. -/
def encodeElement (e : Index × ElementValue) : Except Fault Bytes := do
  return bigEndian 2 e.1.toNat ++ (← encode e.2)

theorem encodeElements_eq (es : List (Index × ElementValue)) :
    encodeElements es = writeAll encodeElement es := by
  induction es with
  | nil => rfl
  | cons e es ih => simp [encodeElements, encodeElement, ih, writeAll]

theorem encodeValues_eq (vs : List ElementValue) : encodeValues vs = writeAll encode vs := by
  induction vs with
  | nil => rfl
  | cons v vs ih => simp [encodeValues, ih, writeAll]

theorem counted_eq_ok {rows : Nat} {bytes : Except Fault Bytes} {bs : Bytes} :
    counted rows bytes = .ok bs ↔ ∃ count tail, tableLength rows = .ok count ∧ bytes = .ok tail ∧
      bigEndian 2 count.toNat ++ tail = bs := by
  simp only [counted, Except.bind_eq_ok, Except.pure_eq_ok]
  constructor
  · rintro ⟨count, hcount, tail, htail, rfl⟩
    exact ⟨count, tail, hcount, htail, rfl⟩
  · rintro ⟨count, tail, hcount, htail, rfl⟩
    exact ⟨count, hcount, tail, htail, rfl⟩

/-! ## Reading back -/

/-- Rows with their count in front are read back as a table. -/
theorem reads_table {α : Type} {r : Reader α} {write : α → Except Fault Bytes} {xs : List α}
    {bs tail : Bytes} {count : UInt16} (hcount : tableLength xs.length = .ok count)
    (htail : writeAll write xs = .ok tail) (hbs : bigEndian 2 count.toNat ++ tail = bs)
    (hr : ∀ x ∈ xs, ∀ row : Bytes, row.length ≤ bs.length → write x = .ok row → Reads r row x) :
    Reads (Reader.table r) bs xs := by
  subst hbs
  have hle : tail.length ≤ (bigEndian 2 count.toNat ++ tail).length := by simp
  have hrows := reads_of_writeAll (fun x hx row hrow => hr x hx row (Nat.le_trans hrow hle)) htail
  rw [← toNat_of_tableLength hcount] at hrows
  exact reads_bind (reads_u16 count) hrows

theorem reads_readAnnotation_of_elements {value : Reader ElementValue} {a : Annotation} {bs : Bytes}
    (hvalue : ∀ e ∈ a.elements, ∀ row : Bytes, row.length ≤ bs.length → encode e.2 = .ok row →
      Reads value row e.2) (h : a.encode = .ok bs) : Reads ( readAnnotation value) bs a := by
  obtain ⟨elements, helements, h⟩ := Except.bind_eq_ok.mp h
  obtain ⟨count, tail, hcount, htail, rfl⟩ := counted_eq_ok.mp helements
  obtain rfl := Except.pure_eq_ok.mp h
  rw [encodeElements_eq] at htail
  refine reads_bind (reads_u16 a.type) (reads_bind_pure (f := fun es => Annotation.mk a.type es) ?_)
  refine reads_table hcount htail rfl fun e he row hrow hwrite => ?_
  obtain ⟨bytes, hbytes, hwrite⟩ := Except.bind_eq_ok.mp hwrite
  obtain rfl := Except.pure_eq_ok.mp hwrite
  refine reads_bind (reads_u16 e.1) (reads_bind_pure (f := fun v => (e.1, v)) ?_)
  refine hvalue e he bytes ?_ hbytes
  simp only [List.length_append] at hrow ⊢
  omega

theorem ne_nil_of_encode {v : ElementValue} {bs : Bytes} (h : encode v = .ok bs) : bs ≠ [] := by
  cases v with
  | const | enum | classInfo =>
    obtain rfl := Except.ok.inj h
    simp
  | nested | array =>
    obtain ⟨tail, -, h⟩ := Except.bind_eq_ok.mp h
    obtain rfl := Except.pure_eq_ok.mp h
    simp

/-- As much fuel as there are bytes is enough to read a value back. -/
theorem reads_readWithin {fuel : Nat} {v : ElementValue} {bs : Bytes} (hv : v.Valid)
    (h : encode v = .ok bs) (hfuel : bs.length ≤ fuel) : Reads (readWithin fuel) bs v := by
  induction fuel generalizing v bs with
  | zero => exact absurd (List.eq_nil_of_length_eq_zero (Nat.le_zero.mp hfuel)) (ne_nil_of_encode h)
  | succ fuel ih =>
    rw [readWithin]
    cases v with
    | const tag value =>
      cases hv with
      | const htag =>
        obtain rfl := Except.ok.inj h
        refine reads_bind (reads_u8 tag) ?_
        rw [if_pos htag]
        exact reads_bind_pure (reads_u16 value)
    | enum type name =>
      obtain rfl := Except.ok.inj h
      rw [List.cons_append]
      exact reads_bind (reads_u8 0x65) (reads_bind (reads_u16 type) (reads_bind_pure (reads_u16 name)))
    | classInfo descriptor =>
      obtain rfl := Except.ok.inj h
      exact reads_bind (reads_u8 0x63) (reads_bind_pure (reads_u16 descriptor))
    | nested type elements =>
      cases hv with
      | nested _ hv =>
      obtain ⟨tail, htail, h⟩ := Except.bind_eq_ok.mp h
      obtain rfl := Except.pure_eq_ok.mp h
      have ha : Annotation.encode ⟨type, elements⟩ = .ok (bigEndian 2 type.toNat ++ tail) :=
        Except.bind_eq_ok.mpr ⟨tail, htail, rfl⟩
      rw [List.cons_append] at hfuel ⊢
      rw [List.length_cons] at hfuel
      refine reads_bind (reads_u8 0x40) ?_
      refine reads_bind_pure (f := fun a : Annotation => nested a.type a.elements)
        (reads_readAnnotation_of_elements (fun e he row hrow hwrite => ?_) ha)
      exact ih (hv e he) hwrite (by omega)
    | array values =>
      cases hv with
      | array hv =>
      obtain ⟨tail, htail, h⟩ := Except.bind_eq_ok.mp h
      obtain rfl := Except.pure_eq_ok.mp h
      obtain ⟨count, rows, hcount, hrows, rfl⟩ := counted_eq_ok.mp htail
      rw [List.length_cons] at hfuel
      have hall : ∀ v ∈ values, ∀ row : Bytes, row.length ≤ (bigEndian 2 count.toNat ++ rows).length →
          encode v = .ok row → Reads (readWithin fuel) row v := fun v hmem row hrow hwrite =>
        ih (hv v hmem) hwrite (by omega)
      refine reads_bind (reads_u8 0x5B) (reads_bind_pure ?_)
      rw [encodeValues_eq] at hrows
      exact reads_table hcount hrows rfl hall

theorem returns_valid_elements {value : Reader ElementValue} (h : Returns Valid value) :
    Returns (fun a => ∀ e ∈ a.elements, e.2.Valid) ( readAnnotation value) := by
  have helement : Returns (fun e : Index × ElementValue => e.2.Valid) (do
      let name ← Reader.u16
      return (name, ← value) : Reader (Index × ElementValue)) :=
    returns_then fun name => returns_bind h fun v hv => returns_pure hv
  exact returns_then fun type => returns_bind (returns_table helement) fun es hes => returns_pure hes

/-- What is read knows the tags of its constants. -/
theorem returns_valid_readWithin (fuel : Nat) : Returns Valid (readWithin fuel) := by
  induction fuel with
  | zero => exact returns_then fun _ => returns_error _
  | succ fuel ih =>
    refine returns_then fun tag => ?_
    split
    · rename_i htag
      exact returns_then fun value => returns_pure (.const htag value)
    · split
      · exact returns_then fun type => returns_then fun name => returns_pure (.enum type name)
      · exact returns_then fun descriptor => returns_pure (.classInfo descriptor)
      · exact returns_bind (returns_valid_elements ih) fun a ha => returns_pure (.nested a.type ha)
      · exact returns_bind (returns_table ih) fun values hvalues => returns_pure (.array hvalues)
      · exact returns_error _

theorem returns_valid_read : Returns Valid read :=
  returns_then fun fuel => returns_valid_readWithin fuel

theorem faithfulOn_codec : codec.FaithfulOn Valid := fun _ hv _ h =>
  reads_remaining fun _ hfuel => reads_readWithin hv h hfuel

end ElementValue

namespace Annotation

def Valid (a : Annotation) : Prop := ∀ e ∈ a.elements, e.2.Valid

theorem returns_valid_read : Returns Valid read :=
  returns_then fun fuel =>
    ElementValue.returns_valid_elements (ElementValue.returns_valid_readWithin fuel)

theorem faithfulOn_codec : codec.FaithfulOn Valid := fun _ ha _ h =>
  reads_remaining fun _ hfuel =>
    ElementValue.reads_readAnnotation_of_elements (fun e he _ hrow hwrite =>
      ElementValue.reads_readWithin (ha e he) hwrite (Nat.le_trans hrow hfuel)) h

theorem returns_valid_tableCodec : Returns (fun as => ∀ a ∈ as, Valid a) tableCodec.read :=
  returns_table returns_valid_read

theorem faithfulOn_tableCodec : tableCodec.FaithfulOn fun as => ∀ a ∈ as, Valid a :=
  faithfulOn_table faithfulOn_codec

theorem returns_valid_parameterCodec :
    Returns (fun ps => ∀ as ∈ ps, ∀ a ∈ as, Valid a) parameterCodec.read :=
  returns_then fun count => returns_timesInto returns_valid_tableCodec count.toNat (by simp)

theorem faithfulOn_parameterCodec :
    parameterCodec.FaithfulOn fun ps => ∀ as ∈ ps, ∀ a ∈ as, Valid a := by
  intro ps hps bs h
  simp only [parameterCodec] at h
  split at h
  · rename_i hlt
    obtain ⟨rows, hrows, h⟩ := Except.bind_eq_ok.mp h
    obtain rfl := Except.pure_eq_ok.mp h
    have hn : (UInt8.ofNat ps.length).toNat = ps.length := by
      rw [UInt8.toNat_ofNat']
      omega
    have hall := reads_of_writeAll
      (fun as hmem row _ => faithfulOn_tableCodec as (hps as hmem) row) hrows
    rw [← hn] at hall
    exact reads_bind (reads_u8 (UInt8.ofNat ps.length)) hall
  · simp at h

end Annotation
end ClassRelabel
