/-
The payloads of attributes lose nothing.

Each of the nine payloads that are looked into is read and written by a codec whose directions are
inverse to each other (`Attribute.inverse_payloads`).  For records and tables this follows from the
way their codecs are built.  The values of annotations hold each other to any depth, and their
reader runs on fuel: `exact_readWithin` is an induction on the fuel, and `exists_encode_iff`, which
says what can be written, on the value.
-/
import ClassRelabel.Proofs.Attribute.Annotation
import ClassRelabel.Proofs.Codec.Inverse

namespace ClassRelabel

open EStateM Reader Codec

/-! ## Annotations are written as they were read -/

namespace ElementValue

/-- An annotation, by a codec of values. -/
def annotationCodec (value : Codec ElementValue) : Codec Annotation :=
  (Codec.u16.pair (Codec.u16.pair value).table).iso (fun p => ⟨p.1, p.2⟩) fun a =>
    (a.type, a.elements)

theorem read_annotationCodec (value : Codec ElementValue) :
    (annotationCodec value).read = readAnnotation value.read := by
  simp [annotationCodec, Codec.iso, Codec.pair, Codec.table, Codec.u16, readAnnotation]

theorem write_annotationCodec (value : Reader ElementValue) (a : Annotation) :
    (annotationCodec ⟨value, encode⟩).write a = a.encode := by
  rw [ Annotation.encode, counted, encodeElements_eq]
  rfl

theorem exact_readAnnotation {value : Reader ElementValue} (h : Exact ⟨value, encode⟩) :
    Exact ⟨ readAnnotation value, Annotation.encode⟩ := by
  have hexact : (annotationCodec ⟨value, encode⟩).Exact :=
    exact_iso (exact_pair exact_u16 (exact_table (exact_pair exact_u16 h))) fun _ => rfl
  simp only [Exact, read_annotationCodec, write_annotationCodec] at hexact
  exact hexact

theorem encode_nested {a : Annotation} {bs : Bytes} (h : a.encode = .ok bs) :
    encode (.nested a.type a.elements) = .ok (0x40 :: bs) := by
  obtain ⟨elements, helements, h⟩ := Except.bind_eq_ok.mp h
  obtain rfl := Except.pure_eq_ok.mp h
  exact Except.bind_eq_ok.mpr ⟨elements, helements, rfl⟩

theorem encode_array {values : List ElementValue} {value : Reader ElementValue} {bs : Bytes}
    (h : (Codec.table ⟨value, encode⟩).write values = .ok bs) :
    encode (.array values) = .ok (0x5B :: bs) := by
  have hcounted : counted values.length (encodeValues values) = .ok bs := by
    rw [encodeValues_eq]
    exact h
  exact Except.bind_eq_ok.mpr ⟨bs, hcounted, rfl⟩

/-- Whatever the fuel, a value that is read is written by the bytes it was read from. -/
theorem exact_readWithin (fuel : Nat) : Exact ⟨readWithin fuel, encode⟩ := by
  induction fuel with
  | zero =>
    intro c v c' hrun
    change EStateM.Result.error _ _ = _ at hrun
    contradiction
  | succ fuel ih =>
    refine takes_bind takes_u8 ?_
    rintro tag _ rfl
    split
    · refine takes_bind takes_u16 ?_
      rintro value _ rfl
      exact takes_pure rfl
    · split
      · rename_i htag
        obtain rfl : tag = 0x65 := UInt8.toNat_inj.mp htag
        refine takes_bind takes_u16 ?_
        rintro type _ rfl
        refine takes_bind takes_u16 ?_
        rintro name _ rfl
        exact takes_pure rfl
      · rename_i htag
        obtain rfl : tag = 0x63 := UInt8.toNat_inj.mp htag
        refine takes_bind takes_u16 ?_
        rintro descriptor _ rfl
        exact takes_pure rfl
      · rename_i htag
        obtain rfl : tag = 0x40 := UInt8.toNat_inj.mp htag
        refine takes_bind ( exact_readAnnotation ih) fun a bs hbs => takes_pure ?_
        rw [List.append_nil]
        exact encode_nested hbs
      · rename_i htag
        obtain rfl : tag = 0x5B := UInt8.toNat_inj.mp htag
        refine takes_bind (exact_table ih) fun values bs hbs => takes_pure ?_
        rw [List.append_nil]
        exact encode_array hbs
      · exact takes_error _

theorem exact_codec : codec.Exact := by
  have hvalid : ∀ fuel, Takes (fun bs v => encode v = .ok bs ∧ v.Valid) (readWithin fuel) :=
    fun fuel => takes_and_returns (exact_readWithin fuel) (returns_valid_readWithin fuel)
  refine takes_imp (takes_remaining hvalid ?_) fun bs v h => h.1
  rintro bs v ⟨hencode, hv⟩ n hn
  exact reads_readWithin hv hencode hn

/-! ## What can be written -/

/-- Every table in the value has as many rows as its count can say. -/
inductive Bounded : ElementValue → Prop
  | const (tag : UInt8) (value : Index) : Bounded (.const tag value)
  | enum (type name : Index) : Bounded (.enum type name)
  | classInfo (descriptor : Index) : Bounded (.classInfo descriptor)
  | nested (type : Index) {elements : List (Index × ElementValue)}
      (hlength : elements.length ≤ 65535) (h : ∀ e ∈ elements, Bounded e.2) :
      Bounded (.nested type elements)
  | array {values : List ElementValue} (hlength : values.length ≤ 65535)
      (h : ∀ v ∈ values, Bounded v) : Bounded (.array values)

theorem exists_counted_iff {rows : Nat} {bytes : Except Fault Bytes} :
    (∃ bs, counted rows bytes = .ok bs) ↔ rows ≤ 65535 ∧ ∃ bs, bytes = .ok bs := by
  simp only [counted_eq_ok, ← exists_tableLength_iff]
  constructor
  · rintro ⟨bs, count, tail, hcount, htail, -⟩
    exact ⟨⟨count, hcount⟩, ⟨tail, htail⟩⟩
  · rintro ⟨⟨count, hcount⟩, ⟨tail, htail⟩⟩
    exact ⟨_, count, tail, hcount, htail, rfl⟩

theorem exists_encode_nested_iff {type : Index} {elements : List (Index × ElementValue)} :
    (∃ bs, encode (.nested type elements) = .ok bs) ↔
      elements.length ≤ 65535 ∧ ∀ e ∈ elements, ∃ bs, encode e.2 = .ok bs := by
  rw [encode, exists_bind_pure_iff, exists_counted_iff, encodeElements_eq, exists_writeAll_iff]
  simp only [encodeElement, exists_bind_pure_iff]

theorem exists_encode_array_iff {values : List ElementValue} :
    (∃ bs, encode (.array values) = .ok bs) ↔
      values.length ≤ 65535 ∧ ∀ v ∈ values, ∃ bs, encode v = .ok bs := by
  rw [encode, exists_bind_pure_iff, exists_counted_iff, encodeValues_eq, exists_writeAll_iff]

mutual

theorem exists_encode_iff : ∀ v : ElementValue, (∃ bs, encode v = .ok bs) ↔ v.Bounded
  | .const tag value => ⟨fun _ => .const tag value, fun _ => ⟨_, rfl⟩⟩
  | .enum type name => ⟨fun _ => .enum type name, fun _ => ⟨_, rfl⟩⟩
  | .classInfo descriptor => ⟨fun _ => .classInfo descriptor, fun _ => ⟨_, rfl⟩⟩
  | .nested type elements => by
    rw [exists_encode_nested_iff, exists_encodeElements_iff elements]
    exact ⟨fun h => .nested type h.1 h.2, fun | .nested _ hlength h => ⟨hlength, h⟩⟩
  | .array values => by
    rw [exists_encode_array_iff, exists_encodeValues_iff values]
    exact ⟨fun h => .array h.1 h.2, fun | .array hlength h => ⟨hlength, h⟩⟩

theorem exists_encodeElements_iff : ∀ es : List (Index × ElementValue),
    (∀ e ∈ es, ∃ bs, encode e.2 = .ok bs) ↔ ∀ e ∈ es, e.2.Bounded
  | [] => by simp
  | (name, value) :: rest => by
    rw [List.forall_mem_cons, List.forall_mem_cons, exists_encode_iff value,
      exists_encodeElements_iff rest]

theorem exists_encodeValues_iff : ∀ vs : List ElementValue,
    (∀ v ∈ vs, ∃ bs, encode v = .ok bs) ↔ ∀ v ∈ vs, v.Bounded
  | [] => by simp
  | value :: rest => by
    rw [List.forall_mem_cons, List.forall_mem_cons, exists_encode_iff value,
      exists_encodeValues_iff rest]

end

end ElementValue

namespace Annotation

/-- The same of an annotation. -/
structure Bounded (a : Annotation) : Prop where
  length_le : a.elements.length ≤ 65535
  elements : ∀ e ∈ a.elements, e.2.Bounded

theorem exact_codec : codec.Exact := by
  have hvalid : ∀ fuel, Takes (fun bs a => encode a = .ok bs ∧ a.Valid)
      ( ElementValue.readAnnotation (ElementValue.readWithin fuel)) := fun fuel =>
    takes_and_returns ( ElementValue.exact_readAnnotation (ElementValue.exact_readWithin fuel))
      (ElementValue.returns_valid_elements (ElementValue.returns_valid_readWithin fuel))
  refine takes_imp (takes_remaining hvalid ?_) fun bs a h => h.1
  rintro bs a ⟨hencode, ha⟩ n hn
  exact ElementValue.reads_readAnnotation_of_elements (fun e he row hrow hwrite =>
    ElementValue.reads_readWithin (ha e he) hwrite (Nat.le_trans hrow hn)) hencode

theorem exact_tableCodec : tableCodec.Exact := exact_table exact_codec

theorem exact_parameterCodec : parameterCodec.Exact := by
  refine takes_bind takes_u8 ?_
  rintro count _ rfl
  refine takes_imp (takes_timesInto exact_tableCodec count.toNat []) ?_
  rintro _ ps ⟨chunks, rows, rfl, hps, hlength, hall⟩
  obtain rfl : ps = rows := hps
  have hlt : count.toNat < 0x100 := count.toNat_lt
  show parameterCodec.write ps = _
  simp only [parameterCodec, hlength, if_pos hlt, writeAll_eq_ok hall, UInt8.ofNat_toNat]
  rfl

theorem writes_codec : codec.Writes Bounded := by
  intro a
  show (∃ bs, encode a = .ok bs) ↔ a.Bounded
  rw [encode, exists_bind_pure_iff, ElementValue.exists_counted_iff,
    ElementValue.encodeElements_eq, exists_writeAll_iff]
  simp only [ElementValue.encodeElement, exists_bind_pure_iff,
    ElementValue.exists_encodeElements_iff]
  exact ⟨fun h => ⟨h.1, h.2⟩, fun h => ⟨h.1, h.2⟩⟩

theorem writes_tableCodec :
    tableCodec.Writes fun as => as.length ≤ 65535 ∧ ∀ a ∈ as, a.Bounded :=
  writes_table writes_codec

theorem writes_parameterCodec : parameterCodec.Writes fun ps =>
    ps.length ≤ 255 ∧ ∀ as ∈ ps, as.length ≤ 65535 ∧ ∀ a ∈ as, a.Bounded := by
  intro ps
  simp only [← writes_tableCodec _, ← exists_writeAll_iff]
  by_cases h : ps.length < 0x100
  · simp only [parameterCodec, if_pos h, exists_bind_pure_iff]
    exact ⟨fun hok => ⟨by omega, hok⟩, fun hok => hok.2⟩
  · simp only [parameterCodec, if_neg h]
    exact iff_of_false (by simp) fun hok => absurd hok.1 (by omega)

end Annotation

/-! ## Records and tables -/

/-- The payload is as long as a count of four bytes can say. -/
def Attribute.Sized (a : Attribute) : Prop := a.payload.length < 2 ^ 32

theorem Attribute.writes_codec : Attribute.codec.Writes fun a => True ∧ a.Sized :=
  writes_iso (writes_pair writes_u16 (writes_block _))

theorem Attribute.writes_listCodec :
    Attribute.listCodec.Writes fun as => as.length ≤ 65535 ∧ ∀ a ∈ as, a.Sized := by
  have htable := writes_table Attribute.writes_codec
  simp only [true_and] at htable
  exact htable

theorem Handler.exact_codec : Handler.codec.Exact :=
  exact_iso (exact_pair exact_u16 (exact_pair exact_u16 (exact_pair exact_u16 exact_u16)))
    fun _ => rfl

theorem Handler.writes_codec : Handler.codec.Writes fun _ => True :=
  writes_iso (total_pair writes_u16 (total_pair writes_u16 (total_pair writes_u16 writes_u16)))

namespace Code

/-- The instructions and the payloads of the attributes are as long as their counts can say. -/
structure Sized (c : Code) : Prop where
  instructions : c.instructions.length < 2 ^ 32
  attributes : ∀ a ∈ c.attributes, a.Sized

structure Bounded (c : Code) : Prop where
  handlers : c.handlers.length ≤ 65535
  attributes : c.attributes.length ≤ 65535

theorem exact_codec : codec.Exact :=
  exact_iso (exact_pair exact_u16 (exact_pair exact_u16 (exact_pair (exact_block _)
    (exact_pair (exact_table Handler.exact_codec) Attribute.exact_listCodec)))) fun _ => rfl

theorem inverse_codec : codec.Inverse Sized Bounded := by
  refine inverse_of_exact exact_codec (fun c _ => faithful_codec c)
    (writes_iso (writes_pair writes_u16 (writes_pair writes_u16 (writes_pair (writes_block .longBody)
      (writes_pair (writes_table Handler.writes_codec) Attribute.writes_listCodec))))) ?_
  intro c hc
  constructor
  · rintro ⟨-, -, -, ⟨hhandlers, -⟩, hattributes, -⟩
    exact ⟨hhandlers, hattributes⟩
  · intro h
    exact ⟨trivial, trivial, hc.instructions, ⟨h.handlers, fun _ _ => trivial⟩, h.attributes,
      hc.attributes⟩

end Code

theorem LocalRow.exact_codec : codec.Exact :=
  exact_iso (exact_pair exact_u16 (exact_pair exact_u16 (exact_pair exact_u16
    (exact_pair exact_u16 exact_u16)))) fun _ => rfl

theorem LocalRow.inverse_tableCodec :
    tableCodec.Inverse (fun _ => True) fun rows => rows.length ≤ 65535 :=
  inverse_table exact_codec faithful_tableCodec
    (writes_iso (total_pair writes_u16 (total_pair writes_u16 (total_pair writes_u16
      (total_pair writes_u16 writes_u16)))))

theorem InnerClassRow.exact_codec : codec.Exact :=
  exact_iso (exact_pair exact_u16 (exact_pair exact_u16 (exact_pair exact_u16 exact_u16)))
    fun _ => rfl

theorem InnerClassRow.inverse_tableCodec :
    tableCodec.Inverse (fun _ => True) fun rows => rows.length ≤ 65535 :=
  inverse_table exact_codec faithful_tableCodec
    (writes_iso (total_pair writes_u16 (total_pair writes_u16 (total_pair writes_u16 writes_u16))))

theorem EnclosingMethod.exact_codec : codec.Exact :=
  exact_iso (exact_pair exact_u16 exact_u16) fun _ => rfl

theorem EnclosingMethod.inverse_codec : codec.Inverse (fun _ => True) fun _ => True :=
  inverse_of_exact exact_codec faithful_codec.faithfulOn
    (writes_iso (total_pair writes_u16 writes_u16)) fun _ _ => Iff.rfl

namespace BootstrapRow

theorem exact_codec : codec.Exact :=
  exact_iso (exact_pair exact_u16 (exact_table exact_u16)) fun _ => rfl

theorem faithful_codec : codec.Faithful :=
  faithful_iso (faithful_pair faithful_u16 (faithful_table faithful_u16)) fun _ => rfl

theorem inverse_tableCodec : tableCodec.Inverse (fun _ => True) fun rows =>
    rows.length ≤ 65535 ∧ ∀ row ∈ rows, row.arguments.length ≤ 65535 := by
  refine inverse_of_exact (exact_table exact_codec) (faithful_table faithful_codec).faithfulOn
    (writes_table (writes_iso (writes_pair writes_u16 (writes_table writes_u16)))) fun rows _ => ?_
  simp

end BootstrapRow

namespace RecordComponent

theorem exact_codec : codec.Exact :=
  exact_iso (exact_pair exact_u16 (exact_pair exact_u16 Attribute.exact_listCodec)) fun _ => rfl

theorem inverse_tableCodec : tableCodec.Inverse (fun cs => ∀ c ∈ cs, ∀ a ∈ c.attributes, a.Sized)
    fun cs => cs.length ≤ 65535 ∧ ∀ c ∈ cs, c.attributes.length ≤ 65535 := by
  refine inverse_of_exact (exact_table exact_codec) (fun cs _ => faithful_tableCodec cs)
    (writes_table (writes_iso (writes_pair writes_u16 (writes_pair writes_u16
      Attribute.writes_listCodec)))) fun cs hcs => ?_
  constructor
  · exact fun h => ⟨h.1, fun c hc => (h.2 c hc).2.2.1⟩
  · exact fun h => ⟨h.1, fun c hc => ⟨trivial, trivial, h.2 c hc, hcs c hc⟩⟩

end RecordComponent

/-- Reading and writing are inverse to each other for each of the payloads that are looked into: of
method bodies, of local variables, of bootstrap methods, of nested classes, of enclosing methods, of
records, of annotations, of the annotations of parameters and of default values.  The values that
cannot be written are those with a table, at any depth, of more rows than its count can say. -/
theorem Attribute.inverse_payloads :
    Code.codec.Inverse Code.Sized Code.Bounded ∧
    LocalRow.tableCodec.Inverse (fun _ => True) (fun rows => rows.length ≤ 65535) ∧
    BootstrapRow.tableCodec.Inverse (fun _ => True) (fun rows =>
      rows.length ≤ 65535 ∧ ∀ row ∈ rows, row.arguments.length ≤ 65535) ∧
    InnerClassRow.tableCodec.Inverse (fun _ => True) (fun rows => rows.length ≤ 65535) ∧
    EnclosingMethod.codec.Inverse (fun _ => True) (fun _ => True) ∧
    RecordComponent.tableCodec.Inverse (fun cs => ∀ c ∈ cs, ∀ a ∈ c.attributes, a.Sized)
      (fun cs => cs.length ≤ 65535 ∧ ∀ c ∈ cs, c.attributes.length ≤ 65535) ∧
    Annotation.tableCodec.Inverse (fun as => ∀ a ∈ as, a.Valid)
      (fun as => as.length ≤ 65535 ∧ ∀ a ∈ as, a.Bounded) ∧
    Annotation.parameterCodec.Inverse (fun ps => ∀ as ∈ ps, ∀ a ∈ as, a.Valid)
      (fun ps => ps.length ≤ 255 ∧ ∀ as ∈ ps, as.length ≤ 65535 ∧ ∀ a ∈ as, a.Bounded) ∧
    ElementValue.codec.Inverse ElementValue.Valid ElementValue.Bounded := by
  have hannotations : Annotation.tableCodec.Inverse (fun as => ∀ a ∈ as, a.Valid)
      (fun as => as.length ≤ 65535 ∧ ∀ a ∈ as, a.Bounded) :=
    inverse_of_exact Annotation.exact_tableCodec Annotation.faithfulOn_tableCodec
      Annotation.writes_tableCodec fun _ _ => Iff.rfl
  have hparameters : Annotation.parameterCodec.Inverse (fun ps => ∀ as ∈ ps, ∀ a ∈ as, a.Valid)
      (fun ps => ps.length ≤ 255 ∧ ∀ as ∈ ps, as.length ≤ 65535 ∧ ∀ a ∈ as, a.Bounded) :=
    inverse_of_exact Annotation.exact_parameterCodec Annotation.faithfulOn_parameterCodec
      Annotation.writes_parameterCodec fun _ _ => Iff.rfl
  have hdefault : ElementValue.codec.Inverse ElementValue.Valid ElementValue.Bounded :=
    inverse_of_exact ElementValue.exact_codec ElementValue.faithfulOn_codec
      ElementValue.exists_encode_iff fun _ _ => Iff.rfl
  exact ⟨Code.inverse_codec, LocalRow.inverse_tableCodec, BootstrapRow.inverse_tableCodec,
    InnerClassRow.inverse_tableCodec, EnclosingMethod.inverse_codec,
    RecordComponent.inverse_tableCodec, hannotations, hparameters, hdefault⟩

/-- A table with no rows and a byte behind it. -/
example : LocalRow.tableCodec.decode [0, 0, 1] = .error (.format (.trailingPayload 1)) := by
  decide +kernel

end ClassRelabel
