/-
What becomes of declarations and of what stands on them.

`ClassFile.Redeclared m owner c new` says of the class `new` that every field and method of `c`
is declared in it by its new name and descriptor, and that signatures, annotations, nested classes,
enclosing methods and record components spell in it what the mappings make of what they spelled.
Annotations are compared value by value: the trees have the same shape, and only the indices of
types differ.  The theorem this file exists for is `redeclared_of_relabel`: it holds of the class
that the bytes of a run are parsed to.
-/
import ClassRelabel.Proofs.Relabel.Parameters
import ClassRelabel.Proofs.Relabel.Yields

namespace ClassRelabel

open EStateM Codec Pool

/-! ## Annotations -/

namespace ElementValue

mutual

/-- `p` and `q` are the pools that the two values are read in. -/
inductive Renamed (m : Mappings) (p q : Pool) : ElementValue → ElementValue → Prop
  | const (tag : UInt8) (value : Index) : Renamed m p q (.const tag value) (.const tag value)
  | enum {i j : Index} (type : Respelled p q m.renameDescriptor i j) (name : Index) :
      Renamed m p q (.enum i name) (.enum j name)
  | classInfo {i j : Index} (type : Respelled p q m.renameResult i j) :
      Renamed m p q (.classInfo i) (.classInfo j)
  | nested {i j : Index} {es es' : List (Index × ElementValue)}
      (type : Respelled p q m.renameDescriptor i j) (elements : RenamedElements m p q es es') :
      Renamed m p q (.nested i es) (.nested j es')
  | array {vs ws : List ElementValue} (values : RenamedValues m p q vs ws) :
      Renamed m p q (.array vs) (.array ws)

/-- The elements have the same names in the same order. -/
inductive RenamedElements (m : Mappings) (p q : Pool) :
    List (Index × ElementValue) → List (Index × ElementValue) → Prop
  | nil : RenamedElements m p q [] []
  | cons {name : Index} {v w : ElementValue} {es es' : List (Index × ElementValue)}
      (value : Renamed m p q v w) (rest : RenamedElements m p q es es') :
      RenamedElements m p q ((name, v) :: es) ((name, w) :: es')

inductive RenamedValues (m : Mappings) (p q : Pool) :
    List ElementValue → List ElementValue → Prop
  | nil : RenamedValues m p q [] []
  | cons {v w : ElementValue} {vs ws : List ElementValue} (value : Renamed m p q v w)
      (rest : RenamedValues m p q vs ws) : RenamedValues m p q (v :: vs) (w :: ws)

end

end ElementValue

structure Annotation.Renamed (m : Mappings) (p q : Pool) (old new : Annotation) : Prop where
  type : Respelled p q m.renameDescriptor old.type new.type
  elements : ElementValue.RenamedElements m p q old.elements new.elements

/-- An attribute that may stand on every declaration. -/
def RenamedDeclared (m : Mappings) (p q : Pool) (name : String) (old new : Bytes) : Prop :=
  match name with
  | "Signature" => SamePayload Codec.u16 (Respelled p q m.renameSignature) old new
  | "RuntimeVisibleAnnotations" | "RuntimeInvisibleAnnotations" =>
    SamePayload Annotation.tableCodec (List.Forall₂ ( Annotation.Renamed m p q)) old new
  | "RuntimeVisibleParameterAnnotations" | "RuntimeInvisibleParameterAnnotations" =>
    SamePayload Annotation.parameterCodec
      (List.Forall₂ (List.Forall₂ ( Annotation.Renamed m p q))) old new
  | "AnnotationDefault" => SamePayload ElementValue.codec (ElementValue.Renamed m p q) old new
  | _ => new = old

/-! ## Members -/

namespace Mappings

/-- The field `old` of `owner` is called `new` afterwards. -/
structure RenamesField (m : Mappings) (owner : String) (old new : NamedType) : Prop where
  name : new.name = m.renameField owner old.name
  descriptor : m.renameDescriptor old.descriptor = .ok new.descriptor

/-- The method `old` of `owner` is called `new` afterwards. -/
structure RenamesMethod (m : Mappings) (owner : String) (old new : NamedType) : Prop where
  name : new.name = m.renameMethod owner ⟨old.name, old.descriptor⟩
  descriptor : m.renameMethodType old.descriptor = .ok new.descriptor

end Mappings

/-- The naming of parameters looks the old method up and goes by the new types. -/
theorem Member.namedAs_of_renamesMethod {m : Mappings} {owner : String} {p : Pool} {old : Member}
    {t t' : NamedType} {type : MethodType} (hdeclared : old.Is p t)
    (hrenames : m.RenamesMethod owner t t') (htype : MethodType.parse t'.descriptor = .ok type) :
    old.NamedAs m owner p ⟨⟨owner, t.name, t.descriptor⟩, old.isStatic, type.parameters⟩ :=
  ⟨rfl, hdeclared, rfl, _, type, hrenames.descriptor, htype, rfl⟩

/-- A field or method whose attributes are related as `S` says. -/
structure Member.Renamed (p q : Pool) (R : NamedType → NamedType → Prop)
    (S : String → Bytes → Bytes → Prop) (old new : Member) : Prop where
  access : new.access = old.access
  declared : ∃ t t', old.Is p t ∧ R t t' ∧ new.Is q t'
  attributes : List.Forall₂ (Attribute.Kept p S) old.attributes new.attributes

/-- An attribute of a method other than its body. -/
def RenamedOnMethod (m : Mappings) (p q : Pool) (name : String) (old new : Bytes) : Prop :=
  name ≠ "Code" → RenamedDeclared m p q name old new

/-- A component is declared like the field of its name. -/
structure RecordComponent.Renamed (m : Mappings) (owner : String) (p q : Pool)
    (old new : RecordComponent) : Prop where
  declared : ∃ t t' : NamedType, p.text old.name = .ok t.name ∧
    p.text old.descriptor = .ok t.descriptor ∧ m.RenamesField owner t t' ∧
      q.text new.name = .ok t'.name ∧ q.text new.descriptor = .ok t'.descriptor
  attributes : List.Forall₂ (Attribute.Kept p (RenamedDeclared m p q)) old.attributes new.attributes

/-! ## Attributes of classes -/

structure InnerClassRow.Renamed (m : Mappings) (p q : Pool) (old new : InnerClassRow) : Prop where
  frame : new.frame = old.frame
  anonymous : old.name = 0 → new.name = 0
  named : old.name ≠ 0 → ∃ inner, p.className old.inner = .ok inner ∧
    Respelled p q (fun simple => .ok (m.renameSimple inner simple)) old.name new.name

/-- The method is looked up in the class that encloses, not in the class that is enclosed. -/
structure EnclosingMethod.Renamed (m : Mappings) (p q : Pool) (old new : EnclosingMethod) :
    Prop where
  owner : new.owner = old.owner
  outside : old.method = 0 → new.method = 0
  inside : old.method ≠ 0 → ∃ owner t t', p.className old.owner = .ok owner ∧
    p.namedType old.method = .ok t ∧ m.RenamesMethod owner t t' ∧ q.namedType new.method = .ok t'

def RenamedOnClass (m : Mappings) (owner : String) (p q : Pool) (name : String)
    (old new : Bytes) : Prop :=
  match name with
  | "InnerClasses" =>
    SamePayload InnerClassRow.tableCodec (List.Forall₂ (InnerClassRow.Renamed m p q)) old new
  | "EnclosingMethod" => SamePayload EnclosingMethod.codec (EnclosingMethod.Renamed m p q) old new
  | "Record" =>
    SamePayload RecordComponent.tableCodec
      (List.Forall₂ (RecordComponent.Renamed m owner p q)) old new
  | _ => RenamedDeclared m p q name old new

/-- The class `new` declares under new names what `c`, a class called `owner`, declares. -/
structure ClassFile.Redeclared (m : Mappings) (owner : String) (c new : ClassFile) : Prop where
  /-- What has no name in it stands at the same index, texts and numbers among it. -/
  literals : ∀ i k, c.pool.constant i = .ok k → k.isReference = false → new.pool.constant i = .ok k
  fields : List.Forall₂ (Member.Renamed c.pool new.pool (m.RenamesField owner)
    (RenamedDeclared m c.pool new.pool)) c.fields new.fields
  methods : List.Forall₂ (Member.Renamed c.pool new.pool (m.RenamesMethod owner)
    (RenamedOnMethod m c.pool new.pool)) c.methods new.methods
  attributes : List.Forall₂ (Attribute.Kept c.pool (RenamedOnClass m owner c.pool new.pool))
    c.attributes new.attributes

namespace Relabelling

variable (r : Relabelling) (final : Pool)

/-! ## Relabelling annotations -/

mutual

theorem yields_element : ∀ v : ElementValue,
    Yields r final (ElementValue.Renamed r.mappings r.source final v) (r.element v)
  | .const tag value => by
    rw [element]
    exact yields_pure (.const tag value)
  | .enum type name => by
    rw [element]
    exact yields_bind (yields_respelled _ type) fun _ => yields_pure fun h => .enum h name
  | .classInfo type => by
    rw [element]
    exact yields_bind (yields_respelled _ type) fun _ => yields_pure .classInfo
  | .nested type elements => by
    rw [element]
    exact yields_lift fun old hold => yields_lift fun new hnew =>
      yields_bind (yields_namedElements elements) fun _ =>
        yields_bind (yields_redirect type new) fun _ => yields_pure fun htype helements =>
          .nested ⟨old, new, hold, hnew, htype⟩ helements
  | .array values => by
    rw [element]
    exact yields_bind (yields_elements values) fun _ => yields_pure .array

theorem yields_namedElements : ∀ es : List (Index × ElementValue),
    Yields r final (ElementValue.RenamedElements r.mappings r.source final es) (r.namedElements es)
  | [] => by
    rw [namedElements]
    exact yields_pure .nil
  | (name, value) :: rest => by
    rw [namedElements]
    exact yields_bind (yields_element value) fun _ => yields_bind (yields_namedElements rest)
      fun _ => yields_pure fun hrest hvalue => .cons hvalue hrest

theorem yields_elements : ∀ vs : List ElementValue,
    Yields r final (ElementValue.RenamedValues r.mappings r.source final vs) (r.elements vs)
  | [] => by
    rw [elements]
    exact yields_pure .nil
  | value :: rest => by
    rw [elements]
    exact yields_bind (yields_element value) fun _ => yields_bind (yields_elements rest)
      fun _ => yields_pure fun hrest hvalue => .cons hvalue hrest

end

theorem yields_annotationRow (a : Annotation) :
    Yields r final ( Annotation.Renamed r.mappings r.source final a) (r.annotationRow a) :=
  yields_lift fun old hold => yields_lift fun new hnew =>
    yields_bind (r.yields_namedElements final a.elements) fun _ =>
      yields_bind (yields_redirect a.type new) fun _ => yields_pure fun htype helements =>
        ⟨⟨old, new, hold, hnew, htype⟩, helements⟩

theorem yields_annotationsPayload (bs : Bytes) :
    Yields r final (SamePayload Annotation.tableCodec
        (List.Forall₂ ( Annotation.Renamed r.mappings r.source final)) bs)
      (payload Annotation.tableCodec (fun as => as.mapM r.annotationRow) bs) :=
  yields_payload Annotation.returns_valid_tableCodec Annotation.faithfulOn_tableCodec
    (fun as => returns_imp (returns_rows r.returns_annotationRow as) fun _ h => h.2)
    (yields_mapM (r.yields_annotationRow final)) bs

theorem yields_parametersPayload (bs : Bytes) :
    Yields r final (SamePayload Annotation.parameterCodec
        (List.Forall₂ (List.Forall₂ ( Annotation.Renamed r.mappings r.source final))) bs)
      (payload Annotation.parameterCodec (fun ps => ps.mapM fun as => as.mapM r.annotationRow)
        bs) :=
  yields_payload Annotation.returns_valid_parameterCodec Annotation.faithfulOn_parameterCodec
    (fun ps => returns_imp (returns_rows (returns_rows r.returns_annotationRow) ps) fun _ h => h.2)
    (yields_mapM (yields_mapM (r.yields_annotationRow final))) bs

theorem yields_defaultPayload (bs : Bytes) :
    Yields r final (SamePayload ElementValue.codec
        (ElementValue.Renamed r.mappings r.source final) bs)
      (payload ElementValue.codec r.element bs) :=
  yields_payload ElementValue.returns_valid_read ElementValue.faithfulOn_codec
    (fun v => returns_imp (r.returns_element v) fun _ h => h.2) (r.yields_element final) bs

theorem yields_declared (a : Attribute) :
    Yields r final (Attribute.Kept r.source (RenamedDeclared r.mappings r.source final) a)
      (r.declared a) := by
  refine yields_lift fun name hname => ?_
  split
  · exact yields_via hname
      (yields_faithfulPayload faithful_u16 (yields_respelled r.mappings.renameSignature) a.payload)
  · exact yields_via hname (r.yields_annotationsPayload final a.payload)
  · exact yields_via hname (r.yields_annotationsPayload final a.payload)
  · exact yields_via hname (r.yields_parametersPayload final a.payload)
  · exact yields_via hname (r.yields_parametersPayload final a.payload)
  · exact yields_via hname (r.yields_defaultPayload final a.payload)
  · refine yields_pure ⟨rfl, name, hname, ?_⟩
    unfold RenamedDeclared
    split <;> first | rfl | contradiction

/-! ## Relabelling the attributes of a class -/

theorem renamesField_of_memberType {owner : String} {old new : NamedType}
    (h : r.memberType .field owner old = .ok new) : r.mappings.RenamesField owner old new := by
  obtain ⟨descriptor, hdescriptor, h⟩ := Except.bind_eq_ok.mp h
  obtain rfl := Except.pure_eq_ok.mp h
  exact ⟨rfl, hdescriptor⟩

theorem renamesMethod_of_memberType {owner : String} {old new : NamedType}
    (h : r.memberType .method owner old = .ok new) : r.mappings.RenamesMethod owner old new := by
  obtain ⟨descriptor, hdescriptor, h⟩ := Except.bind_eq_ok.mp h
  obtain rfl := Except.pure_eq_ok.mp h
  exact ⟨rfl, hdescriptor⟩

theorem yields_innerClass (row : InnerClassRow) :
    Yields r final (InnerClassRow.Renamed r.mappings r.source final row) (r.innerClass row) := by
  unfold innerClass
  by_cases h : row.name = 0
  · simp only [if_pos h]
    exact yields_pure ⟨rfl, id, fun hne => absurd h hne⟩
  · simp only [if_neg h]
    refine yields_lift fun inner hinner => yields_lift fun simple hsimple =>
      yields_bind (yields_redirect _ _) fun _ => yields_pure fun hname => ?_
    exact ⟨rfl, fun h0 => absurd h0 h, fun _ => ⟨inner, hinner, simple, _, hsimple, rfl, hname⟩⟩

theorem yields_enclosingMethod (e : EnclosingMethod) :
    Yields r final (EnclosingMethod.Renamed r.mappings r.source final e) (r.enclosingMethod e) := by
  unfold enclosingMethod
  by_cases h : e.method = 0
  · simp only [if_pos h]
    exact yields_pure ⟨rfl, id, fun hne => absurd h hne⟩
  · simp only [if_neg h]
    refine yields_lift fun owner howner => yields_lift fun t ht => yields_lift fun t' ht' =>
      yields_bind (yields_redirectPair _ _) fun _ => yields_pure fun hpair => ?_
    exact ⟨rfl, fun h0 => absurd h0 h, fun _ =>
      ⟨owner, t, t', howner, ht, r.renamesMethod_of_memberType ht', hpair⟩⟩

theorem yields_component (c : RecordComponent) :
    Yields r final (RecordComponent.Renamed r.mappings r.owner r.source final c)
      (r.component c) :=
  yields_lift fun name hname => yields_lift fun descriptor hdescriptor => yields_lift fun t' ht' =>
    yields_bind (yields_redirect _ _) fun _ => yields_bind (yields_redirect _ _) fun _ =>
      yields_bind (yields_mapM (r.yields_declared final) _) fun _ =>
        yields_pure fun hattributes hdescriptor' hname' =>
          ⟨⟨⟨name, descriptor⟩, t', hname, hdescriptor, r.renamesField_of_memberType ht', hname',
            hdescriptor'⟩, hattributes⟩

theorem yields_classAttribute (a : Attribute) :
    Yields r final (Attribute.Kept r.source (RenamedOnClass r.mappings r.owner r.source final) a)
      (r.classAttribute a) := by
  refine yields_lift fun name hname => ?_
  split
  · exact yields_via hname (yields_faithfulPayload InnerClassRow.faithful_tableCodec
      (yields_mapM (r.yields_innerClass final)) a.payload)
  · exact yields_via hname (yields_faithfulPayload EnclosingMethod.faithful_codec
      (r.yields_enclosingMethod final) a.payload)
  · exact yields_via hname (yields_faithfulPayload RecordComponent.faithful_tableCodec
      (yields_mapM (r.yields_component final)) a.payload)
  · refine (r.yields_declared final a).imp fun b hb => hb.imp hname fun old new h => ?_
    unfold RenamedOnClass
    split <;> first | exact h | contradiction

/-! ## Relabelling members -/

theorem yields_field (f : Member) :
    Yields r final (Member.Renamed r.source final (r.mappings.RenamesField r.owner)
      (RenamedDeclared r.mappings r.source final) f) (r.field f) :=
  yields_lift fun name hname => yields_lift fun descriptor hdescriptor => yields_lift fun t' ht' =>
    yields_bind (yields_redirect _ _) fun _ => yields_bind (yields_redirect _ _) fun _ =>
      yields_bind (yields_mapM (r.yields_declared final) _) fun _ =>
        yields_pure fun hattributes hdescriptor' hname' =>
          ⟨rfl, ⟨⟨name, descriptor⟩, t', ⟨hname, hdescriptor⟩, r.renamesField_of_memberType ht',
            ⟨hname', hdescriptor'⟩⟩, hattributes⟩

/-- A method whose attributes come to `P`.  The naming of parameters in a body starts from no
names. -/
theorem yields_method {P : List Attribute → Prop} (old : Member)
    (h : ∀ m used, old.NamedAs r.mappings r.owner r.source m →
      (old.hasBody = true → used = .empty) →
        Yields r final P (r.methodAttributes m old.attributes used)) :
    Yields r final (fun new => new.1.access = old.access ∧
      (∃ t t', old.Is r.source t ∧ r.mappings.RenamesMethod r.owner t t' ∧ new.1.Is final t') ∧
        P new.1.attributes) (r.method old) := by
  refine yields_lift fun name hname => yields_lift fun descriptor hdescriptor =>
    yields_lift fun t' ht' => yields_lift fun type htype => ?_
  have hrenames := r.renamesMethod_of_memberType ht'
  have hnamed := Member.namedAs_of_renamesMethod ⟨hname, hdescriptor⟩ hrenames htype
  -- With a body or without one, the attributes come first and then the name and descriptor.
  have hrest : ∀ (report : Option ParameterNames) used, (old.hasBody = true → used = .empty) →
      Yields r final (fun new : Member × Option ParameterNames => new.1.access = old.access ∧
        (∃ t t', old.Is r.source t ∧ r.mappings.RenamesMethod r.owner t t' ∧ new.1.Is final t') ∧
          P new.1.attributes) (do
        let attributes ← r.methodAttributes
          ⟨⟨r.owner, name, descriptor⟩, old.isStatic, type.parameters⟩ old.attributes used
        let nameIndex ← r.redirect old.name t'.name
        let descriptorIndex ← r.redirect old.descriptor t'.descriptor
        return (⟨old.access, nameIndex, descriptorIndex, attributes⟩, report) : PoolM _) :=
    fun report used hused => yields_bind (h _ used hnamed hused) fun _ =>
      yields_bind (yields_redirect _ _) fun _ => yields_bind (yields_redirect _ _) fun _ =>
        yields_pure fun hdescriptor' hname' hattributes =>
          ⟨rfl, ⟨⟨name, descriptor⟩, t', ⟨hname, hdescriptor⟩, hrenames, ⟨hname', hdescriptor'⟩⟩,
            hattributes⟩
  split
  · exact hrest none .empty fun _ => rfl
  · rename_i hbody
    exact yields_lift fun found _ => hrest found.1 found.2 fun h => absurd h hbody

/-- The bodies come to `R`, whatever names are used when their parameters are named. -/
theorem yields_methodAttributes {R : Code → Code → Prop} (m : NamedMethod)
    (hcode : ∀ used c, Yields r final (fun new => R c new.1) (r.code m c used))
    (as : List Attribute) (used : UsedNames) :
    Yields r final (List.Forall₂ (Attribute.Kept r.source fun name old new =>
      (name = "Code" → SamePayload Code.codec R old new) ∧
        RenamedOnMethod r.mappings r.source final name old new) as)
      (r.methodAttributes m as used) := by
  induction as generalizing used with
  | nil => exact yields_pure .nil
  | cons a rest ih =>
    refine yields_lift fun name hname => ?_
    split
    · rename_i hbody
      subst hbody
      refine yields_lift fun code hdecode => yields_bind (hcode used code) fun new =>
        yields_lift fun bs hbs => yields_bind (ih new.2) fun others =>
          yields_pure fun hothers hnew => .cons ⟨rfl, _, hname, fun _ => ?_, fun hne => ?_⟩ hothers
      · exact ⟨code, new.1, hdecode,
          Code.faithful_codec.faithfulOn.decode_eq_ok trivial hbs, hnew⟩
      · exact absurd rfl hne
    · rename_i hother
      exact yields_bind (r.yields_declared final a) fun b => yields_bind (ih used) fun others =>
        yields_pure fun hothers hb => .cons
          (hb.imp hname fun _ _ h => ⟨fun hbody => absurd hbody hother, fun _ => h⟩) hothers

/-- The bodies of a method come to what each of them comes to. -/
theorem yields_bodies {R : NamedMethod → Code → Code → Prop} (old : Member)
    (hcode : ∀ m used c, old.NamedAs r.mappings r.owner r.source m →
      Yields r final (fun new => R m c new.1) (r.code m c used)) :
    Yields r final (fun new => ∃ m, old.NamedAs r.mappings r.owner r.source m ∧
      List.Forall₂ (Attribute.Kept r.source fun name as bs => name = "Code" →
        SamePayload Code.codec (R m) as bs) old.attributes new.1.attributes) (r.method old) := by
  refine (r.yields_method final (P := fun as' => ∃ m, old.NamedAs r.mappings r.owner r.source m ∧
    List.Forall₂ (Attribute.Kept r.source fun name as bs => name = "Code" →
      SamePayload Code.codec (R m) as bs) old.attributes as') old
    fun m used hnamed _ => ?_).imp fun new h => h.2.2
  have hattributes := r.yields_methodAttributes final m (fun used c => hcode m used c hnamed)
    old.attributes used
  exact hattributes.imp fun as' has' => ⟨m, hnamed,
    has'.imp fun a b ⟨hsame, name, hname, hbody, _⟩ => ⟨hsame, name, hname, hbody⟩⟩

end Relabelling

namespace ClassFile

open Relabelling

/-- A run that succeeds writes a class that declares the same under new names. -/
theorem redeclared_of_relabel {bs : Bytes} {c : ClassFile} {m : Mappings} {d : Option Dictionary}
    {out : RelabelledClass} (hparse : parse bs = .ok c) (h : c.relabel m d = .ok out) :
    ∃ owner new, c.name = .ok owner ∧ parse out.bytes = .ok new ∧ c.Redeclared m owner new := by
  obtain ⟨r, new, hr, -, hnew, hrelabelled⟩ :=
    relabelled_of_relabel (storable_of_parse hparse) h
  refine ⟨r.owner, new, hr.name, hnew, fun i k hk hkept => ?_, ?_, ?_, ?_⟩
  · obtain ⟨hslot, husable⟩ := constant_eq_ok.mp hk
    have hrevises := hrelabelled.underway.revises
    rw [hr.source] at hrevises
    exact constant_eq_ok.mpr ⟨hrevises.slot hslot hkept, husable⟩
  · rw [← hr.source, ← hr.mappings]
    exact hrelabelled.fields.imp fun f f' hmade => hmade.of_yields (r.yields_field _ f)
  · rw [← hr.source, ← hr.mappings]
    refine hrelabelled.methods.imp fun old new ⟨report, hmade⟩ => ?_
    obtain ⟨haccess, hdeclared, hattributes⟩ := hmade.of_yields
      (r.yields_method _ old fun m used _ _ => r.yields_methodAttributes _ (R := fun _ _ => True) m
        (fun used code => yields_any (r.keeps_code m code used)) _ used)
    exact ⟨haccess, hdeclared, hattributes.imp fun a a' ⟨hsame, name, hname, h⟩ =>
      ⟨hsame, name, hname, h.2⟩⟩
  · rw [← hr.source, ← hr.mappings]
    exact hrelabelled.attributes.imp fun a a' hmade => hmade.of_yields (r.yields_classAttribute _ a)

theorem redeclared_of_relabel_localRecord :
    parse (LocalRecord.bytesOf LocalRecord.classFile) = .ok LocalRecord.classFile ∧
      LocalRecord.classFile.relabel LocalRecord.mappings none = .ok LocalRecord.relabelled ∧
      ∃ owner new, LocalRecord.classFile.name = .ok owner ∧
        parse LocalRecord.relabelled.bytes = .ok new ∧
        LocalRecord.classFile.Redeclared LocalRecord.mappings owner new :=
  ⟨LocalRecord.parse_bytes, LocalRecord.relabel_classFile,
    redeclared_of_relabel LocalRecord.parse_bytes LocalRecord.relabel_classFile⟩

end ClassFile
end ClassRelabel
