/-
What a relabelling leaves alone.

`ClassFile.Kept c new` says that the class `new` differs from `c` in names only: no constant has
moved, what was appended spells names, and of every member, attribute and row of a table all but
the indices of names is as it was.  The theorem this file exists for is `kept_of_relabel`: it
holds of the class that the bytes of a run are parsed to.

The `frame` of a row is the row without the indices that may be pointed at a new name.  Rows with
equal frames differ in these indices at most.
-/
import ClassRelabel.Proofs.Attribute.Annotation
import ClassRelabel.Proofs.Relabel.Class

namespace ClassRelabel

open EStateM Codec

/-! ## Frames -/

namespace ElementValue

mutual

def frame : ElementValue → ElementValue
  | const tag value => const tag value
  | enum _ name => enum 0 name
  | classInfo _ => classInfo 0
  | nested _ elements => nested 0 (frameElements elements)
  | array values => array (frameValues values)

def frameElements : List (Index × ElementValue) → List (Index × ElementValue)
  | [] => []
  | (name, value) :: rest => (name, frame value) :: frameElements rest

def frameValues : List ElementValue → List ElementValue
  | [] => []
  | value :: rest => frame value :: frameValues rest

end

end ElementValue

def Annotation.frame (a : Annotation) : Annotation :=
  ⟨0, ElementValue.frameElements a.elements⟩

def LocalRow.frame (row : LocalRow) : LocalRow := { row with name := 0, descriptor := 0 }

def InnerClassRow.frame (row : InnerClassRow) : InnerClassRow := { row with name := 0 }

def EnclosingMethod.frame (e : EnclosingMethod) : EnclosingMethod := { e with method := 0 }

/-! ## What stays of a class -/

/-- Two payloads hold values of which `R` holds. -/
def SamePayload {α : Type} (codec : Codec α) (R : α → α → Prop) (old new : Bytes) : Prop :=
  ∃ a b, codec.decode old = .ok a ∧ codec.decode new = .ok b ∧ R a b

/-- Attributes of one name, whose payloads are related as `R` says for attributes called so. -/
structure Attribute.Kept (p : Pool) (R : String → Bytes → Bytes → Prop) (old new : Attribute) :
    Prop where
  name : new.name = old.name
  payload : ∃ name, p.text old.name = .ok name ∧ R name old.payload new.payload

theorem Attribute.Kept.imp {p : Pool} {R S : String → Bytes → Bytes → Prop} {a b : Attribute}
    {name : String} (hname : p.text a.name = .ok name) (h : Attribute.Kept p R a b)
    (himp : ∀ old new, R name old new → S name old new) : Attribute.Kept p S a b := by
  obtain ⟨hsame, name', hname', hpayload⟩ := h
  obtain rfl := Except.ok.inj (hname.symm.trans hname')
  exact ⟨hsame, name, hname, himp _ _ hpayload⟩

/-- An attribute that may stand on every declaration. -/
def KeptDeclared (name : String) (old new : Bytes) : Prop :=
  match name with
  | "Signature" => SamePayload Codec.u16 (fun _ _ => True) old new
  | "RuntimeVisibleAnnotations" | "RuntimeInvisibleAnnotations" =>
    SamePayload Annotation.tableCodec
      (fun as bs => bs.map Annotation.frame = as.map Annotation.frame) old new
  | "RuntimeVisibleParameterAnnotations" | "RuntimeInvisibleParameterAnnotations" =>
    SamePayload Annotation.parameterCodec
      (fun ps qs => qs.map (List.map Annotation.frame) = ps.map (List.map Annotation.frame)) old new
  | "AnnotationDefault" => SamePayload ElementValue.codec (fun v w => w.frame = v.frame) old new
  | _ => new = old

def KeptInBody (name : String) (old new : Bytes) : Prop :=
  match name with
  | "LocalVariableTable" | "LocalVariableTypeTable" =>
    SamePayload LocalRow.tableCodec
      (fun rows rows' => rows'.map LocalRow.frame = rows.map LocalRow.frame) old new
  | _ => new = old

/-- The tables in a body, related by `V` where they list variables and by `T` where they list
generic types. -/
def RelatedInBody (V T : List LocalRow → List LocalRow → Prop) (name : String)
    (old new : Bytes) : Prop :=
  match name with
  | "LocalVariableTable" => SamePayload LocalRow.tableCodec V old new
  | "LocalVariableTypeTable" => SamePayload LocalRow.tableCodec T old new
  | _ => new = old

structure Code.Kept (p : Pool) (old new : Code) : Prop where
  maxStack : new.maxStack = old.maxStack
  maxLocals : new.maxLocals = old.maxLocals
  instructions : new.instructions = old.instructions
  handlers : new.handlers = old.handlers
  attributes : List.Forall₂ (Attribute.Kept p KeptInBody) old.attributes new.attributes

/-- An attribute of a method. -/
def KeptOnMethod (p : Pool) (name : String) (old new : Bytes) : Prop :=
  match name with
  | "Code" => SamePayload Code.codec (Code.Kept p) old new
  | _ => KeptDeclared name old new

def RecordComponent.Kept (p : Pool) (old new : RecordComponent) : Prop :=
  List.Forall₂ (Attribute.Kept p KeptDeclared) old.attributes new.attributes

def KeptOnClass (p : Pool) (name : String) (old new : Bytes) : Prop :=
  match name with
  | "InnerClasses" =>
    SamePayload InnerClassRow.tableCodec
      (fun rows rows' => rows'.map InnerClassRow.frame = rows.map InnerClassRow.frame) old new
  | "EnclosingMethod" => SamePayload EnclosingMethod.codec (fun e e' => e'.frame = e.frame) old new
  | "Record" =>
    SamePayload RecordComponent.tableCodec (List.Forall₂ (RecordComponent.Kept p)) old new
  | _ => KeptDeclared name old new

structure Member.Kept (p : Pool) (R : String → Bytes → Bytes → Prop) (old new : Member) : Prop where
  access : new.access = old.access
  attributes : List.Forall₂ (Attribute.Kept p R) old.attributes new.attributes

/-- `new` is `c` with other names. -/
structure ClassFile.Kept (c new : ClassFile) : Prop where
  size_le : c.pool.slots.size ≤ new.pool.slots.size
  constants : ∀ (i : Nat) (k : Constant), c.pool.slots[i]? = some k →
    ∃ k', new.pool.slots[i]? = some k' ∧ k'.frame = k.frame
  appended : ∀ (i : Nat) (k : Constant), c.pool.slots[i]? = none → new.pool.slots[i]? = some k →
    k.isName = true
  version : new.version = c.version
  access : new.access = c.access
  thisClass : new.thisClass = c.thisClass
  superClass : new.superClass = c.superClass
  interfaces : new.interfaces = c.interfaces
  fields : List.Forall₂ (Member.Kept c.pool KeptDeclared) c.fields new.fields
  methods : List.Forall₂ (Member.Kept c.pool (KeptOnMethod c.pool)) c.methods new.methods
  attributes : List.Forall₂ (Attribute.Kept c.pool (KeptOnClass c.pool)) c.attributes new.attributes

namespace Relabelling

variable (r : Relabelling)

/-! ## Annotations -/

/-- A value that is relabelled keeps its frame, and is valid if it was. -/
def KeptValue (v w : ElementValue) : Prop := w.frame = v.frame ∧ (v.Valid → w.Valid)

mutual

theorem returns_element : ∀ v : ElementValue, Returns (KeptValue v) (r.element v)
  | .const tag value => by
    rw [element]
    exact returns_pure ⟨rfl, id⟩
  | .enum type name => by
    rw [element]
    exact returns_then fun new => returns_pure ⟨rfl, fun _ => .enum new name⟩
  | .classInfo type => by
    rw [element]
    exact returns_then fun new => returns_pure ⟨rfl, fun _ => .classInfo new⟩
  | .nested type elements => by
    rw [element]
    refine returns_then fun _ => returns_then fun _ =>
      returns_bind (returns_namedElements elements) fun new hnew =>
        returns_then fun newType => returns_pure ⟨?_, fun hvalid => ?_⟩
    · rw [ElementValue.frame, ElementValue.frame, hnew.1]
    · cases hvalid with
      | nested _ h => exact .nested newType (hnew.2 h)
  | .array values => by
    rw [element]
    refine returns_bind (returns_elements values) fun new hnew =>
      returns_pure ⟨?_, fun hvalid => ?_⟩
    · rw [ElementValue.frame, ElementValue.frame, hnew.1]
    · cases hvalid with
      | array h => exact .array (hnew.2 h)

theorem returns_namedElements : ∀ es : List (Index × ElementValue),
    Returns (fun es' => ElementValue.frameElements es' = ElementValue.frameElements es ∧
      ((∀ e ∈ es, e.2.Valid) → ∀ e ∈ es', e.2.Valid)) (r.namedElements es)
  | [] => by
    rw [namedElements]
    exact returns_pure ⟨rfl, by simp⟩
  | (name, value) :: rest => by
    rw [namedElements]
    refine returns_bind (returns_element value) fun new hnew =>
      returns_bind (returns_namedElements rest) fun others hothers =>
        returns_pure ⟨?_, fun hvalid => ?_⟩
    · rw [ElementValue.frameElements, ElementValue.frameElements, hnew.1, hothers.1]
    · rw [List.forall_mem_cons] at hvalid ⊢
      exact ⟨hnew.2 hvalid.1, hothers.2 hvalid.2⟩

theorem returns_elements : ∀ vs : List ElementValue,
    Returns (fun ws => ElementValue.frameValues ws = ElementValue.frameValues vs ∧
      ((∀ v ∈ vs, v.Valid) → ∀ w ∈ ws, w.Valid)) (r.elements vs)
  | [] => by
    rw [elements]
    exact returns_pure ⟨rfl, by simp⟩
  | value :: rest => by
    rw [elements]
    refine returns_bind (returns_element value) fun new hnew =>
      returns_bind (returns_elements rest) fun others hothers =>
        returns_pure ⟨?_, fun hvalid => ?_⟩
    · rw [ElementValue.frameValues, ElementValue.frameValues, hnew.1, hothers.1]
    · rw [List.forall_mem_cons] at hvalid ⊢
      exact ⟨hnew.2 hvalid.1, hothers.2 hvalid.2⟩

end

theorem returns_annotationRow (a : Annotation) :
    Returns (fun b => b.frame = a.frame ∧ (a.Valid → b.Valid)) (r.annotationRow a) :=
  returns_then fun _ => returns_then fun _ =>
    returns_bind (r.returns_namedElements a.elements) fun new hnew =>
      returns_then fun type => returns_pure
        ⟨by rw [ Annotation.frame, Annotation.frame, hnew.1], hnew.2⟩

/-- A table whose rows keep their frames. -/
theorem returns_rows {α : Type} {P : α → Prop} {frame : α → α} {f : α → PoolM α}
    (hf : ∀ a, Returns (fun b => frame b = frame a ∧ (P a → P b)) (f a)) (as : List α) :
    Returns (fun bs => bs.map frame = as.map frame ∧ ((∀ a ∈ as, P a) → ∀ b ∈ bs, P b))
      (as.mapM f) := by
  induction as with
  | nil => exact returns_pure ⟨rfl, by simp⟩
  | cons a as ih =>
    rw [List.mapM_cons]
    refine returns_bind (hf a) fun b hb => returns_bind ih fun bs hbs =>
      returns_pure ⟨?_, fun hvalid => ?_⟩
    · rw [List.map_cons, List.map_cons, hb.1, hbs.1]
    · rw [List.forall_mem_cons] at hvalid ⊢
      exact ⟨hb.2 hvalid.1, hbs.2 hvalid.2⟩

/-! ## Payloads -/

/-- A payload that is relabelled can be read again. -/
theorem returns_payload {α : Type} {codec : Codec α} {P : α → Prop} {R : α → α → Prop}
    {relabel : α → PoolM α} (hread : Returns P codec.read) (hcodec : codec.FaithfulOn P)
    (hrelabel : ∀ a, Returns (fun b => R a b ∧ (P a → P b)) (relabel a)) (bs : Bytes) :
    Returns (SamePayload codec R bs) (payload codec relabel bs) := by
  refine returns_bind (returns_lift _) fun a ha => returns_bind (hrelabel a) fun b hb => ?_
  refine returns_imp (returns_lift _) fun new hnew => ?_
  have hvalid := hb.2 (Reader.of_all_eq_ok hread ha)
  exact ⟨a, b, ha, hcodec.decode_eq_ok hvalid hnew, hb.1⟩

/-- An attribute whose payload alone is relabelled. -/
theorem returns_via {α : Type} {codec : Codec α} {relabel : α → PoolM α} {a : Attribute}
    {R : String → Bytes → Bytes → Prop} {name : String} (hname : r.source.text a.name = .ok name)
    (h : Returns (R name a.payload) (payload codec relabel a.payload)) :
    Returns (Attribute.Kept r.source R a)
      (do return { a with payload := ← payload codec relabel a.payload } : PoolM Attribute) :=
  returns_bind h fun _ hnew => returns_pure ⟨rfl, name, hname, hnew⟩

theorem returns_signaturePayload (bs : Bytes) :
    Returns (SamePayload Codec.u16 (fun _ _ => True) bs) (payload Codec.u16 r.signature bs) :=
  returns_payload (returns_any _) faithful_u16.faithfulOn
    (fun _ => returns_imp (returns_any _) fun _ _ => ⟨trivial, id⟩) bs

theorem returns_annotationsPayload (bs : Bytes) :
    Returns (SamePayload Annotation.tableCodec
        (fun as bs => bs.map Annotation.frame = as.map Annotation.frame) bs)
      (payload Annotation.tableCodec (fun as => as.mapM r.annotationRow) bs) :=
  returns_payload Annotation.returns_valid_tableCodec Annotation.faithfulOn_tableCodec
    (returns_rows r.returns_annotationRow) bs

theorem returns_parametersPayload (bs : Bytes) :
    Returns (SamePayload Annotation.parameterCodec
        (fun ps qs => qs.map (List.map Annotation.frame) = ps.map (List.map Annotation.frame)) bs)
      (payload Annotation.parameterCodec (fun ps => ps.mapM fun as => as.mapM r.annotationRow)
        bs) :=
  returns_payload Annotation.returns_valid_parameterCodec Annotation.faithfulOn_parameterCodec
    (returns_rows (returns_rows r.returns_annotationRow)) bs

theorem returns_defaultPayload (bs : Bytes) :
    Returns (SamePayload ElementValue.codec (fun v w => w.frame = v.frame) bs)
      (payload ElementValue.codec r.element bs) :=
  returns_payload ElementValue.returns_valid_read ElementValue.faithfulOn_codec
    r.returns_element bs

theorem returns_declared (a : Attribute) :
    Returns (Attribute.Kept r.source KeptDeclared a) (r.declared a) := by
  refine returns_bind (returns_lift _) fun name hname => ?_
  split
  · exact r.returns_via hname (r.returns_signaturePayload a.payload)
  · exact r.returns_via hname (r.returns_annotationsPayload a.payload)
  · exact r.returns_via hname (r.returns_annotationsPayload a.payload)
  · exact r.returns_via hname (r.returns_parametersPayload a.payload)
  · exact r.returns_via hname (r.returns_parametersPayload a.payload)
  · exact r.returns_via hname (r.returns_defaultPayload a.payload)
  · refine returns_pure ⟨rfl, name, hname, ?_⟩
    unfold KeptDeclared
    split <;> first | rfl | contradiction

theorem returns_innerClass (row : InnerClassRow) :
    Returns (fun new => new.frame = row.frame ∧ (True → True)) (r.innerClass row) := by
  unfold innerClass
  by_cases h : row.name = 0
  · simp only [if_pos h]
    exact returns_pure ⟨rfl, id⟩
  · simp only [if_neg h]
    exact returns_then fun _ => returns_then fun _ => returns_then fun _ => returns_pure ⟨rfl, id⟩

theorem returns_enclosingMethod (e : EnclosingMethod) :
    Returns (fun new => new.frame = e.frame ∧ (True → True)) (r.enclosingMethod e) := by
  unfold enclosingMethod
  by_cases h : e.method = 0
  · simp only [if_pos h]
    exact returns_pure ⟨rfl, id⟩
  · simp only [if_neg h]
    exact returns_then fun _ => returns_then fun _ => returns_then fun _ => returns_then fun _ =>
      returns_pure ⟨rfl, id⟩

theorem returns_component (c : RecordComponent) :
    Returns (RecordComponent.Kept r.source c) (r.component c) :=
  returns_then fun _ => returns_then fun _ => returns_then fun _ => returns_then fun _ =>
    returns_then fun _ => returns_bind (returns_mapM r.returns_declared _) fun _ hattributes =>
      returns_pure hattributes

theorem returns_classAttribute (a : Attribute) :
    Returns (Attribute.Kept r.source (KeptOnClass r.source) a) (r.classAttribute a) := by
  refine returns_bind (returns_lift _) fun name hname => ?_
  split
  · refine r.returns_via hname (returns_payload (returns_any _)
      InnerClassRow.faithful_tableCodec.faithfulOn (fun rows => ?_) a.payload)
    exact returns_imp (returns_rows r.returns_innerClass rows) fun _ h => ⟨h.1, id⟩
  · exact r.returns_via hname (returns_payload (returns_any _)
      EnclosingMethod.faithful_codec.faithfulOn r.returns_enclosingMethod a.payload)
  · refine r.returns_via hname (returns_payload (returns_any _)
      RecordComponent.faithful_tableCodec.faithfulOn (fun components => ?_) a.payload)
    exact returns_imp (returns_mapM r.returns_component components) fun _ h => ⟨h, id⟩
  · refine returns_imp (r.returns_declared a) fun b hb => hb.imp hname fun old new h => ?_
    unfold KeptOnClass
    split <;> first | exact h | contradiction

/-! ## Method bodies -/

theorem returns_variableRow (names : List (UInt16 × String)) (row : LocalRow) :
    Returns (fun new => new.frame = row.frame ∧ (True → True)) (r.variableRow names row) := by
  refine returns_then fun type => ?_
  split
  · exact returns_pure ⟨rfl, id⟩
  · exact returns_then fun _ => returns_pure ⟨rfl, id⟩

theorem returns_typeRow (named : List LocalRow) (row : LocalRow) :
    Returns (fun new => new.frame = row.frame ∧ (True → True)) (r.typeRow named row) :=
  returns_then fun _ => returns_pure ⟨rfl, id⟩

/-- The same as `RelatedInBody` for attributes that are taken apart. -/
inductive RelatedTables (V T : List LocalRow → List LocalRow → Prop) :
    BodyAttribute → BodyAttribute → Prop
  | locals (name : Index) {rows rows' : List LocalRow} (h : V rows rows') :
      RelatedTables V T (.locals name rows) (.locals name rows')
  | localTypes (name : Index) {rows rows' : List LocalRow} (h : T rows rows') :
      RelatedTables V T (.localTypes name rows) (.localTypes name rows')
  | other (a : Attribute) : RelatedTables V T (.other a) (.other a)

/-- An attribute that is taken apart, relabelled and put together again. -/
theorem related_of_tables {V T : List LocalRow → List LocalRow → Prop} {a b : Attribute}
    {old new : BodyAttribute} (hold : r.bodyAttribute a = .ok old)
    (hrelated : RelatedTables V T old new) (hnew : new.toAttribute = .ok b) :
    Attribute.Kept r.source (RelatedInBody V T) a b := by
  obtain ⟨name, hname, hold⟩ := Except.bind_eq_ok.mp hold
  split at hold
  · obtain ⟨rows, hrows, hold⟩ := Except.bind_eq_ok.mp hold
    obtain rfl := Except.pure_eq_ok.mp hold
    cases hrelated with
    | @locals _ _ rows' h =>
      obtain ⟨bs, hbs, hnew⟩ := Except.bind_eq_ok.mp hnew
      obtain rfl := Except.pure_eq_ok.mp hnew
      exact ⟨rfl, _, hname, rows, rows', hrows,
        LocalRow.faithful_tableCodec.faithfulOn.decode_eq_ok trivial hbs, h⟩
  · obtain ⟨rows, hrows, hold⟩ := Except.bind_eq_ok.mp hold
    obtain rfl := Except.pure_eq_ok.mp hold
    cases hrelated with
    | @localTypes _ _ rows' h =>
      obtain ⟨bs, hbs, hnew⟩ := Except.bind_eq_ok.mp hnew
      obtain rfl := Except.pure_eq_ok.mp hnew
      exact ⟨rfl, _, hname, rows, rows', hrows,
        LocalRow.faithful_tableCodec.faithfulOn.decode_eq_ok trivial hbs, h⟩
  · obtain rfl := Except.pure_eq_ok.mp hold
    cases hrelated with
    | other =>
      obtain rfl := Except.ok.inj hnew
      refine ⟨rfl, name, hname, ?_⟩
      unfold RelatedInBody
      split <;> first | rfl | contradiction

/-- Rows with equal frames, one by one. -/
def SameFrames (rows rows' : List LocalRow) : Prop :=
  rows'.map LocalRow.frame = rows.map LocalRow.frame

theorem returns_variableTable (names : List (UInt16 × String)) (a : BodyAttribute) :
    Returns (RelatedTables SameFrames Eq a) (r.variableTable names a) := by
  cases a with
  | locals name rows =>
    exact returns_bind (returns_rows (r.returns_variableRow names) rows) fun new hnew =>
      returns_pure (.locals name hnew.1)
  | localTypes name rows => exact returns_pure (.localTypes name rfl)
  | other a => exact returns_pure (.other a)

theorem returns_typeTable (named : List LocalRow) (a : BodyAttribute) :
    Returns (RelatedTables Eq SameFrames a) (r.typeTable named a) := by
  cases a with
  | locals name rows => exact returns_pure (.locals name rfl)
  | localTypes name rows =>
    exact returns_bind (returns_rows (r.returns_typeRow named) rows) fun new hnew =>
      returns_pure (.localTypes name hnew.1)
  | other a => exact returns_pure (.other a)

/-- First the tables of variables, then those of generic types. -/
theorem RelatedTables.trans {V T : List LocalRow → List LocalRow → Prop} {a b c : BodyAttribute}
    (h : RelatedTables V Eq a b) (h' : RelatedTables Eq T b c) : RelatedTables V T a c := by
  cases h with
  | locals name h =>
    cases h' with
    | locals _ h' => exact .locals name (h' ▸ h)
  | localTypes name h =>
    cases h' with
    | localTypes _ h' => exact .localTypes name (h ▸ h')
  | other a =>
    cases h' with
    | other => exact .other a

theorem returns_code (m : NamedMethod) (c : Code) (used : UsedNames) :
    Returns (fun new => Code.Kept r.source c new.1) (r.code m c used) := by
  refine returns_bind (returns_mapM (fun a => returns_lift (r.bodyAttribute a)) _)
    fun bodies hbodies => returns_then fun candidates => returns_then fun assigned => ?_
  refine returns_bind (returns_mapM (r.returns_variableTable _) _) fun named hnamed => ?_
  refine returns_bind (returns_mapM (r.returns_typeTable _) _) fun typed htyped => ?_
  refine returns_bind (returns_mapM (fun a : BodyAttribute => returns_lift a.toAttribute) _)
    fun attributes hattributes => returns_pure ⟨rfl, rfl, rfl, rfl, ?_⟩
  have hsteps := List.forall₂_comp hbodies (List.forall₂_comp hnamed (List.forall₂_comp htyped
    hattributes))
  refine hsteps.imp fun a b hab => ?_
  obtain ⟨old, hold, variables', hvariables, new, htypes, hnew⟩ := hab
  obtain ⟨hsame, name, hname, h⟩ := r.related_of_tables hold (hvariables.trans htypes) hnew
  refine ⟨hsame, name, hname, ?_⟩
  unfold RelatedInBody at h
  unfold KeptInBody
  split at h <;> exact h

theorem returns_methodAttributes (m : NamedMethod) (as : List Attribute) (used : UsedNames) :
    Returns (List.Forall₂ (Attribute.Kept r.source (KeptOnMethod r.source)) as)
      (r.methodAttributes m as used) := by
  induction as generalizing used with
  | nil => exact returns_pure .nil
  | cons a rest ih =>
    refine returns_bind (returns_lift _) fun name hname => ?_
    split
    · rename_i hcode
      subst hcode
      refine returns_bind (returns_lift _) fun old hold => returns_bind (r.returns_code m old used)
        fun new hnew => returns_bind (returns_lift _) fun bs hbs => ?_
      refine returns_bind (ih new.2) fun others hothers => returns_pure (.cons ?_ hothers)
      exact ⟨rfl, _, hname, old, new.1, hold,
        Code.faithful_codec.faithfulOn.decode_eq_ok trivial hbs, hnew⟩
    · rename_i hcode
      refine returns_bind (r.returns_declared a) fun b hb => returns_bind (ih used)
        fun others hothers => returns_pure (.cons (hb.imp hname fun old new h => ?_) hothers)
      unfold KeptOnMethod
      split
      · exact absurd rfl hcode
      · exact h

theorem returns_field (f : Member) :
    Returns (Member.Kept r.source KeptDeclared f) (r.field f) :=
  returns_then fun _ => returns_then fun _ => returns_then fun _ => returns_then fun _ =>
    returns_then fun _ => returns_bind (returns_mapM r.returns_declared _) fun _ hattributes =>
      returns_pure ⟨rfl, hattributes⟩

theorem returns_method (m : Member) :
    Returns (fun new => Member.Kept r.source (KeptOnMethod r.source) m new.1) (r.method m) := by
  refine returns_then fun _ => returns_then fun _ => returns_then fun _ => returns_then fun _ => ?_
  split <;>
    exact returns_then fun _ => returns_bind (r.returns_methodAttributes _ _ _)
      fun _ hattributes => returns_then fun _ => returns_then fun _ =>
        returns_pure ⟨rfl, hattributes⟩

end Relabelling

namespace ClassFile

open Relabelling

/-- A run that succeeds writes a class that differs in names only. -/
theorem kept_of_relabel {bs : Bytes} {c : ClassFile} {m : Mappings} {d : Option Dictionary}
    {out : RelabelledClass} (hparse : parse bs = .ok c) (h : c.relabel m d = .ok out) :
    ∃ new, parse out.bytes = .ok new ∧ c.Kept new := by
  obtain ⟨r, new, hr, -, hnew, hrelabelled⟩ :=
    relabelled_of_relabel (storable_of_parse hparse) h
  have hsource := hrelabelled.source
  have hunderway := hrelabelled.underway
  refine ⟨new, hnew, ?_, ?_, ?_, hrelabelled.version, hrelabelled.access, hrelabelled.thisClass,
    hrelabelled.superClass, hrelabelled.interfaces, ?_, ?_, ?_⟩
  · rw [← hsource]
    exact hunderway.revises.size_le
  · rw [← hsource]
    exact hunderway.revises
  · rw [← hsource]
    exact hunderway.adds
  · rw [← hsource]
    exact hrelabelled.fields.imp fun f f' hmade => hmade.returns (r.returns_field f)
  · rw [← hsource]
    exact hrelabelled.methods.imp fun f f' ⟨report, hmade⟩ => hmade.returns (r.returns_method f)
  · rw [← hsource]
    exact hrelabelled.attributes.imp fun a a' hmade => hmade.returns (r.returns_classAttribute a)

theorem kept_of_relabel_localRecord :
    parse (LocalRecord.bytesOf LocalRecord.classFile) = .ok LocalRecord.classFile ∧
      LocalRecord.classFile.relabel LocalRecord.mappings none = .ok LocalRecord.relabelled ∧
      ∃ new, parse LocalRecord.relabelled.bytes = .ok new ∧ LocalRecord.classFile.Kept new :=
  ⟨LocalRecord.parse_bytes, LocalRecord.relabel_classFile,
    kept_of_relabel LocalRecord.parse_bytes LocalRecord.relabel_classFile⟩

end ClassFile
end ClassRelabel
