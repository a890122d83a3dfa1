/-
Relabelling by the same names changes nothing.

With mappings that give everything the name it has, and no dictionary, no index is pointed at a new
name and no name of a parameter is made up: every step of `Relabelling.parts` returns what it was
given and leaves the pool as it was.  What is read is therefore written again, and the theorem this
file exists for is `unchanged_of_relabel`: the bytes are the same.

Two things have to be asked of the class.  Its texts are spelled the way they are written, and the
simple names of its nested classes are those that their names give (`InnerClassRow.Recorded`).
-/
import ClassRelabel.Proofs.Attribute.Payload
import ClassRelabel.Proofs.ClassFile.Canonical
import ClassRelabel.Proofs.Naming.Identity
import ClassRelabel.Proofs.Naming.Used
import ClassRelabel.Proofs.Relabel.Class

namespace ClassRelabel

open EStateM Codec

/-- The simple name of a nested class is what follows the last `$` of its name, without digits in
front.  A class without a name and one whose name has no `$` may have any. -/
def InnerClassRow.Recorded (p : Pool) (row : InnerClassRow) : Prop :=
  row.name ≠ 0 → ∀ inner simple, p.className row.inner = .ok inner →
    p.text row.name = .ok simple →
      ∀ outer last : List Char, inner.toList = outer ++ '$' :: last → '$' ∉ last →
        simple = String.ofList (last.dropWhile fun c => '0' ≤ c && c ≤ '9')

namespace Relabelling

variable {r : Relabelling}

/-! ## Indices -/

theorem leaves_redirect {i : Index} {s : String} (h : r.source.text i = .ok s) :
    Leaves i (r.redirect i s) := by
  refine leaves_lift fun t ht => ?_
  rw [if_pos (Except.ok.inj (ht.symm.trans h))]
  exact leaves_pure i

theorem leaves_redirectPair {i : Index} {t : NamedType} (h : r.source.namedType i = .ok t) :
    Leaves i (r.redirectPair i t) := by
  refine leaves_lift fun u hu => ?_
  rw [if_pos (Except.ok.inj (hu.symm.trans h))]
  exact leaves_pure i

/-- A text that is looked up, renamed to itself and pointed at again. -/
theorem leaves_respelled {rename : String → Except Fault String}
    (h : ∀ old new, rename old = .ok new → new = old) (i : Index) :
    Leaves i (do r.redirect i (← rename (← r.source.text i)) : PoolM Index) :=
  leaves_lift fun old hold => leaves_lift fun new hnew => by
    rw [h old new hnew]
    exact leaves_redirect hold

/-- A payload is written as it was read. -/
theorem leaves_payload {α : Type} {codec : Codec α} {relabel : α → PoolM α}
    (hcodec : codec.Exact) {bs : Bytes}
    (h : ∀ a, codec.decode bs = .ok a → Leaves a (relabel a)) :
    Leaves bs (payload codec relabel bs) :=
  leaves_lift fun a ha => leaves_bind (h a ha) (leaves_look (Reader.of_all_takes hcodec ha).2)

/-- An attribute whose payload alone is relabelled. -/
theorem leaves_via {α : Type} {codec : Codec α} {relabel : α → PoolM α} (hcodec : codec.Exact)
    {a : Attribute} (h : ∀ x, codec.decode a.payload = .ok x → Leaves x (relabel x)) :
    Leaves a (do return { a with payload := ← payload codec relabel a.payload } :
      PoolM Attribute) :=
  leaves_bind (leaves_payload hcodec h) (leaves_pure a)

section Names

variable (hm : r.mappings.IsIdentity)

include hm

/-! ## Constants -/

theorem memberType_eq {kind : MemberKind} {owner : String} {old new : NamedType}
    (h : r.memberType kind owner old = .ok new) : new = old := by
  cases kind with
  | field =>
    obtain ⟨descriptor, hdescriptor, h⟩ := Except.bind_eq_ok.mp h
    rw [← Except.pure_eq_ok.mp h, hm.renameField, hm.renameDescriptor hdescriptor]
  | method | interfaceMethod =>
    obtain ⟨descriptor, hdescriptor, h⟩ := Except.bind_eq_ok.mp h
    rw [← Except.pure_eq_ok.mp h, hm.renameMethod, hm.renameMethodType hdescriptor]

theorem lambdaName_eq {factory : LambdaFactory} {b : BootstrapRow} {site : NamedType}
    {name : String} (h : r.lambdaName factory b site = .ok name) : name = site.name := by
  obtain ⟨t, -, h⟩ := Except.bind_eq_ok.mp h
  split at h
  · split at h
    · obtain ⟨c, -, h⟩ := Except.bind_eq_ok.mp h
      split at h
      · obtain ⟨descriptor, -, h⟩ := Except.bind_eq_ok.mp h
        rw [← Except.pure_eq_ok.mp h, hm.renameMethod]
      · simp at h
    · simp at h
  · simp at h

theorem callSiteName_eq {bootstrap : UInt16} {site : NamedType} {name : String}
    (h : r.callSiteName bootstrap site = .ok name) : name = site.name := by
  unfold callSiteName at h
  split at h
  · simp at h
  · obtain ⟨found, -, h⟩ := Except.bind_eq_ok.mp h
    split at h
    · exact (Except.pure_eq_ok.mp h).symm
    · exact lambdaName_eq hm h

theorem leaves_constant (c : Constant) : Leaves c (r.constant c) := by
  cases c with
  | classRef name =>
    refine leaves_lift fun s hs => ?_
    rw [hm.renameClass]
    exact leaves_bind (leaves_redirect hs) (leaves_pure _)
  | member kind owner pair =>
    refine leaves_lift fun _ _ => leaves_lift fun old hold => leaves_lift fun new hnew => ?_
    rw [memberType_eq hm hnew]
    exact leaves_bind (leaves_redirectPair hold) (leaves_pure _)
  | methodType descriptor =>
    refine leaves_lift fun old hold => leaves_lift fun new hnew => ?_
    rw [hm.renameMethodType hnew]
    exact leaves_bind (leaves_redirect hold) (leaves_pure _)
  | dynamic bootstrap pair =>
    refine leaves_lift fun old hold => leaves_lift fun new hnew => ?_
    rw [hm.renameDescriptor hnew]
    exact leaves_bind (leaves_redirectPair hold) (leaves_pure _)
  | invokeDynamic bootstrap pair =>
    refine leaves_lift fun old hold => leaves_lift fun name hname => leaves_lift fun new hnew => ?_
    rw [callSiteName_eq hm hname, hm.renameMethodType hnew]
    exact leaves_bind (leaves_redirectPair hold) (leaves_pure _)
  | _ => exact leaves_pure _

theorem leaves_constants : Leaves ⟨⟩ r.constants := by
  refine leaves_forM (fun (i, old) => leaves_bind (leaves_constant hm old) ?_) _
  rw [if_pos rfl]
  exact leaves_pure _

/-! ## Attributes -/

theorem leaves_descriptor (i : Index) : Leaves i (r.descriptor i) :=
  leaves_respelled (fun _ _ => hm.renameDescriptor) i

theorem leaves_resultDescriptor (i : Index) : Leaves i (r.resultDescriptor i) :=
  leaves_respelled (fun _ _ => hm.renameResult) i

theorem leaves_signature (i : Index) : Leaves i (r.signature i) :=
  leaves_respelled (fun _ _ => hm.renameSignature) i

omit hm

mutual

theorem leaves_element (hm : r.mappings.IsIdentity) :
    ∀ value : ElementValue, Leaves value (r.element value)
  | .const tag value => by
    rw [element]
    exact leaves_pure _
  | .enum type name => by
    rw [element]
    exact leaves_bind (leaves_descriptor hm type) (leaves_pure _)
  | .classInfo type => by
    rw [element]
    exact leaves_bind (leaves_resultDescriptor hm type) (leaves_pure _)
  | .nested type values => by
    rw [element]
    refine leaves_lift fun old hold => leaves_lift fun new hnew => ?_
    rw [hm.renameDescriptor hnew]
    exact leaves_bind (leaves_namedElements hm values)
      (leaves_bind (leaves_redirect hold) (leaves_pure _))
  | .array values => by
    rw [element]
    exact leaves_bind (leaves_elements hm values) (leaves_pure _)

theorem leaves_namedElements (hm : r.mappings.IsIdentity) :
    ∀ values : List (Index × ElementValue), Leaves values (r.namedElements values)
  | [] => by
    rw [namedElements]
    exact leaves_pure _
  | (name, value) :: rest => by
    rw [namedElements]
    exact leaves_bind (leaves_element hm value)
      (leaves_bind (leaves_namedElements hm rest) (leaves_pure _))

theorem leaves_elements (hm : r.mappings.IsIdentity) :
    ∀ values : List ElementValue, Leaves values (r.elements values)
  | [] => by
    rw [elements]
    exact leaves_pure _
  | value :: rest => by
    rw [elements]
    exact leaves_bind (leaves_element hm value)
      (leaves_bind (leaves_elements hm rest) (leaves_pure _))

end

include hm

theorem leaves_annotationRow (a : Annotation) : Leaves a (r.annotationRow a) := by
  refine leaves_lift fun old hold => leaves_lift fun new hnew => ?_
  rw [hm.renameDescriptor hnew]
  exact leaves_bind (leaves_namedElements hm a.elements)
    (leaves_bind (leaves_redirect hold) (leaves_pure a))

theorem leaves_annotations (as : List Annotation) : Leaves as (as.mapM r.annotationRow) :=
  leaves_mapM fun a _ => leaves_annotationRow hm a

theorem leaves_declared (a : Attribute) : Leaves a (r.declared a) := by
  refine leaves_lift fun name _ => ?_
  split
  · exact leaves_via exact_u16 fun i _ => leaves_signature hm i
  · exact leaves_via Annotation.exact_tableCodec fun as _ => leaves_annotations hm as
  · exact leaves_via Annotation.exact_tableCodec fun as _ => leaves_annotations hm as
  · exact leaves_via Annotation.exact_parameterCodec fun ps _ =>
      leaves_mapM fun as _ => leaves_annotations hm as
  · exact leaves_via Annotation.exact_parameterCodec fun ps _ =>
      leaves_mapM fun as _ => leaves_annotations hm as
  · exact leaves_via ElementValue.exact_codec fun v _ => leaves_element hm v
  · exact leaves_pure a

theorem leaves_innerClass {row : InnerClassRow} (hrow : row.Recorded r.source) :
    Leaves row (r.innerClass row) := by
  unfold innerClass
  by_cases h : row.name = 0
  · simp only [if_pos h]
    exact leaves_pure row
  · simp only [if_neg h]
    refine leaves_lift fun inner hinner => leaves_lift fun simple hsimple => ?_
    rw [hm.renameSimple (hrow h inner simple hinner hsimple)]
    exact leaves_bind (leaves_redirect hsimple) (leaves_pure row)

theorem leaves_enclosingMethod (e : EnclosingMethod) : Leaves e (r.enclosingMethod e) := by
  unfold enclosingMethod
  by_cases h : e.method = 0
  · simp only [if_pos h]
    exact leaves_pure e
  · simp only [if_neg h]
    refine leaves_lift fun _ _ => leaves_lift fun old hold => leaves_lift fun new hnew => ?_
    rw [memberType_eq hm hnew]
    exact leaves_bind (leaves_redirectPair hold) (leaves_pure e)

theorem leaves_component (c : RecordComponent) : Leaves c (r.component c) := by
  refine leaves_lift fun name hname => leaves_lift fun descriptor hdescriptor =>
    leaves_lift fun new hnew => ?_
  rw [memberType_eq hm hnew]
  exact leaves_bind (leaves_redirect hname) (leaves_bind (leaves_redirect hdescriptor)
    (leaves_bind (leaves_mapM fun a _ => leaves_declared hm a) (leaves_pure c)))

theorem leaves_classAttribute {a : Attribute}
    (ha : r.source.text a.name = .ok "InnerClasses" → ∀ rows,
      InnerClassRow.tableCodec.decode a.payload = .ok rows → ∀ row ∈ rows, row.Recorded r.source) :
    Leaves a (r.classAttribute a) := by
  refine leaves_lift fun name hname => ?_
  split
  · exact leaves_via (exact_table InnerClassRow.exact_codec) fun rows hrows =>
      leaves_mapM fun row hrow => leaves_innerClass hm (ha hname rows hrows row hrow)
  · exact leaves_via EnclosingMethod.exact_codec fun e _ => leaves_enclosingMethod hm e
  · exact leaves_via (exact_table RecordComponent.exact_codec) fun cs _ =>
      leaves_mapM fun c _ => leaves_component hm c
  · exact leaves_declared hm a

/-! ## Fields -/

theorem leaves_field (f : Member) : Leaves f (r.field f) := by
  refine leaves_lift fun name hname => leaves_lift fun descriptor hdescriptor =>
    leaves_lift fun new hnew => ?_
  rw [memberType_eq hm hnew]
  exact leaves_bind (leaves_redirect hname) (leaves_bind (leaves_redirect hdescriptor)
    (leaves_bind (leaves_mapM fun a _ => leaves_declared hm a) (leaves_pure f)))

/-! ## Parameters

Nothing names a parameter, so none is given a name and none is reported. -/

theorem mappedName?_eq (m : NamedMethod) (c : Candidate) : r.mappedName? m c = none :=
  hm.parameter? _ _ _

theorem leaves_reserveMapped (m : NamedMethod) (cs : List Candidate) :
    Leaves ⟨⟩ (r.reserveMapped m cs) := by
  induction cs with
  | nil => exact leaves_pure _
  | cons c cs ih =>
    rw [reserveMapped, mappedName?_eq hm]
    exact ih

variable (hd : r.dictionary = none)

include hd

theorem leaves_nameOne (m : NamedMethod) (c : Candidate) : Leaves none (r.nameOne m c) := by
  rw [nameOne, mappedName?_eq hm, hd]
  exact leaves_pure none

theorem leaves_assign (m : NamedMethod) (cs : List Candidate) :
    Leaves (cs.map fun _ => none) (r.assign m cs) :=
  leaves_bind (leaves_reserveMapped hm m cs) (leaves_mapM_of_forall₂
    (List.forall₂_map_left_iff.mpr (List.forall₂_same.mpr fun c _ => leaves_nameOne hm hd m c)))

theorem leaves_parameterNames? (m : NamedMethod) (new : NamedType) :
    Leaves none (r.parameterNames? m new) := by
  unfold parameterNames?
  dsimp only
  split
  · exact leaves_pure none
  · refine leaves_bind (leaves_assign hm hd m _) ?_
    rw [if_pos (by simp [hd])]
    exact leaves_pure none

/-! ## Methods -/

omit hd

theorem leaves_variableRow (row : LocalRow) : Leaves row (r.variableRow [] row) := by
  refine leaves_bind (leaves_descriptor hm row.descriptor) ?_
  have hnone : assigned? [] row = none := by simp [assigned?]
  rw [hnone]
  exact leaves_pure row

theorem leaves_typeRow (row : LocalRow) : Leaves row (r.typeRow [] row) :=
  leaves_bind (leaves_signature hm row.descriptor) (leaves_pure row)

theorem leaves_variableTable (a : BodyAttribute) : Leaves a (r.variableTable [] a) := by
  cases a with
  | locals name rows =>
    exact leaves_bind (leaves_mapM fun row _ => leaves_variableRow hm row) (leaves_pure _)
  | localTypes name rows => exact leaves_pure _
  | other a => exact leaves_pure _

theorem leaves_typeTable (a : BodyAttribute) : Leaves a (r.typeTable [] a) := by
  cases a with
  | locals name rows => exact leaves_pure _
  | localTypes name rows =>
    exact leaves_bind (leaves_mapM fun row _ => leaves_typeRow hm row) (leaves_pure _)
  | other a => exact leaves_pure _

omit hm

/-- An attribute that is taken apart and put together again. -/
theorem toAttribute_of_bodyAttribute {a : Attribute} {body : BodyAttribute}
    (h : r.bodyAttribute a = .ok body) : body.toAttribute = .ok a := by
  have hwrite : ∀ rows, LocalRow.tableCodec.decode a.payload = .ok rows →
      LocalRow.tableCodec.write rows = .ok a.payload := fun rows hrows =>
    (Reader.of_all_takes (exact_table LocalRow.exact_codec) hrows).2
  obtain ⟨name, -, h⟩ := Except.bind_eq_ok.mp h
  split at h
  · obtain ⟨rows, hrows, h⟩ := Except.bind_eq_ok.mp h
    obtain rfl := Except.pure_eq_ok.mp h
    exact Except.bind_eq_ok.mpr ⟨_, hwrite rows hrows, rfl⟩
  · obtain ⟨rows, hrows, h⟩ := Except.bind_eq_ok.mp h
    obtain rfl := Except.pure_eq_ok.mp h
    exact Except.bind_eq_ok.mpr ⟨_, hwrite rows hrows, rfl⟩
  · obtain rfl := Except.pure_eq_ok.mp h
    rfl

/-- Candidates without names name no slot. -/
theorem filterMap_zip_none (cs : List Candidate) :
    (cs.zip (cs.map fun _ => (none : Option String))).filterMap
      (fun (c, name) => name.map (c.slot, ·)) = [] := by
  rw [List.filterMap_eq_nil_iff]
  rintro ⟨c, name⟩ hmem
  obtain ⟨_, -, rfl⟩ := List.mem_map.mp (List.of_mem_zip hmem).2
  rfl

include hm hd

theorem leaves_code (m : NamedMethod) (c : Code) (used : UsedNames) :
    Leaves (c, used) (r.code m c used) := by
  refine leaves_then (returns_mapM (fun a => returns_lift (r.bodyAttribute a)) c.attributes)
    (keeps_mapM (fun _ => keeps_lift _) _) fun bodies hbodies => leaves_lift fun candidates _ => ?_
  refine leaves_lift fun assigned hassigned => ?_
  obtain rfl := NamesM.eq_of_leaves (leaves_assign hm hd m candidates) hassigned
  dsimp only
  rw [filterMap_zip_none]
  have hnamed : ∀ rows : List LocalRow,
      (rows.filter fun row => (assigned? [] row).isSome) = [] := by
    intro rows
    rw [List.filter_eq_nil_iff]
    intro row _
    simp [assigned?]
  refine leaves_bind (leaves_mapM fun a _ => leaves_variableTable hm a) ?_
  rw [hnamed]
  refine leaves_bind (leaves_mapM fun a _ => leaves_typeTable hm a) ?_
  refine leaves_bind (a := c.attributes) (leaves_mapM_of_forall₂ ?_) (leaves_pure (c, used))
  exact hbodies.imp fun a body hbody => leaves_look (toAttribute_of_bodyAttribute hbody)

theorem leaves_methodAttributes (m : NamedMethod) (as : List Attribute) (used : UsedNames) :
    Leaves as (r.methodAttributes m as used) := by
  induction as generalizing used with
  | nil => exact leaves_pure []
  | cons a rest ih =>
    refine leaves_lift fun name _ => ?_
    split
    · refine leaves_lift fun code hcode => leaves_bind (leaves_code hm hd m code used) ?_
      refine leaves_bind (leaves_look (Reader.of_all_takes Code.exact_codec hcode).2) ?_
      exact leaves_bind (ih used) (leaves_pure _)
    · exact leaves_bind (leaves_declared hm a) (leaves_bind (ih used) (leaves_pure _))

theorem leaves_method (old : Member) : Leaves (old, none) (r.method old) := by
  refine leaves_lift fun name hname => leaves_lift fun descriptor hdescriptor =>
    leaves_lift fun new hnew => leaves_lift fun type _ => ?_
  have hnames : ∀ report : Option ParameterNames, Leaves (old, report) (do
      let nameIndex ← r.redirect old.name name
      let descriptorIndex ← r.redirect old.descriptor descriptor
      return (⟨old.access, nameIndex, descriptorIndex, old.attributes⟩, report)) := fun report =>
    leaves_bind (leaves_redirect hname) (leaves_bind (leaves_redirect hdescriptor)
      (leaves_pure (old, report)))
  rw [memberType_eq hm hnew]
  split
  · refine leaves_bind (leaves_pure (none, UsedNames.empty)) ?_
    exact leaves_bind (leaves_methodAttributes hm hd _ _ _) (hnames none)
  · refine leaves_lift fun named hnamed => ?_
    obtain rfl := NamesM.eq_of_leaves (leaves_parameterNames? hm hd _ _) hnamed
    exact leaves_bind (leaves_methodAttributes hm hd _ _ _) (hnames none)

/-- A class is returned as it is, with no name to report. -/
theorem leaves_parts {c : ClassFile}
    (hc : ∀ a ∈ c.attributes, r.source.text a.name = .ok "InnerClasses" → ∀ rows,
      InnerClassRow.tableCodec.decode a.payload = .ok rows →
        ∀ row ∈ rows, row.Recorded r.source) :
    Leaves (c, []) (r.parts c) := by
  have hmethods : Leaves (c.methods.map fun old => (old, none)) (c.methods.mapM r.method) :=
    leaves_mapM_of_forall₂ (List.forall₂_map_left_iff.mpr
      (List.forall₂_same.mpr fun old _ => leaves_method hm hd old))
  have hfirst : (c.methods.map fun old => (old, (none : Option ParameterNames))).map Prod.fst =
      c.methods := by rw [List.map_map, Function.comp_def, List.map_id']
  have hsecond : (c.methods.map fun old => (old, (none : Option ParameterNames))).filterMap
      Prod.snd = [] := by simp
  refine leaves_bind (leaves_constants hm) ?_
  refine leaves_bind (leaves_mapM fun f _ => leaves_field hm f) ?_
  refine leaves_bind hmethods ?_
  refine leaves_bind (leaves_mapM fun a ha => leaves_classAttribute hm (hc a ha)) ?_
  rw [hfirst, hsecond]
  exact leaves_pure _

end Names
end Relabelling

namespace ClassFile

open Relabelling

/-- The simple names of the classes that are nested in a class or around it. -/
def SimpleNamesRecorded (c : ClassFile) : Prop :=
  ∀ a ∈ c.attributes, c.pool.text a.name = .ok "InnerClasses" → ∀ rows,
    InnerClassRow.tableCodec.decode a.payload = .ok rows → ∀ row ∈ rows, row.Recorded c.pool

theorem relabelled_of_identity {c new : ClassFile} {m : Mappings} {reports : List ParameterNames}
    (hm : m.IsIdentity) (hc : c.SimpleNamesRecorded)
    (h : c.relabelled m none = .ok (new, reports)) : new = c ∧ reports = [] := by
  obtain ⟨r, hr, h⟩ := Except.bind_eq_ok.mp h
  have hdescribes := describes_of_relabelling hr
  have hparts : Leaves (c, []) (r.parts c) := by
    refine leaves_parts (hdescribes.mappings ▸ hm) hdescribes.dictionary ?_
    rw [hdescribes.source]
    exact hc
  split at h
  · rename_i made reports' pool hrun
    obtain ⟨rfl, rfl⟩ := Prod.mk.inj (Except.ok.inj h)
    obtain ⟨rfl, rfl⟩ := Prod.mk.inj (hparts.returns _ _ _ hrun)
    obtain rfl := hparts.keeps _ _ _ hrun
    exact ⟨rfl, rfl⟩
  · simp at h

/-- Mappings that give everything the name it has rewrite a class to the bytes it was read from.
The name of the class stays and no names of parameters are reported. -/
theorem unchanged_of_relabel {bs : Bytes} {c : ClassFile} {m : Mappings} {out : RelabelledClass}
    (hm : m.IsIdentity) (hparse : parse bs = .ok c)
    (hspelled : ∀ texts, spellings bs = .ok texts → ∀ text ∈ texts, ModifiedUtf8.Canonical text)
    (hrecorded : c.SimpleNamesRecorded) (h : relabelBytes bs m none = .ok out) :
    out.bytes = bs ∧ c.name = .ok out.formerName ∧ out.name = out.formerName ∧
      out.parameterNames = [] := by
  obtain ⟨c', hparse', h⟩ := Except.bind_eq_ok.mp h
  obtain rfl := Except.ok.inj (hparse.symm.trans hparse')
  obtain ⟨name, hname, h⟩ := Except.bind_eq_ok.mp h
  split at h
  · rename_i new hrelabel
    obtain rfl := Except.ok.inj h
    obtain ⟨owner, howner, hrelabel⟩ := Except.bind_eq_ok.mp hrelabel
    obtain ⟨⟨made, reports⟩, hmade, hrelabel⟩ := Except.bind_eq_ok.mp hrelabel
    obtain ⟨written, hwritten, hrelabel⟩ := Except.bind_eq_ok.mp hrelabel
    obtain rfl := Except.pure_eq_ok.mp hrelabel
    obtain ⟨rfl, rfl⟩ := relabelled_of_identity hm hrecorded hmade
    obtain ⟨texts, written', htexts, hencode, hrewritten⟩ :=
      (Reader.of_all_takes takes_read hparse).2
    obtain rfl := Except.ok.inj (hencode.symm.trans hwritten)
    exact ⟨hrewritten.eq_iff.mpr (hspelled texts htexts), howner, hm.renameClass owner, rfl⟩
  · simp at h

end ClassFile

/-! ## A local class

The class `A$1B` has the simple name `B` and a field `f` of its own type. -/

namespace LocalClass

def bytes : Bytes :=
  [0xCA, 0xFE, 0xBA, 0xBE, 0, 0, 0, 52, 0, 7, 1, 0, 4, 65, 36, 49, 66, 7, 0, 1, 1, 0, 1, 66, 1, 0,
    12, 73, 110, 110, 101, 114, 67, 108, 97, 115, 115, 101, 115, 1, 0, 1, 102, 1, 0, 6, 76, 65, 36,
    49, 66, 59, 0, 0, 0, 2, 0, 0, 0, 0, 0, 1, 0, 1, 0, 5, 0, 6, 0, 0, 0, 0, 0, 1, 0, 4, 0, 0, 0, 10,
    0, 1, 0, 2, 0, 0, 0, 3, 0, 0]

def pool : Pool where
  slots := #[.unusable, .utf8 "A$1B", .classRef 1, .utf8 "B", .utf8 "InnerClasses", .utf8 "f",
    .utf8 "LA$1B;"]
  texts := .ofList [("A$1B", 1), ("B", 3), ("InnerClasses", 4), ("f", 5), ("LA$1B;", 6)] compare
  classes := {(1, 2)}
  pairs := ∅

def nested : InnerClassRow := ⟨2, 0, 3, 0⟩

def classFile : ClassFile :=
  ⟨⟨52, 0⟩, pool, ⟨0⟩, 2, 0, [], [⟨⟨1⟩, 5, 6, []⟩], [], [⟨4, [0, 1, 0, 2, 0, 0, 0, 3, 0, 0]⟩]⟩

def texts : List Bytes :=
  [[65, 36, 49, 66], [66], [73, 110, 110, 101, 114, 67, 108, 97, 115, 115, 101, 115], [102],
    [76, 65, 36, 49, 66, 59]]

def mappings : Mappings :=
  (Mappings.empty.nameClass "A$1B" "A$1B").nameField "A$1B" "f" ⟨"f", none⟩

theorem isIdentity_mappings : mappings.IsIdentity :=
  (Mappings.isIdentity_empty.nameClass "A$1B").nameField "A$1B" "f" none

theorem recorded_nested : nested.Recorded pool := by
  intro _ inner simple hinner hsimple outer last hname hlast
  obtain rfl : "A$1B" = inner := Except.ok.inj hinner
  obtain rfl : "B" = simple := Except.ok.inj hsimple
  have hsplit : Text.splitLast? '$' "A$1B".toList = some (['A'], ['1', 'B']) := by decide
  rw [Text.splitLast?_eq_some.mpr ⟨hname, hlast⟩] at hsplit
  obtain ⟨-, rfl⟩ := Prod.mk.inj (Option.some.inj hsplit)
  decide

theorem simpleNamesRecorded : classFile.SimpleNamesRecorded := by
  intro a ha _ rows hrows row hrow
  obtain rfl := List.mem_singleton.mp ha
  have hdecode : InnerClassRow.tableCodec.decode [0, 1, 0, 2, 0, 0, 0, 3, 0, 0] = .ok [nested] := by
    decide +kernel
  obtain rfl := Except.ok.inj (hdecode.symm.trans hrows)
  obtain rfl := List.mem_singleton.mp hrow
  exact recorded_nested

end LocalClass

theorem ClassFile.unchanged_of_relabel_localClass :
    LocalClass.mappings.IsIdentity ∧ parse LocalClass.bytes = .ok LocalClass.classFile ∧
      (∀ texts, spellings LocalClass.bytes = .ok texts →
        ∀ text ∈ texts, ModifiedUtf8.Canonical text) ∧
      LocalClass.classFile.SimpleNamesRecorded ∧
      ∃ out, relabelBytes LocalClass.bytes LocalClass.mappings none = .ok out ∧
        out.bytes = LocalClass.bytes ∧ LocalClass.classFile.name = .ok out.formerName ∧
        out.name = out.formerName ∧ out.parameterNames = [] := by
  have hparse : parse LocalClass.bytes = .ok LocalClass.classFile := by decide +kernel
  have hspelled : ∀ texts, spellings LocalClass.bytes = .ok texts →
      ∀ text ∈ texts, ModifiedUtf8.Canonical text := by
    intro texts htexts
    have hspellings : spellings LocalClass.bytes = .ok LocalClass.texts := by decide +kernel
    obtain rfl := Except.ok.inj (hspellings.symm.trans htexts)
    decide +kernel
  have hrelabel : relabelBytes LocalClass.bytes LocalClass.mappings none =
      .ok ⟨"A$1B", "A$1B", LocalClass.bytes, []⟩ := by decide +kernel
  exact ⟨LocalClass.isIdentity_mappings, hparse, hspelled, LocalClass.simpleNamesRecorded, _,
    hrelabel, unchanged_of_relabel LocalClass.isIdentity_mappings hparse hspelled
      LocalClass.simpleNamesRecorded hrelabel⟩

end ClassRelabel
