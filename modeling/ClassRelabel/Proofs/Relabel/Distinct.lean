/-
Different parameters get different names, with two exceptions.

A name that is made up is new among the names of the method, and the mappings take theirs first.
But a parameter that is called like a receiver keeps its name and does not take it, so another one
may get the same; and where no dictionary is given, a parameter that is not in the mappings falls
back on its old name, which nobody compares with the names in the mappings.
`distinct_of_relabel` says that there are no other exceptions.
-/
import ClassRelabel.Proofs.Relabel.Reports
import ClassRelabel.Proofs.Relabel.Variables

namespace ClassRelabel

open EStateM Codec Pool

/-! ## Names in tables -/

namespace NamedMethod

/-- The slots of the receiver and of the parameters. -/
def namedSlots (m : Mappings) (method : NamedMethod) : Set UInt16 :=
  {slot | ∃ type, method.HasSlot m slot type}

/-- The mappings do not name the slot, and the first row at the first instruction that has it is
called `name`, which is how a receiver is called in some letter case. -/
structure KeepsReceiver (m : Mappings) (method : NamedMethod) (p : Pool) (rows : List LocalRow)
    (slot : UInt16) (name : String) : Prop where
  unmapped : method.mapped? m slot = none
  receiver : name.toLower = receiverName
  row : ∃ row, rows.find? (fun row => row.start = 0 ∧ row.slot = slot) = some row ∧
    p.text row.name = .ok name

end NamedMethod

/-- Parameters in different slots do not have the same name, unless one keeps it as the name of a
receiver.  `old` and `new` are the rows of variables, read in `p` and in `q`. -/
def LocalRow.DistinctNames (m : Mappings) (method : NamedMethod) (p q : Pool)
    (old new : List LocalRow) : Prop :=
  ∀ row ∈ new, ∀ row' ∈ new, row.start = 0 → row'.start = 0 → row.slot ≠ row'.slot →
    row.slot ∈ method.namedSlots m → row'.slot ∈ method.namedSlots m →
      ∀ name, q.text row.name = .ok name → q.text row'.name = .ok name →
        method.KeepsReceiver m p old row.slot name ∨ method.KeepsReceiver m p old row'.slot name

/-- The names in the tables of the body `new`, which was `old`. -/
def Code.DistinctNames (m : Mappings) (method : NamedMethod) (p q : Pool) (old new : Code) :
    Prop :=
  ∃ rows rows', old.variableRows p = .ok rows ∧ new.variableRows q = .ok rows' ∧
    LocalRow.DistinctNames m method p q rows rows'

/-- What becomes of the bodies of a method. -/
def Member.DistinctVariables (m : Mappings) (owner : String) (p q : Pool) (old new : Member) :
    Prop :=
  ∃ method, old.NamedAs m owner p method ∧
    (FieldType.totalSlots method.parameters < 0x10000 →
      method.MappedApart m (method.namedSlots m) →
        List.Forall₂ (Attribute.Kept p fun name as bs => name = "Code" →
          SamePayload Code.codec (Code.DistinctNames m method p q) as bs)
          old.attributes new.attributes)

/-! ## Rows of one body -/

namespace NamedByRows

variable {m : Mappings} {d : Option Dictionary} {method : NamedMethod} {p q : Pool}
  {used : UsedNames} {rows : List LocalRow} {ns : List (Candidate × Option String)}

theorem pairwise_namedApart (h : NamedByRows m d method p used rows ns)
    (hapart : method.MappedApart m (method.namedSlots m)) : ns.Pairwise (NamedApart m method) := by
  refine h.named.pairwise_of_mappedApart h.sorted (fun n hn => ?_) hapart
  exact ⟨n.1.type, ((h.listed n.1).mp (List.mem_map_of_mem hn)).slot⟩

theorem keepsReceiver (h : NamedByRows m d method p used rows ns) {n : Candidate × Option String}
    (hn : n ∈ ns) {name : String} (hexempt : n.1.Exempt m method ∧ n.1.rawName = name) :
    method.KeepsReceiver m p rows n.1.slot name := by
  obtain ⟨⟨hunmapped, hreceiver⟩, rfl⟩ := hexempt
  exact ⟨hunmapped, hreceiver, ((h.listed n.1).mp (List.mem_map_of_mem hn)).row⟩

/-- With a dictionary, a row in the slot of a parameter is called what the parameter is given. -/
theorem exists_given (h : NamedByRows m d method p used rows ns) (hd : d ≠ none)
    {row row' : LocalRow} (hrow : row ∈ rows) (hrenamed : row.RenamedVariable m p q ns row')
    (hstart : row'.start = 0) (hslot : row'.slot ∈ method.namedSlots m) :
    ∃ n ∈ ns, n.1.slot = row'.slot ∧
      ∀ name, q.text row'.name = .ok name → n.2 = some name := by
  obtain ⟨type, htype⟩ := hslot
  rw [hrenamed.start] at hstart
  rw [hrenamed.slot] at htype
  obtain ⟨⟨c, found⟩, hn, hc⟩ := h.complete row hrow hstart type htype
  obtain ⟨given, rfl⟩ := h.named.exists_name hd hn
  have htext := hrenamed.named given ⟨hstart, c, hn, hc⟩
  exact ⟨_, hn, hc.trans hrenamed.slot.symm, fun name hname =>
    congrArg some (Except.ok.inj (htext.symm.trans hname))⟩

end NamedByRows

theorem Code.RenamedVariables.distinctNames {m : Mappings} {d : Option Dictionary}
    {method : NamedMethod} {p q : Pool} {used : UsedNames} {old new : Code}
    (h : old.RenamedVariables m d method p q used new) (hrevises : Revises p q) (hd : d ≠ none)
    (hapart : method.MappedApart m (method.namedSlots m)) : old.DistinctNames m method p q new := by
  obtain ⟨rows, ns, hrows, hnaming, hattributes⟩ := h
  obtain ⟨rows', hrows', hrenamed⟩ := Code.exists_variableRows hrevises hattributes hrows
  refine ⟨rows, rows', hrows, hrows', ?_⟩
  intro row hrow row' hrow' hstart hstart' hne hslot hslot' name hname hname'
  obtain ⟨old, hold, hpair⟩ := hrenamed.exists_of_mem_right hrow
  obtain ⟨old', hold', hpair'⟩ := hrenamed.exists_of_mem_right hrow'
  obtain ⟨n, hn, heq, hgiven⟩ := hnaming.exists_given hd hold hpair hstart hslot
  obtain ⟨n', hn', heq', hgiven'⟩ := hnaming.exists_given hd hold' hpair' hstart' hslot'
  have hnne : n ≠ n' := fun hsame => hne (by rw [← heq, ← heq', hsame])
  have hnamed := (hnaming.pairwise_namedApart hapart).forall hn hn' hnne
  rw [← heq, ← heq']
  exact (hnamed name (hgiven name hname) (hgiven' name hname')).imp (hnaming.keepsReceiver hn)
    (hnaming.keepsReceiver hn')

theorem Relabelling.yields_distinctVariables (r : Relabelling) (final : Pool)
    (hrevises : Revises r.source final) (hd : r.dictionary ≠ none) (old : Member) :
    Yields r final (fun new =>
      old.DistinctVariables r.mappings r.owner r.source final new.1) (r.method old) := by
  have hbodies := r.yields_bodies final (R := fun method c c' =>
    FieldType.totalSlots method.parameters < 0x10000 →
      method.MappedApart r.mappings (method.namedSlots r.mappings) →
        Code.DistinctNames r.mappings method r.source final c c') old fun method used c hnamed =>
    have hgrows := r.keeps_code method c used
    yields_of_imp hgrows fun htotal => yields_of_imp hgrows fun hapart =>
      (r.yields_code final hnamed.owner (hnamed.fits htotal) used c).imp
        fun _ hnew => hnew.distinctNames hrevises hd hapart
  refine hbodies.imp fun new ⟨method, hnamed, hattributes⟩ =>
    ⟨method, hnamed, fun htotal hapart => ?_⟩
  refine hattributes.imp fun a b ⟨hsame, name, hname, hbody⟩ =>
    ⟨hsame, name, hname, fun hcode => ?_⟩
  obtain ⟨c, c', hc, hc', hdistinct⟩ := hbody hcode
  exact ⟨c, c', hc, hc', hdistinct htotal hapart⟩

namespace ClassFile

open Relabelling

/-- A run that succeeds gives different names to different parameters, apart from names of
receivers that are kept and names that are fallen back on. -/
theorem distinct_of_relabel {bs : Bytes} {c : ClassFile} {m : Mappings} {d : Option Dictionary}
    {out : RelabelledClass} (hparse : parse bs = .ok c) (h : c.relabel m d = .ok out) :
    ∃ owner new reports, c.name = .ok owner ∧ parse out.bytes = .ok new ∧
      out.parameterNames = reports.filterMap id ∧
      (d ≠ none → List.Forall₂ (Member.DistinctVariables m owner c.pool new.pool) c.methods
        new.methods) ∧
      List.Forall₂ (Member.Reported m d owner c.pool) c.methods reports := by
  obtain ⟨owner, reports, howner, hfilter, hreports⟩ := reports_of_relabel h
  obtain ⟨r, new, hr, -, hnew, hrelabelled⟩ :=
    relabelled_of_relabel (storable_of_parse hparse) h
  have hrevises := hrelabelled.underway.revises
  obtain rfl := Except.ok.inj (howner.symm.trans hr.name)
  refine ⟨r.owner, new, reports, howner, hnew, hfilter, fun hd => ?_, hreports⟩
  rw [← hr.dictionary] at hd
  rw [← hr.source, ← hr.mappings]
  exact hrelabelled.methods.imp fun old new' ⟨report, hmade⟩ =>
    hmade.of_yields (r.yields_distinctVariables _ hrevises hd old)

end ClassFile

/-! ## Two parameters without names

The class `A` has a method without a body and with two parameters.  The mappings call the first one
what the second one falls back on. -/

namespace Fallback

def bytes : Bytes :=
  [0xCA, 0xFE, 0xBA, 0xBE, 0, 0, 0, 52, 0, 5, 1, 0, 1, 65, 7, 0, 1, 1, 0, 1, 109, 1, 0, 5, 40, 73,
    73, 41, 86, 0, 0, 0, 2, 0, 0, 0, 0, 0, 0, 0, 1, 4, 0, 0, 3, 0, 4, 0, 0, 0, 0]

def pool : Pool where
  slots := #[.unusable, .utf8 "A", .classRef 1, .utf8 "m", .utf8 "(II)V"]
  texts := {("(II)V", 4), ("m", 3), ("A", 1)}
  classes := {(1, 2)}
  pairs := ∅

def method : Member := ⟨.isAbstract, 3, 4, []⟩

def classFile : ClassFile := ⟨⟨52, 0⟩, pool, ⟨0⟩, 2, 0, [], [], [method], []⟩

def mappings : Mappings := Mappings.empty.nameParameter "A" ⟨"m", "(II)V"⟩ 1 "var2"

def named : NamedMethod := ⟨⟨"A", "m", "(II)V"⟩, false, [⟨.primitive .int, 0⟩, ⟨.primitive .int, 0⟩]⟩

def relabelled (names : List String) : RelabelledClass :=
  ⟨"A", "A", bytes, [⟨⟨"A", "m", "(II)V"⟩, names⟩]⟩

theorem parse_bytes : ClassFile.parse bytes = .ok classFile := by decide +kernel

theorem relabel_classFile :
    classFile.relabel mappings none = .ok (relabelled ["var2", "var2"]) := by decide +kernel

theorem relabel_classFile_dictionary :
    classFile.relabel mappings (some ⟨[]⟩) = .ok (relabelled ["var2", "i"]) := by decide +kernel

theorem namedAs_method : method.NamedAs mappings "A" pool named :=
  ⟨rfl, ⟨by decide +kernel, by decide +kernel⟩, rfl, "(II)V", ⟨named.parameters, ⟨.primitive .void, 0⟩⟩,
    by decide +kernel, by decide +kernel, rfl⟩

theorem mappedApart_named : named.MappedApart mappings {slot | slot ∈ named.parameterSlots} := by
  have hslots : named.parameterSlots = [1, 2] := by decide +kernel
  have hsecond : named.mapped? mappings 2 = none := by decide +kernel
  have hfirst : ∀ slot ∈ named.parameterSlots, ∀ name,
      named.mapped? mappings slot = some name → slot = 1 := by
    intro slot hslot name hname
    rw [hslots, List.mem_pair] at hslot
    rcases hslot with rfl | rfl
    · rfl
    · simp [hsecond] at hname
  intro slot hslot slot' hslot' name hname hname'
  rw [hfirst slot hslot name hname, hfirst slot' hslot' name hname']

end Fallback

namespace ReceiverType

theorem namedAs_method : (method 9).NamedAs .empty "A" pool named :=
  ⟨rfl, ⟨by decide +kernel, by decide +kernel⟩, rfl, "(LThis;)V",
    ⟨named.parameters, ⟨.primitive .void, 0⟩⟩, by decide +kernel, by decide +kernel, rfl⟩

theorem mappedApart_named (slots : Set UInt16) : named.MappedApart .empty slots := by
  intro slot _ slot' _ name hname
  simp [NamedMethod.mapped?, Mappings.parameter?, Mappings.method?, Mappings.class?,
    Mappings.empty] at hname

/-- The receiver and the parameter have the same name afterwards. -/
theorem shared_name : ∃ row ∈ rows 7, ∃ row' ∈ rows 7, row.start = 0 ∧ row'.start = 0 ∧
    row.slot ≠ row'.slot ∧ row.slot ∈ named.namedSlots .empty ∧
    row'.slot ∈ named.namedSlots .empty ∧
    ∃ name, pool.text row.name = .ok name ∧ pool.text row'.name = .ok name := by
  refine ⟨⟨0, 1, 7, 8, 0⟩, by decide, ⟨0, 1, 7, 10, 1⟩, by decide, rfl, rfl, by decide, ?_, ?_,
    "this", by decide +kernel, by decide +kernel⟩
  · exact ⟨_, .receiver rfl⟩
  · exact ⟨_, @NamedMethod.HasSlot.parameter .empty named 1 [] [] ⟨.object "This", 0⟩ rfl rfl⟩

end ReceiverType

namespace ClassFile

/-- Both exceptions occur: a parameter is called like the receiver that keeps its name, and the
mappings use a name that is fallen back on. -/
theorem shared_names_of_relabel :
    (parse (ReceiverType.bytes 9) = .ok (ReceiverType.classFile 9) ∧
      (ReceiverType.classFile 9).relabel .empty (some ⟨[]⟩) = .ok ReceiverType.relabelled ∧
      (ReceiverType.method 9).NamedAs .empty "A" ReceiverType.pool ReceiverType.named ∧
      (ReceiverType.method 9).hasBody = true ∧
      ReceiverType.named.MappedApart .empty
        (ReceiverType.named.namedSlots .empty) ∧
      parse ReceiverType.relabelled.bytes = .ok (ReceiverType.classFile 7) ∧
      Code.codec.decode (ReceiverType.body 7) = .ok (ReceiverType.code 7) ∧
      (ReceiverType.code 7).variableRows ReceiverType.pool = .ok (ReceiverType.rows 7) ∧
      ∃ row ∈ ReceiverType.rows 7, ∃ row' ∈ ReceiverType.rows 7, row.start = 0 ∧ row'.start = 0 ∧
        row.slot ≠ row'.slot ∧ row.slot ∈ ReceiverType.named.namedSlots .empty ∧
        row'.slot ∈ ReceiverType.named.namedSlots .empty ∧
        ∃ name, ReceiverType.pool.text row.name = .ok name ∧
          ReceiverType.pool.text row'.name = .ok name) ∧
    (parse Fallback.bytes = .ok Fallback.classFile ∧
      Fallback.classFile.relabel Fallback.mappings none =
        .ok (Fallback.relabelled ["var2", "var2"]) ∧
      Fallback.method.NamedAs Fallback.mappings "A" Fallback.pool Fallback.named ∧
      Fallback.method.hasBody = false ∧
      Fallback.named.MappedApart Fallback.mappings
        {slot | slot ∈ Fallback.named.parameterSlots} ∧
      ∃ report ∈ (Fallback.relabelled ["var2", "var2"]).parameterNames, ¬report.names.Nodup) :=
  ⟨⟨ReceiverType.parse_bytes, ReceiverType.relabel_classFile, ReceiverType.namedAs_method, rfl,
      ReceiverType.mappedApart_named _, by decide +kernel, by decide +kernel, by decide +kernel,
      ReceiverType.shared_name⟩,
    ⟨Fallback.parse_bytes, Fallback.relabel_classFile, Fallback.namedAs_method, rfl,
      Fallback.mappedApart_named, _, List.mem_cons_self, by decide⟩⟩

theorem distinct_of_relabel_fallback :
    parse Fallback.bytes = .ok Fallback.classFile ∧
      Fallback.classFile.relabel Fallback.mappings (some ⟨[]⟩) =
        .ok (Fallback.relabelled ["var2", "i"]) ∧
      ∃ owner new reports, Fallback.classFile.name = .ok owner ∧
        parse (Fallback.relabelled ["var2", "i"]).bytes = .ok new ∧
        (Fallback.relabelled ["var2", "i"]).parameterNames = reports.filterMap id ∧
        (some (Dictionary.mk []) ≠ none → List.Forall₂
          (Member.DistinctVariables Fallback.mappings owner Fallback.pool new.pool)
          [Fallback.method] new.methods) ∧
        List.Forall₂ (Member.Reported Fallback.mappings (some ⟨[]⟩) owner Fallback.pool)
          [Fallback.method] reports :=
  ⟨Fallback.parse_bytes, Fallback.relabel_classFile_dictionary,
    distinct_of_relabel Fallback.parse_bytes Fallback.relabel_classFile_dictionary⟩

end ClassFile
end ClassRelabel
