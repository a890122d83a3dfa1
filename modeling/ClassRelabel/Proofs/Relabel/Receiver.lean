/-
A receiver stays `this`.

The table of variables lists the receiver of a method in slot 0.  Nothing is made up for a variable
that is called `this`, so it keeps its name unless the mappings give it another one or an earlier
row has given slot 0 another name.  `receiver_of_relabel` says so for the class that the bytes of a
run are parsed to.
-/
import ClassRelabel.Proofs.Relabel.Variables

namespace ClassRelabel

open EStateM Codec Pool

/-! ## Rows of receivers -/

namespace LocalRow

/-- The row is the receiver's: it stands in slot 0 from the first instruction on and is called
`this`. -/
structure IsReceiver (p : Pool) (row : LocalRow) : Prop where
  start : row.start = 0
  slot : row.slot = 0
  name : p.text row.name = .ok receiverName

/-- The name for slot 0 is read off the receiver, if it is read off any row. -/
def ReceiverFirst (p : Pool) (rows : List LocalRow) : Prop :=
  ∀ row, rows.find? (fun row => row.start = 0 ∧ row.slot = 0) = some row → row.IsReceiver p

end LocalRow

/-- Nothing gives slot 0 a name other than `this`: the mappings do not, and where a dictionary is
asked the rows begin with the receiver. -/
structure NamedMethod.SparesReceiver (m : Mappings) (d : Option Dictionary) (method : NamedMethod)
    (p : Pool) (rows : List LocalRow) : Prop where
  mapped : ∀ name, method.mapped? m 0 = some name → name = receiverName
  deduced : d ≠ none → method.mapped? m 0 = none → LocalRow.ReceiverFirst p rows

/-- The rows of receivers in all tables of a body. -/
def Code.KeepsReceiver (m : Mappings) (d : Option Dictionary) (method : NamedMethod) (p q : Pool)
    (old new : Code) : Prop :=
  ∃ rows rows', old.variableRows p = .ok rows ∧ new.variableRows q = .ok rows' ∧
    (method.SparesReceiver m d p rows →
      List.Forall₂ (fun row row' => row.IsReceiver p → row'.IsReceiver q) rows rows')

/-- The rows of receivers in all bodies of a method. -/
def Member.KeepsReceiver (m : Mappings) (d : Option Dictionary) (owner : String) (p q : Pool)
    (old new : Member) : Prop :=
  ∃ method, old.NamedAs m owner p method ∧
    List.Forall₂ (Attribute.Kept p fun name as bs => name = "Code" →
      SamePayload Code.codec (Code.KeepsReceiver m d method p q) as bs)
      old.attributes new.attributes

/-! ## Names of receivers -/

namespace Relabelling

variable {r : Relabelling} {method : NamedMethod} {used : UsedNames} {rows : List LocalRow}
  {ns : List (Candidate × Option String)} {final : Pool}

/-- A receiver that takes a name takes `this`. -/
theorem NamedByTypes.eq_receiverName (h : r.NamedByTypes method used rows ns)
    (hspares : method.SparesReceiver r.mappings r.dictionary r.source rows) {row : LocalRow}
    (hslot : row.slot = 0) {name : String} (hname : row.Takes ns name) : name = receiverName := by
  obtain ⟨-, c, hc, hcslot⟩ := hname
  have hzero : c.slot = 0 := hcslot.trans hslot
  rcases h.named.origin hc with hmapped | ⟨hunmapped, _, _, _, hd, hdeduce, -⟩
  · rw [hzero] at hmapped
    exact hspares.mapped name hmapped
  · rw [hzero] at hunmapped
    obtain ⟨-, first, hfirst, hraw⟩ := (h.listed c).mp (List.mem_map_of_mem hc)
    rw [hzero] at hfirst
    have hreceiver := hspares.deduced (by simp [hd]) hunmapped first hfirst
    have hrawName : c.rawName = receiverName :=
      Except.ok.inj (hraw.symm.trans hreceiver.name)
    have hlower : c.rawName.toLower = receiverName := by
      rw [hrawName]
      decide +kernel
    rw [Parameter.deduce_of_receiver hlower] at hdeduce
    obtain ⟨hname, -⟩ := EStateM.Result.ok.inj hdeduce
    exact hname.symm.trans hrawName

theorem NamedByTypes.isReceiver (h : r.NamedByTypes method used rows ns)
    (hspares : method.SparesReceiver r.mappings r.dictionary r.source rows)
    (hrevises : Revises r.source final) {row row' : LocalRow}
    (hrow : row.RenamedVariable r.mappings r.source final ns row')
    (hreceiver : row.IsReceiver r.source) : row'.IsReceiver final := by
  refine ⟨hrow.start.trans hreceiver.start, hrow.slot.trans hreceiver.slot, ?_⟩
  by_cases htakes : ∃ name, row.Takes ns name
  · obtain ⟨name, hname⟩ := htakes
    obtain rfl := h.eq_receiverName hspares hreceiver.slot hname
    exact hrow.named _ hname
  · rw [hrow.kept (not_exists.mp htakes)]
    exact hrevises.text hreceiver.name

theorem yields_keepsReceiver (r : Relabelling) (final : Pool) (hrevises : Revises r.source final)
    (old : Member) : Yields r final (fun new =>
      old.KeepsReceiver r.mappings r.dictionary r.owner r.source final new.1) (r.method old) := by
  refine r.yields_bodies final old fun method used c _ => ?_
  refine (r.yields_namedCode final method used c).imp
    fun new ⟨rows, ns, hrows, hnaming, hattributes⟩ => ?_
  obtain ⟨rows', hrows', hrenamed⟩ := Code.exists_variableRows hrevises hattributes hrows
  exact ⟨rows, rows', hrows, hrows', fun hspares => hrenamed.imp fun row row' hrow =>
    hnaming.isReceiver hspares hrevises hrow⟩

end Relabelling

namespace ClassFile

open Relabelling

/-- A run that succeeds leaves the receivers of all methods `this` that nothing names otherwise. -/
theorem receiver_of_relabel {bs : Bytes} {c : ClassFile} {m : Mappings} {d : Option Dictionary}
    {out : RelabelledClass} (hparse : parse bs = .ok c) (h : c.relabel m d = .ok out) :
    ∃ owner new, c.name = .ok owner ∧ parse out.bytes = .ok new ∧
      List.Forall₂ (Member.KeepsReceiver m d owner c.pool new.pool) c.methods new.methods := by
  obtain ⟨r, new, hr, -, hnew, hrelabelled⟩ :=
    relabelled_of_relabel (storable_of_parse hparse) h
  have hrevises := hrelabelled.underway.revises
  refine ⟨r.owner, new, hr.name, hnew, ?_⟩
  rw [← hr.source, ← hr.mappings, ← hr.dictionary]
  exact hrelabelled.methods.imp fun old new' ⟨report, hmade⟩ =>
    hmade.of_yields (yields_keepsReceiver r _ hrevises old)

/-- The receiver of a method whose parameter has the type `This`. -/
theorem receiver_of_relabel_receiverType :
    parse (ReceiverType.bytes 9) = .ok (ReceiverType.classFile 9) ∧
      (ReceiverType.classFile 9).relabel .empty (some ⟨[]⟩) = .ok ReceiverType.relabelled ∧
      ReceiverType.named.SparesReceiver .empty (some ⟨[]⟩) ReceiverType.pool
        (ReceiverType.rows 9) ∧
      ∃ owner new, (ReceiverType.classFile 9).name = .ok owner ∧
        parse ReceiverType.relabelled.bytes = .ok new ∧
        List.Forall₂ (Member.KeepsReceiver .empty (some ⟨[]⟩) owner ReceiverType.pool new.pool)
          [ReceiverType.method 9] new.methods := by
  refine ⟨ReceiverType.parse_bytes, ReceiverType.relabel_classFile, ⟨?_, fun _ _ => ?_⟩,
    receiver_of_relabel ReceiverType.parse_bytes ReceiverType.relabel_classFile⟩
  · intro name hname
    nomatch hname
  · intro row hrow
    obtain rfl := Option.some.inj hrow
    exact ⟨rfl, rfl, by decide +kernel⟩

end ClassFile

/-! ## Two receivers that are lost

The class `A` has two methods without parameters.  The mappings give the name `self` to slot 0 of
`m`.  The table of `k` lists a variable `x` in slot 0 in front of the receiver, so that a dictionary
names the slot after the class. -/

namespace LostReceivers

def bytes : Bytes :=
  [202, 254, 186, 190, 0, 0, 0, 52, 0, 11, 1, 0, 1, 65, 7, 0, 1, 1, 0, 1, 109, 1, 0, 1, 107, 1, 0,
    3, 40, 41, 86, 1, 0, 4, 67, 111, 100, 101, 1, 0, 18, 76, 111, 99, 97, 108, 86, 97, 114, 105, 97,
    98, 108, 101, 84, 97, 98, 108, 101, 1, 0, 4, 116, 104, 105, 115, 1, 0, 1, 120, 1, 0, 3, 76, 65,
    59, 0, 0, 0, 2, 0, 0, 0, 0, 0, 0, 0, 2, 0, 0, 0, 3, 0, 5, 0, 1, 0, 6, 0, 0, 0, 31, 0, 0, 0, 1,
    0, 0, 0, 1, 177, 0, 0, 0, 1, 0, 7, 0, 0, 0, 12, 0, 1, 0, 0, 0, 1, 0, 8, 0, 10, 0, 0, 0, 0, 0, 4,
    0, 5, 0, 1, 0, 6, 0, 0, 0, 41, 0, 0, 0, 1, 0, 0, 0, 1, 177, 0, 0, 0, 1, 0, 7, 0, 0, 0, 22, 0, 2,
    0, 0, 0, 1, 0, 9, 0, 10, 0, 0, 0, 0, 0, 1, 0, 8, 0, 10, 0, 0, 0, 0]

def pool : Pool where
  slots := #[.unusable, .utf8 "A", .classRef 1, .utf8 "m", .utf8 "k", .utf8 "()V", .utf8 "Code",
    .utf8 "LocalVariableTable", .utf8 "this", .utf8 "x", .utf8 "LA;"]
  texts := .ofList [("A", 1), ("m", 3), ("k", 4), ("()V", 5), ("Code", 6),
    ("LocalVariableTable", 7), ("this", 8), ("x", 9), ("LA;", 10)] compare
  classes := {(1, 2)}
  pairs := ∅

def renamedPool : Pool where
  slots := pool.slots ++ #[.utf8 "self", .utf8 "a"]
  texts := (pool.texts.insert "self" 11).insert "a" 12
  classes := pool.classes
  pairs := ∅

/-- The table of `m` with the index of the only name in it. -/
def single (name : UInt8) : Bytes := [0, 1, 0, 0, 0, 1, 0, name, 0, 10, 0, 0]

/-- The table of `k` with the indices of the names in it. -/
def double (first second : UInt8) : Bytes :=
  [0, 2, 0, 0, 0, 1, 0, first, 0, 10, 0, 0, 0, 0, 0, 1, 0, second, 0, 10, 0, 0]

def body (table : Bytes) : Bytes :=
  [0, 0, 0, 1, 0, 0, 0, 1, 177, 0, 0, 0, 1, 0, 7, 0, 0, 0, UInt8.ofNat table.length] ++ table

def code (table : Bytes) : Code := ⟨0, 1, [177], [], [⟨7, table⟩]⟩

def method (name : Index) (table : Bytes) : Member := ⟨⟨0⟩, name, 5, [⟨6, body table⟩]⟩

def classFile : ClassFile :=
  ⟨⟨52, 0⟩, pool, ⟨0⟩, 2, 0, [], [], [method 3 (single 8), method 4 (double 9 8)], []⟩

def renamedFile : ClassFile :=
  ⟨⟨52, 0⟩, renamedPool, ⟨0⟩, 2, 0, [], [], [method 3 (single 11), method 4 (double 12 12)], []⟩

def mappings : Mappings := Mappings.empty.nameParameter "A" ⟨"m", "()V"⟩ 0 "self"

def relabelled : RelabelledClass where
  formerName := "A"
  name := "A"
  bytes := [202, 254, 186, 190, 0, 0, 0, 52, 0, 13, 1, 0, 1, 65, 7, 0, 1, 1, 0, 1, 109, 1, 0, 1,
    107, 1, 0, 3, 40, 41, 86, 1, 0, 4, 67, 111, 100, 101, 1, 0, 18, 76, 111, 99, 97, 108, 86, 97,
    114, 105, 97, 98, 108, 101, 84, 97, 98, 108, 101, 1, 0, 4, 116, 104, 105, 115, 1, 0, 1, 120, 1,
    0, 3, 76, 65, 59, 1, 0, 4, 115, 101, 108, 102, 1, 0, 1, 97, 0, 0, 0, 2, 0, 0, 0, 0, 0, 0, 0, 2,
    0, 0, 0, 3, 0, 5, 0, 1, 0, 6, 0, 0, 0, 31, 0, 0, 0, 1, 0, 0, 0, 1, 177, 0, 0, 0, 1, 0, 7, 0, 0,
    0, 12, 0, 1, 0, 0, 0, 1, 0, 11, 0, 10, 0, 0, 0, 0, 0, 4, 0, 5, 0, 1, 0, 6, 0, 0, 0, 41, 0, 0, 0,
    1, 0, 0, 0, 1, 177, 0, 0, 0, 1, 0, 7, 0, 0, 0, 22, 0, 2, 0, 0, 0, 1, 0, 12, 0, 10, 0, 0, 0, 0,
    0, 1, 0, 12, 0, 10, 0, 0, 0, 0]
  parameterNames := []

def receiver : LocalRow := ⟨0, 1, 8, 10, 0⟩

theorem isReceiver_receiver : receiver.IsReceiver pool := ⟨rfl, rfl, by decide +kernel⟩

end LostReceivers

namespace ClassFile

/-- Receivers that are listed as `this` are called otherwise afterwards, one by the mappings and
one from a dictionary. -/
theorem receiver_renamed_lostReceivers :
    parse LostReceivers.bytes = .ok LostReceivers.classFile ∧
      LostReceivers.classFile.relabel LostReceivers.mappings (some ⟨[]⟩) =
        .ok LostReceivers.relabelled ∧
      parse LostReceivers.relabelled.bytes = .ok LostReceivers.renamedFile ∧
      (∀ method ∈ LostReceivers.classFile.methods,
        method.isStatic = false ∧ method.hasBody = true) ∧
      (∀ table ∈ [LostReceivers.single 8, LostReceivers.single 11, LostReceivers.double 9 8,
          LostReceivers.double 12 12],
        Code.codec.decode (LostReceivers.body table) = .ok (LostReceivers.code table)) ∧
      LostReceivers.receiver.IsReceiver LostReceivers.pool ∧
      (LostReceivers.code (LostReceivers.single 8)).variableRows LostReceivers.pool =
        .ok [LostReceivers.receiver] ∧
      (LostReceivers.code (LostReceivers.single 11)).variableRows LostReceivers.renamedPool =
        .ok [{ LostReceivers.receiver with name := 11 }] ∧
      LostReceivers.renamedPool.text 11 = .ok "self" ∧
      (LostReceivers.code (LostReceivers.double 9 8)).variableRows LostReceivers.pool =
        .ok [{ LostReceivers.receiver with name := 9 }, LostReceivers.receiver] ∧
      (LostReceivers.code (LostReceivers.double 12 12)).variableRows LostReceivers.renamedPool =
        .ok [{ LostReceivers.receiver with name := 12 },
          { LostReceivers.receiver with name := 12 }] ∧
      LostReceivers.renamedPool.text 12 = .ok "a" := by
  refine ⟨by decide +kernel, by decide +kernel, by decide +kernel, by decide +kernel,
    by decide +kernel, LostReceivers.isReceiver_receiver, by decide +kernel, by decide +kernel,
    rfl, by decide +kernel, by decide +kernel, rfl⟩

end ClassFile
end ClassRelabel
