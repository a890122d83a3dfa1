/-
A relabelled class and how it was made.

`Relabelled r c new` collects what a run of `ClassFile.relabel` leaves behind: every constant of
`c` stands renamed at its index, and every field, method and attribute of `new` was made from the
one of `c` at some pool of the run, of which the pool of `new` is a continuation.
`relabelled_of_relabel` gets it for the class that the bytes of a run are parsed to.
-/
import ClassRelabel.Proofs.ClassFile
import ClassRelabel.Proofs.Relabel.Constants

namespace ClassRelabel

open EStateM Pool

namespace Relabelling

variable {r : Relabelling} {p q final : Pool} {α β : Type}

/-- `b` was made from `a` at some pool of a run that ended in `final`. -/
def Made (r : Relabelling) (final : Pool) (f : α → PoolM β) (a : α) (b : β) : Prop :=
  ∃ p q, Underway r p ∧ f a p = .ok b q ∧ q.WellFormed ∧ Extends q final

theorem Made.extend {f : α → PoolM β} {a : α} {b : β} (h : Made r p f a b) (hext : Extends p q) :
    Made r q f a b := by
  obtain ⟨s, t, hs, hrun, ht, hkeep⟩ := h
  exact ⟨s, t, hs, hrun, ht, hkeep.trans hext⟩

theorem Made.returns {f : α → PoolM β} {a : α} {b : β} {P : β → Prop} (h : Made r p f a b)
    (hf : Returns P (f a)) : P b := by
  obtain ⟨s, t, -, hrun, -, -⟩ := h
  exact hf s b t hrun

/-- A list that is relabelled one by one. -/
theorem made_of_mapM {f : α → PoolM β} (hf : ∀ a, Keeps Grows (f a)) {xs : List α} {ys : List β}
    (hp : Underway r p) (h : xs.mapM f p = .ok ys q) : List.Forall₂ (Made r q f) xs ys := by
  refine (mapM_forall₂ (I := Underway r) (P := fun a b t => Made r t f a b) ?_ ?_ hp h).2
  · intro a s b t hs hrun
    have ht := (hs.grow (hf a s b t hrun)).1
    exact ⟨ht, s, t, hs, hrun, ht.wellFormed, Extends.refl t⟩
  · intro a s b t hrun x y hmade
    exact hmade.extend (hf a s b t hrun).keeps

/-- What is known of the class `new` that `c` was relabelled to. -/
structure Relabelled (r : Relabelling) (c new : ClassFile) : Prop where
  source : r.source = c.pool
  underway : Underway r new.pool
  placed : ∀ (j : Nat) (old : Constant), c.pool.slots[j]? = some old → Placed r new.pool j old
  version : new.version = c.version
  access : new.access = c.access
  thisClass : new.thisClass = c.thisClass
  superClass : new.superClass = c.superClass
  interfaces : new.interfaces = c.interfaces
  fields : List.Forall₂ (Made r new.pool r.field) c.fields new.fields
  methods : List.Forall₂ (fun old m => ∃ report, Made r new.pool r.method old (m, report))
    c.methods new.methods
  attributes : List.Forall₂ (Made r new.pool r.classAttribute) c.attributes new.attributes

theorem relabelled_of_parts {c new : ClassFile} {reports : List ParameterNames}
    (hsource : r.source = c.pool) (hc : c.pool.WellFormed)
    (h : r.parts c c.pool = .ok (new, reports) q) : Relabelled r c { new with pool := q } := by
  obtain ⟨u, p₁, hconstants, h⟩ := bind_eq_ok.mp h
  obtain ⟨fields, p₂, hfields, h⟩ := bind_eq_ok.mp h
  obtain ⟨methods, p₃, hmethods, h⟩ := bind_eq_ok.mp h
  obtain ⟨attributes, p₄, hattributes, h⟩ := bind_eq_ok.mp h
  obtain ⟨hnew, rfl⟩ := pure_eq_ok.mp h
  obtain ⟨rfl, -⟩ := Prod.mk.inj hnew
  rw [← hsource] at hc hconstants
  obtain ⟨h₁, hplaced⟩ := underway_constants hc hconstants
  have hgrows₂ := keeps_mapM r.keeps_field c.fields p₁ fields p₂ hfields
  have hgrows₃ := keeps_mapM r.keeps_method c.methods p₂ methods p₃ hmethods
  have hgrows₄ := keeps_mapM r.keeps_classAttribute c.attributes p₃ attributes p₄ hattributes
  have h₂ := (h₁.grow hgrows₂).1
  have h₃ := (h₂.grow hgrows₃).1
  have hkeep : Extends p₂ p₄ := hgrows₃.keeps.trans hgrows₄.keeps
  refine ⟨hsource, (h₃.grow hgrows₄).1, ?_, rfl, rfl, rfl, rfl, rfl, ?_, ?_, ?_⟩
  · intro j old hold
    rw [← hsource] at hold
    exact (hplaced j old hold).extend (hgrows₂.keeps.trans hkeep)
  · exact (made_of_mapM r.keeps_field h₁ hfields).imp fun _ _ hmade => hmade.extend hkeep
  · rw [List.forall₂_map_right_iff]
    exact (made_of_mapM r.keeps_method h₂ hmethods).imp fun _ m hmade =>
      ⟨m.2, hmade.extend hgrows₄.keeps⟩
  · exact made_of_mapM r.keeps_classAttribute h₃ hattributes

/-- Only the constants of a pool matter, not its tables. -/
theorem Relabelled.of_slots_eq {c new : ClassFile} {pool : Pool} (h : Relabelled r c new)
    (hslots : pool.slots = new.pool.slots) (hpool : pool.WellFormed) :
    Relabelled r c { new with pool } := by
  have hext : Extends new.pool pool := fun j c hc => by rwa [hslots]
  have hunderway : Underway r pool := by
    refine ⟨hpool, h.underway.revises.trans hext.revises, ?_, fun j old hold => ?_⟩
    · intro j c hn hc
      rw [hslots] at hc
      exact h.underway.adds j c hn hc
    · rcases h.underway.partly j old hold with hsame | hplaced
      · exact Or.inl (hext j old hsame)
      · exact Or.inr (hplaced.extend hext)
  exact ⟨h.source, hunderway, fun j old hold => (h.placed j old hold).extend hext, h.version,
    h.access, h.thisClass, h.superClass, h.interfaces,
    h.fields.imp fun _ _ hmade => hmade.extend hext,
    h.methods.imp fun _ _ ⟨report, hmade⟩ => ⟨report, hmade.extend hext⟩,
    h.attributes.imp fun _ _ hmade => hmade.extend hext⟩

end Relabelling

namespace ClassFile

open Relabelling

/-- The row of the bootstrap method that a call site of `c` gives by its number. -/
def HasBootstrap (c : ClassFile) (k : UInt16) (row : BootstrapRow) : Prop :=
  ∃ a rows, Attribute.find? c.pool "BootstrapMethods" c.attributes = .ok (some a) ∧
    BootstrapRow.tableCodec.decode a.payload = .ok rows ∧ rows[k.toNat]? = some row

/-- What the relabelling of a class is made of. -/
structure Describes (c : ClassFile) (m : Mappings) (d : Option Dictionary) (r : Relabelling) :
    Prop where
  mappings : r.mappings = m
  dictionary : r.dictionary = d
  source : r.source = c.pool
  name : c.name = .ok r.owner
  bootstrap : ∀ k row, r.bootstraps[k.toNat]? = some row → c.HasBootstrap k row

theorem describes_of_relabelling {c : ClassFile} {m : Mappings} {d : Option Dictionary}
    {r : Relabelling} (h : c.relabelling m d = .ok r) : c.Describes m d r := by
  obtain ⟨owner, howner, h⟩ := Except.bind_eq_ok.mp h
  obtain ⟨found, hfound, h⟩ := Except.bind_eq_ok.mp h
  cases found with
  | none =>
    obtain rfl := Except.ok.inj h
    exact ⟨rfl, rfl, rfl, howner, fun k row hrow => by simp at hrow⟩
  | some a =>
    obtain ⟨rows, hrows, h⟩ := Except.bind_eq_ok.mp h
    obtain rfl := Except.ok.inj h
    exact ⟨rfl, rfl, rfl, howner, fun k row hrow => ⟨a, rows, hfound, hrows, hrow⟩⟩

/-- The bytes of a run that succeeds are those of a relabelled class. -/
theorem relabelled_of_relabel {c : ClassFile} {m : Mappings} {d : Option Dictionary}
    {out : RelabelledClass} (hc : c.Storable) (h : c.relabel m d = .ok out) :
    ∃ r new, c.Describes m d r ∧ out.name = m.renameClass r.owner ∧
      parse out.bytes = .ok new ∧ Relabelled r c new := by
  obtain ⟨owner, howner, h⟩ := Except.bind_eq_ok.mp h
  obtain ⟨⟨made, reports⟩, hmade, h⟩ := Except.bind_eq_ok.mp h
  obtain ⟨bs, hbs, h⟩ := Except.bind_eq_ok.mp h
  rw [← Except.pure_eq_ok.mp h]
  obtain ⟨r, hr, hmade⟩ := Except.bind_eq_ok.mp hmade
  have hdescribes := describes_of_relabelling hr
  split at hmade
  · rename_i new reports' q hparts
    obtain ⟨rfl, -⟩ := Prod.mk.inj (Except.ok.inj hmade)
    have hrelabelled := relabelled_of_parts hdescribes.source hc.pool hparts
    have hstorable : Storable { new with pool := q } :=
      ⟨by rw [hrelabelled.version]; exact hc.version, hrelabelled.underway.wellFormed⟩
    obtain ⟨pool, hslots, hparse⟩ := parse_of_encode hstorable hbs
    obtain rfl := Except.ok.inj (howner.symm.trans hdescribes.name)
    exact ⟨r, _, hdescribes, rfl, hparse,
      hrelabelled.of_slots_eq hslots (storable_of_parse hparse).pool⟩
  · simp at hmade

end ClassFile

/-! ## A local record

The record `A` with the component `f`, of a generic type, is declared in a method `e` of `O`.  The
field of the component has an annotation, and the method `m` has a call site, which a bootstrap
method `b` of the class itself links.  The mappings call the classes `B`, `P` and `J`, the field
`g` and the method of `O` `h`.  They have a name for the method `run` of `I` too, which the call
site does not take, because it makes no lambda. -/

namespace LocalRecord

def constants : List Constant :=
  [.utf8 "A", .classRef 1, .utf8 "f", .utf8 "LA;", .nameAndType 3 4, .member .field 2 5,
    .utf8 "Signature", .utf8 "LA<LI;>;", .utf8 "RuntimeVisibleAnnotations", .utf8 "LI;",
    .utf8 "Record", .utf8 "EnclosingMethod", .utf8 "O", .classRef 13, .utf8 "e", .utf8 "(LA;)V",
    .nameAndType 15 16, .utf8 "m", .utf8 "()LI;", .utf8 "Code", .utf8 "LocalVariableTable",
    .utf8 "this", .utf8 "run", .nameAndType 23 19, .invokeDynamic 0 24, .utf8 "BootstrapMethods",
    .utf8 "b", .nameAndType 27 19, .member .method 2 28, .methodHandle .invokeStatic 29,
    .utf8 "java/lang/Record", .classRef 31, .utf8 "()V", .methodType 33]

/-- The constants that the renamed class has behind them. -/
def newConstants : List Constant :=
  [.utf8 "B", .utf8 "g", .utf8 "LB;", .nameAndType 36 37, .utf8 "P", .utf8 "()LJ;",
    .nameAndType 23 40, .nameAndType 27 40, .utf8 "LB<LJ;>;", .utf8 "LJ;", .utf8 "h",
    .utf8 "(LB;)V", .nameAndType 45 46]

/-- Classes, members and the call site refer to the new names. -/
def renamedConstants : List Constant :=
  (((((constants.set 1 (.classRef 35)).set 5 (.member .field 2 38)).set 13 (.classRef 39)).set 24
    (.invokeDynamic 0 41)).set 28 (.member .method 2 42)) ++ newConstants

def poolOf (cs : List Constant) : Pool :=
  cs.foldl (fun p c => EStateM.after (push c) p) .empty

/-- The class with given indices of the names and types that it declares. -/
def classOf (cs : List Constant) (field type signature annotation site enclosing : UInt8) :
    ClassFile where
  version := ⟨60, 0⟩
  pool := poolOf cs
  access := ⟨0x10⟩
  thisClass := 2
  superClass := 32
  interfaces := []
  fields := [⟨⟨1⟩, field.toUInt16, type.toUInt16,
    [⟨7, [0, signature]⟩, ⟨9, [0, 1, 0, annotation, 0, 1, 0, 3, 99, 0, type]⟩]⟩]
  methods := [⟨⟨1⟩, 18, site.toUInt16,
    [⟨20, [0, 1, 0, 1, 0, 0, 0, 6, 186, 0, 25, 0, 0, 176, 0, 0, 0, 1, 0, 21, 0, 0, 0, 12, 0, 1,
      0, 0, 0, 6, 0, 22, 0, type, 0, 0]⟩]⟩]
  attributes := [⟨11, [0, 1, 0, field, 0, type, 0, 1, 0, 7, 0, 0, 0, 2, 0, signature]⟩,
    ⟨12, [0, 14, 0, enclosing]⟩, ⟨26, [0, 1, 0, 30, 0, 1, 0, 34]⟩]

def classFile : ClassFile := classOf constants 3 4 8 10 19 17

def renamed : ClassFile := classOf renamedConstants 36 37 43 44 40 47

def bytesOf (c : ClassFile) : Bytes := c.encode.toOption.getD []

def mappings : Mappings :=
  ((((Mappings.empty.nameClass "A" "B").nameField "A" "f" ⟨"g", none⟩).nameClass "I" "J").nameMethod
    "I" ⟨"run", "()V"⟩ "go").nameClass "O" "P" |>.nameMethod "O" ⟨"e", "(LA;)V"⟩ "h"

def relabelled : RelabelledClass := ⟨"A", "B", bytesOf renamed, []⟩

theorem parse_bytes : ClassFile.parse (bytesOf classFile) = .ok classFile := by decide +kernel

theorem relabel_classFile : classFile.relabel mappings none = .ok relabelled := by decide +kernel

end LocalRecord
end ClassRelabel
