/-
The meaning of the constants of a relabelled class.

`Pool.meaning` follows a constant to the texts it ends in.  `Meaning.Renamed c m` is what the
mappings `m` make of a meaning in the class `c`, stated without the pass over the pool: references
are looked up under the names they had, and a call site that makes a lambda under the method of
the interface it returns.  `meaning_of_relabel` is the theorem this file exists for: in the class
that a run writes every constant has kept its kind and means what its old meaning is renamed to.
-/
import ClassRelabel.Proofs.Relabel.Class

namespace ClassRelabel

/-- What a constant means once every index in it is followed. -/
inductive Meaning where
  /-- A text, a text that is no Unicode or a number, which mean themselves. -/
  | literal (c : Constant)
  | classRef (name : String)
  | string (text : String)
  | member (m : MemberRef)
  | named (t : NamedType)
  | methodHandle (kind : HandleKind) (m : MemberRef)
  | methodType (descriptor : String)
  | dynamic (bootstrap : UInt16) (t : NamedType)
  | invokeDynamic (bootstrap : UInt16) (t : NamedType)
  | moduleRef (name : String)
  | packageRef (name : String)
deriving DecidableEq, Repr

namespace Pool

/-- The meaning of the constant at an index, if it resolves. -/
def meaning (p : Pool) (i : Index) : Except Fault Meaning := do
  match ← p.constant i with
  | .classRef name => return .classRef (← p.text name)
  | .string text => return .string (← p.text text)
  | .member .. => return .member (← p.memberRef i)
  | .nameAndType .. => return .named (← p.namedType i)
  | .methodHandle kind reference => return .methodHandle kind (← p.memberRef reference)
  | .methodType descriptor => return .methodType (← p.text descriptor)
  | .dynamic bootstrap pair => return .dynamic bootstrap (← p.namedType pair)
  | .invokeDynamic bootstrap pair => return .invokeDynamic bootstrap (← p.namedType pair)
  | .moduleRef name => return .moduleRef (← p.text name)
  | .packageRef name => return .packageRef (← p.text name)
  | c => return .literal c

end Pool

/-! ## What meanings are renamed to -/

/-- The bootstrap method calls the factory `f`: statically, and as a method of a class. -/
def BootstrapRow.MakesLambda (p : Pool) (row : BootstrapRow) (f : LambdaFactory) : Prop :=
  p.methodHandle row.handle =
    .ok (.invokeStatic, ⟨.method, LambdaFactory.owner, f.name, f.descriptor⟩)

/-- The new name of a call site of `c` with its bootstrap method. -/
inductive CallSiteName (c : ClassFile) (m : Mappings) (bootstrap : UInt16) (site : NamedType) :
    String → Prop
  /-- The site implements a method of the interface it returns, whose descriptor is the first
  argument of the factory. -/
  | lambda {row : BootstrapRow} {f : LambdaFactory} {t : MethodType} {interface descriptor : String}
      {first : Index} (bootstraps : c.HasBootstrap bootstrap row)
      (makes : row.MakesLambda c.pool f) (type : MethodType.parse site.descriptor = .ok t)
      (returns : t.result = ⟨.object interface, 0⟩) (argument : row.arguments.head? = some first)
      (implements : c.pool.methodType first = .ok descriptor) :
      CallSiteName c m bootstrap site (m.renameMethod interface ⟨site.name, descriptor⟩)
  | other {row : BootstrapRow} (bootstraps : c.HasBootstrap bootstrap row)
      (makes : ∀ f, ¬row.MakesLambda c.pool f) : CallSiteName c m bootstrap site site.name

/-- A member under its new name, which is found under all that it was called before. -/
inductive MemberRef.Renamed (m : Mappings) : MemberRef → MemberRef → Prop
  | field {owner name descriptor new : String} (h : m.renameDescriptor descriptor = .ok new) :
      Renamed m ⟨.field, owner, name, descriptor⟩
        ⟨.field, m.renameClass owner, m.renameField owner name, new⟩
  | method {kind : MemberKind} {owner name descriptor new : String} (hkind : kind ≠ .field)
      (h : m.renameMethodType descriptor = .ok new) :
      Renamed m ⟨kind, owner, name, descriptor⟩
        ⟨kind, m.renameClass owner, m.renameMethod owner ⟨name, descriptor⟩, new⟩

/-- What the mappings make of a meaning in the class `c`. -/
inductive Meaning.Renamed (c : ClassFile) (m : Mappings) : Meaning → Meaning → Prop
  | classRef (name : String) : Renamed c m (.classRef name) (.classRef (m.renameClass name))
  | member {old new : MemberRef} (h : old.Renamed m new) : Renamed c m (.member old) (.member new)
  | methodHandle (kind : HandleKind) {old new : MemberRef} (h : old.Renamed m new) :
      Renamed c m (.methodHandle kind old) (.methodHandle kind new)
  | methodType {old new : String} (h : m.renameMethodType old = .ok new) :
      Renamed c m (.methodType old) (.methodType new)
  | dynamic (bootstrap : UInt16) {name old new : String} (h : m.renameDescriptor old = .ok new) :
      Renamed c m (.dynamic bootstrap ⟨name, old⟩) (.dynamic bootstrap ⟨name, new⟩)
  | invokeDynamic {bootstrap : UInt16} {name name' old new : String}
      (site : CallSiteName c m bootstrap ⟨name, old⟩ name')
      (h : m.renameMethodType old = .ok new) :
      Renamed c m (.invokeDynamic bootstrap ⟨name, old⟩) (.invokeDynamic bootstrap ⟨name', new⟩)
  | literal (k : Constant) : Renamed c m (.literal k) (.literal k)
  | string (text : String) : Renamed c m (.string text) (.string text)
  | named (t : NamedType) : Renamed c m (.named t) (.named t)
  | moduleRef (name : String) : Renamed c m (.moduleRef name) (.moduleRef name)
  | packageRef (name : String) : Renamed c m (.packageRef name) (.packageRef name)

/-! ## One meaning has one new name -/

theorem ClassFile.HasBootstrap.unique {c : ClassFile} {k : UInt16} {row row' : BootstrapRow}
    (h : c.HasBootstrap k row) (h' : c.HasBootstrap k row') : row = row' := by
  obtain ⟨a, rows, ha, hrows, hrow⟩ := h
  obtain ⟨a', rows', ha', hrows', hrow'⟩ := h'
  obtain rfl := Option.some.inj (Except.ok.inj (ha.symm.trans ha'))
  obtain rfl := Except.ok.inj (hrows.symm.trans hrows')
  exact Option.some.inj (hrow.symm.trans hrow')

theorem CallSiteName.unique {c : ClassFile} {m : Mappings} {bootstrap : UInt16} {site : NamedType}
    {name name' : String} (h : CallSiteName c m bootstrap site name)
    (h' : CallSiteName c m bootstrap site name') : name = name' := by
  cases h with
  | lambda hrow hmakes htype hreturns harg himpl =>
    cases h' with
    | lambda hrow' _ htype' hreturns' harg' himpl' =>
      obtain rfl := hrow.unique hrow'
      obtain rfl := Except.ok.inj (htype.symm.trans htype')
      obtain rfl := Option.some.inj (harg.symm.trans harg')
      obtain rfl := Except.ok.inj (himpl.symm.trans himpl')
      rw [hreturns] at hreturns'
      obtain rfl : _ = _ := by simpa using hreturns'
      rfl
    | other hrow' hno =>
      rw [← hrow.unique hrow'] at hno
      exact absurd hmakes (hno _)
  | other hrow hno =>
    cases h' with
    | lambda hrow' hmakes =>
      rw [hrow.unique hrow'] at hno
      exact absurd hmakes (hno _)
    | other => rfl

theorem MemberRef.Renamed.unique {m : Mappings} {old new new' : MemberRef}
    (h : old.Renamed m new) (h' : old.Renamed m new') : new = new' := by
  cases h with
  | field hd =>
    cases h' with
    | field hd' => rw [Except.ok.inj (hd.symm.trans hd')]
    | method hkind => exact absurd rfl hkind
  | method hkind hd =>
    cases h' with
    | field => exact absurd rfl hkind
    | method _ hd' => rw [Except.ok.inj (hd.symm.trans hd')]

theorem Meaning.Renamed.unique {c : ClassFile} {m : Mappings} {old new new' : Meaning}
    (h : old.Renamed c m new) (h' : old.Renamed c m new') : new = new' := by
  cases h with
  | member hm =>
    cases h' with
    | member hm' => rw [hm.unique hm']
  | methodHandle kind hm =>
    cases h' with
    | methodHandle _ hm' => rw [hm.unique hm']
  | methodType hd =>
    cases h' with
    | methodType hd' => rw [Except.ok.inj (hd.symm.trans hd')]
  | dynamic _ hd =>
    cases h' with
    | dynamic _ hd' => rw [Except.ok.inj (hd.symm.trans hd')]
  | invokeDynamic hsite hd =>
    cases h' with
    | invokeDynamic hsite' hd' => rw [hsite.unique hsite', Except.ok.inj (hd.symm.trans hd')]
  | _ =>
    cases h'
    rfl

/-! ## Call sites -/

namespace LambdaFactory

theorem ofMember?_eq_some {m : MemberRef} {f : LambdaFactory} (h : ofMember? m = some f) :
    m.name = f.name ∧ m.descriptor = f.descriptor := by
  have hf := List.find?_some h
  simpa using hf

theorem ofMember?_eq_none {m : MemberRef} (h : ofMember? m = none) (f : LambdaFactory) :
    ¬(m.name = f.name ∧ m.descriptor = f.descriptor) := by
  have hf := List.find?_eq_none.mp h f (by cases f <;> simp)
  simpa using hf

theorem makesLambda_of_identify {p : Pool} {row : BootstrapRow} {f : LambdaFactory}
    (h : identify p row = .ok (some f)) : row.MakesLambda p f := by
  obtain ⟨⟨kind, member⟩, hmember, h⟩ := Except.bind_eq_ok.mp h
  dsimp only at h
  split at h
  · rename_i htest
    obtain ⟨hname, hdescriptor⟩ := ofMember?_eq_some (Except.pure_eq_ok.mp h)
    simp only [Bool.and_eq_true, decide_eq_true_eq, beq_iff_eq] at htest
    obtain ⟨⟨rfl, hkind⟩, howner⟩ := htest
    rw [BootstrapRow.MakesLambda, hmember, ← hname, ← hdescriptor, ← howner, ← hkind]
  · simp [Except.pure_eq_ok] at h

theorem not_makesLambda_of_identify {p : Pool} {row : BootstrapRow}
    (h : identify p row = .ok none) (f : LambdaFactory) : ¬row.MakesLambda p f := by
  intro hf
  obtain ⟨⟨kind, member⟩, hmember, h⟩ := Except.bind_eq_ok.mp h
  obtain ⟨rfl, rfl⟩ := Prod.mk.inj (Except.ok.inj (hmember.symm.trans hf))
  have hnone : ofMember? _ = none := Except.pure_eq_ok.mp h
  exact ofMember?_eq_none hnone f ⟨rfl, rfl⟩

end LambdaFactory

namespace Relabelling

variable {r : Relabelling} {c new : ClassFile} {m : Mappings} {d : Option Dictionary} {i : Index}

theorem callSiteName_of_lambdaName {bootstrap : UInt16} {row : BootstrapRow} {f : LambdaFactory}
    {site : NamedType} {name : String} (hr : c.Describes m d r)
    (hrow : c.HasBootstrap bootstrap row) (hf : row.MakesLambda c.pool f)
    (h : r.lambdaName f row site = .ok name) : CallSiteName c m bootstrap site name := by
  obtain ⟨t, ht, h⟩ := Except.bind_eq_ok.mp h
  split at h
  · rename_i interface hresult
    split at h
    · rename_i first second third rest harguments
      obtain ⟨k, hk, h⟩ := Except.bind_eq_ok.mp h
      split at h
      · rename_i descriptor
        obtain ⟨text, htext, h⟩ := Except.bind_eq_ok.mp h
        rw [← Except.pure_eq_ok.mp h, hr.mappings]
        rw [hr.source] at hk htext
        have htype : c.pool.methodType first = .ok text :=
          Pool.methodType_eq_ok.mpr ⟨descriptor, (Pool.constant_eq_ok.mp hk).1, htext⟩
        exact .lambda hrow hf ht hresult (by rw [harguments, List.head?_cons]) htype
      · simp at h
    · simp at h
  · simp at h

theorem callSiteName_spec {bootstrap : UInt16} {site : NamedType} {name : String}
    (hr : c.Describes m d r) (h : r.callSiteName bootstrap site = .ok name) :
    CallSiteName c m bootstrap site name := by
  unfold callSiteName at h
  split at h
  · simp at h
  · rename_i row hrow
    have hbootstrap := hr.bootstrap bootstrap row hrow
    obtain ⟨found, hfound, h⟩ := Except.bind_eq_ok.mp h
    rw [hr.source] at hfound
    cases found with
    | none =>
      rw [← Except.pure_eq_ok.mp h]
      exact .other hbootstrap (LambdaFactory.not_makesLambda_of_identify hfound)
    | some f =>
      exact callSiteName_of_lambdaName hr hbootstrap
        (LambdaFactory.makesLambda_of_identify hfound) h

/-! ## Members and other references -/

theorem renamed_of_memberType {kind : MemberKind} {owner : String} {old new : NamedType}
    (h : r.memberType kind owner old = .ok new) :
    MemberRef.Renamed r.mappings ⟨kind, owner, old.name, old.descriptor⟩
      ⟨kind, r.mappings.renameClass owner, new.name, new.descriptor⟩ := by
  cases kind with
  | field =>
    obtain ⟨descriptor, hdescriptor, h⟩ := Except.bind_eq_ok.mp h
    rw [← Except.pure_eq_ok.mp h]
    exact .field hdescriptor
  | method =>
    obtain ⟨descriptor, hdescriptor, h⟩ := Except.bind_eq_ok.mp h
    rw [← Except.pure_eq_ok.mp h]
    exact .method (by simp) hdescriptor
  | interfaceMethod =>
    obtain ⟨descriptor, hdescriptor, h⟩ := Except.bind_eq_ok.mp h
    rw [← Except.pure_eq_ok.mp h]
    exact .method (by simp) hdescriptor

/-- A class resolves to its new name at the same index. -/
theorem Relabelled.className {name : String} (h : Relabelled r c new)
    (hname : c.pool.className i = .ok name) :
    new.pool.className i = .ok (r.mappings.renameClass name) := by
  obtain ⟨n, hslot, htext⟩ := Pool.className_eq_ok.mp hname
  obtain ⟨k, hk, hrenames⟩ := h.placed i.toNat _ hslot
  cases hrenames with
  | classRef hold hnew =>
    rw [h.source, htext] at hold
    rw [← Except.ok.inj hold] at hnew
    exact Pool.className_eq_ok.mpr ⟨_, hk, hnew⟩
  | same hsame => simp [Constant.isReference] at hsame

/-- A reference to a member resolves to the renamed member at the same index. -/
theorem Relabelled.memberRef {old : MemberRef} (h : Relabelled r c new)
    (hold : c.pool.memberRef i = .ok old) :
    ∃ renamed, old.Renamed r.mappings renamed ∧ new.pool.memberRef i = .ok renamed := by
  obtain ⟨owner, pair, hslot, howner, hnamed⟩ := Pool.memberRef_eq_ok.mp hold
  obtain ⟨k, hk, hrenames⟩ := h.placed i.toNat _ hslot
  cases hrenames with
  | @member _ _ _ _ ownerName named renamed howned hwas hmapped hnew =>
    rw [h.source] at howned hwas
    obtain rfl := Except.ok.inj (howner.symm.trans howned)
    obtain rfl := Except.ok.inj (hnamed.symm.trans hwas)
    refine ⟨_, renamed_of_memberType hmapped, ?_⟩
    exact Pool.memberRef_eq_ok.mpr ⟨owner, _, hk, h.className howner, hnew⟩
  | same hsame => simp [Constant.isReference] at hsame

theorem Relabelled.text {text : String} (h : Relabelled r c new)
    (htext : c.pool.text i = .ok text) : new.pool.text i = .ok text := by
  have hrevises := h.underway.revises
  rw [h.source] at hrevises
  exact hrevises.text htext

theorem Relabelled.namedType {t : NamedType} (h : Relabelled r c new)
    (ht : c.pool.namedType i = .ok t) : new.pool.namedType i = .ok t := by
  have hrevises := h.underway.revises
  rw [h.source] at hrevises
  exact hrevises.namedType ht

/-- A constant that stands as it was means what it meant, but for the member of a handle. -/
theorem Relabelled.meaning_of_same {k : Constant} {old : Meaning} (h : Relabelled r c new)
    (hr : c.Describes m d r) (hkept : k.isReference = false) (hk : c.pool.constant i = .ok k)
    (hk' : new.pool.constant i = .ok k) (hold : c.pool.meaning i = .ok old) :
    ∃ renamed, old.Renamed c m renamed ∧ new.pool.meaning i = .ok renamed := by
  obtain ⟨k, hslot, hold⟩ := Except.bind_eq_ok.mp hold
  obtain rfl := Except.ok.inj (hslot.symm.trans hk)
  cases k with
  | classRef | member | methodType | dynamic | invokeDynamic =>
    simp [Constant.isReference] at hkept
  | string =>
    obtain ⟨text, htext, hold⟩ := Except.bind_eq_ok.mp hold
    rw [← Except.pure_eq_ok.mp hold]
    exact ⟨_, .string text, Except.bind_eq_ok.mpr ⟨_, hk',
      Except.bind_eq_ok.mpr ⟨_, h.text htext, rfl⟩⟩⟩
  | nameAndType =>
    obtain ⟨t, ht, hold⟩ := Except.bind_eq_ok.mp hold
    rw [← Except.pure_eq_ok.mp hold]
    exact ⟨_, .named t, Except.bind_eq_ok.mpr ⟨_, hk',
      Except.bind_eq_ok.mpr ⟨_, h.namedType ht, rfl⟩⟩⟩
  | methodHandle kind reference =>
    obtain ⟨member, hmember, hold⟩ := Except.bind_eq_ok.mp hold
    rw [← Except.pure_eq_ok.mp hold]
    obtain ⟨renamed, hrenamed, hnew⟩ := h.memberRef hmember
    rw [hr.mappings] at hrenamed
    exact ⟨_, .methodHandle kind hrenamed, Except.bind_eq_ok.mpr ⟨_, hk',
      Except.bind_eq_ok.mpr ⟨_, hnew, rfl⟩⟩⟩
  | moduleRef =>
    obtain ⟨name, hname, hold⟩ := Except.bind_eq_ok.mp hold
    rw [← Except.pure_eq_ok.mp hold]
    exact ⟨_, .moduleRef name, Except.bind_eq_ok.mpr ⟨_, hk',
      Except.bind_eq_ok.mpr ⟨_, h.text hname, rfl⟩⟩⟩
  | packageRef =>
    obtain ⟨name, hname, hold⟩ := Except.bind_eq_ok.mp hold
    rw [← Except.pure_eq_ok.mp hold]
    exact ⟨_, .packageRef name, Except.bind_eq_ok.mpr ⟨_, hk',
      Except.bind_eq_ok.mpr ⟨_, h.text hname, rfl⟩⟩⟩
  | _ =>
    rw [← Except.pure_eq_ok.mp hold]
    exact ⟨_, .literal _, Except.bind_eq_ok.mpr ⟨_, hk', rfl⟩⟩

/-- What resolves in the class before resolves in the new one to what it is renamed to. -/
theorem Relabelled.meaning {old : Meaning} (h : Relabelled r c new) (hr : c.Describes m d r)
    (hmeaning : c.pool.meaning i = .ok old) :
    ∃ renamed, old.Renamed c m renamed ∧ new.pool.meaning i = .ok renamed := by
  obtain ⟨k, hk, hold⟩ := Except.bind_eq_ok.mp hmeaning
  obtain ⟨hslot, husable⟩ := Pool.constant_eq_ok.mp hk
  obtain ⟨k', hslot', hrenames⟩ := h.placed i.toNat k hslot
  have hk' : k' ≠ .unusable → new.pool.constant i = .ok k' := fun hne =>
    Pool.constant_eq_ok.mpr ⟨hslot', hne⟩
  cases hrenames with
  | classRef hwas hnew =>
    obtain ⟨name, hname, hold⟩ := Except.bind_eq_ok.mp hold
    rw [h.source, hname] at hwas
    rw [← Except.ok.inj hwas, hr.mappings] at hnew
    rw [← Except.pure_eq_ok.mp hold]
    exact ⟨_, .classRef name, Except.bind_eq_ok.mpr ⟨_, hk' (by simp),
      Except.bind_eq_ok.mpr ⟨_, hnew, rfl⟩⟩⟩
  | member howned hwas hmapped hnew =>
    obtain ⟨member, hmember, hold⟩ := Except.bind_eq_ok.mp hold
    rw [← Except.pure_eq_ok.mp hold]
    obtain ⟨renamed, hrenamed, hnew⟩ := h.memberRef hmember
    rw [hr.mappings] at hrenamed
    exact ⟨_, .member hrenamed, Except.bind_eq_ok.mpr ⟨_, hk' (by simp),
      Except.bind_eq_ok.mpr ⟨_, hnew, rfl⟩⟩⟩
  | methodType hwas hmapped hnew =>
    obtain ⟨descriptor, hdescriptor, hold⟩ := Except.bind_eq_ok.mp hold
    rw [h.source, hdescriptor] at hwas
    rw [← Except.ok.inj hwas, hr.mappings] at hmapped
    rw [← Except.pure_eq_ok.mp hold]
    exact ⟨_, .methodType hmapped, Except.bind_eq_ok.mpr ⟨_, hk' (by simp),
      Except.bind_eq_ok.mpr ⟨_, hnew, rfl⟩⟩⟩
  | dynamic hwas hmapped hnew =>
    obtain ⟨t, ht, hold⟩ := Except.bind_eq_ok.mp hold
    rw [h.source, ht] at hwas
    rw [← Except.ok.inj hwas] at hmapped hnew
    rw [hr.mappings] at hmapped
    rw [← Except.pure_eq_ok.mp hold]
    exact ⟨_, .dynamic _ hmapped, Except.bind_eq_ok.mpr ⟨_, hk' (by simp),
      Except.bind_eq_ok.mpr ⟨_, hnew, rfl⟩⟩⟩
  | invokeDynamic hwas hsite hmapped hnew =>
    obtain ⟨t, ht, hold⟩ := Except.bind_eq_ok.mp hold
    rw [h.source, ht] at hwas
    rw [← Except.ok.inj hwas] at hsite hmapped
    rw [hr.mappings] at hmapped
    rw [← Except.pure_eq_ok.mp hold]
    exact ⟨_, .invokeDynamic (callSiteName_spec hr hsite) hmapped,
      Except.bind_eq_ok.mpr ⟨_, hk' (by simp), Except.bind_eq_ok.mpr ⟨_, hnew, rfl⟩⟩⟩
  | same hkept => exact h.meaning_of_same hr hkept hk (hk' husable) hmeaning

end Relabelling

namespace ClassFile

open Relabelling

/-- In the class that a run writes, every index of the class before holds a constant of the same
kind, changed at most in the index by which it reaches a name, and every constant that resolved
resolves to what its meaning is renamed to. -/
theorem meaning_of_relabel {bs : Bytes} {c : ClassFile} {m : Mappings} {d : Option Dictionary}
    {out : RelabelledClass} (hparse : parse bs = .ok c) (h : c.relabel m d = .ok out) :
    ∃ new, parse out.bytes = .ok new ∧ ∀ i : Index,
      (∀ k, c.pool.slots[i.toNat]? = some k →
        ∃ k', new.pool.slots[i.toNat]? = some k' ∧ k'.frame = k.frame) ∧
      ∀ old, c.pool.meaning i = .ok old →
        ∃ renamed, old.Renamed c m renamed ∧ new.pool.meaning i = .ok renamed := by
  obtain ⟨r, new, hr, -, hnew, hrelabelled⟩ :=
    relabelled_of_relabel (storable_of_parse hparse) h
  refine ⟨new, hnew, fun i => ⟨fun k hk => ?_, fun old hold => hrelabelled.meaning hr hold⟩⟩
  obtain ⟨k', hk', hrenames⟩ := hrelabelled.placed i.toNat k hk
  exact ⟨k', hk', hrenames.frame_eq⟩

theorem meaning_of_relabel_localRecord :
    parse (LocalRecord.bytesOf LocalRecord.classFile) = .ok LocalRecord.classFile ∧
      LocalRecord.classFile.relabel LocalRecord.mappings none = .ok LocalRecord.relabelled ∧
      ∃ new, parse LocalRecord.relabelled.bytes = .ok new ∧ ∀ i : Index,
        (∀ k, LocalRecord.classFile.pool.slots[i.toNat]? = some k →
          ∃ k', new.pool.slots[i.toNat]? = some k' ∧ k'.frame = k.frame) ∧
        ∀ old, LocalRecord.classFile.pool.meaning i = .ok old →
          ∃ renamed, old.Renamed LocalRecord.classFile LocalRecord.mappings renamed ∧
            new.pool.meaning i = .ok renamed :=
  ⟨LocalRecord.parse_bytes, LocalRecord.relabel_classFile,
    meaning_of_relabel LocalRecord.parse_bytes LocalRecord.relabel_classFile⟩

end ClassFile
end ClassRelabel
