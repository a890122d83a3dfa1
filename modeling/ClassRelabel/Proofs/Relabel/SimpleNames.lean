/-
Simple names of nested classes.

A class may list the classes that are nested in others by their simple names.  The simple name
recorded for a relabelled class is what its new name adds to the new name of the class around it,
without digits in front, so that anonymous classes stay without a name.  Where that is a simple name
as nested classes have it, the new row nests the new names as the old one nested the old names.
`simpleNames_of_relabel` says so for the class that the bytes of a run are parsed to.
-/
import ClassRelabel.Proofs.Naming.Class
import ClassRelabel.Proofs.Naming.Identity
import ClassRelabel.Proofs.Relabel.Declarations
import ClassRelabel.Proofs.Relabel.Meaning

namespace ClassRelabel

/-! ## Simple names -/

/-- What is left of a text without the digits that it begins with. -/
def Text.dropDigits (t : String) : String :=
  String.ofList (t.toList.dropWhile fun c => '0' ≤ c && c ≤ '9')

/-- A name that tells its class apart in the class around it: nothing is nested in it, and it does
not begin with the number of an anonymous or a local class. -/
structure IsSimpleName (t : String) : Prop where
  nonempty : t ≠ ""
  segment : '$' ∉ t.toList
  head : ∀ c, t.toList.head? = some c → ¬('0' ≤ c ∧ c ≤ '9')

theorem Text.dropDigits_of_head {t : String}
    (h : ∀ c, t.toList.head? = some c → ¬('0' ≤ c ∧ c ≤ '9')) : dropDigits t = t := by
  have hdrop : (t.toList.dropWhile fun c => '0' ≤ c && c ≤ '9') = t.toList := by
    cases hchars : t.toList with
    | nil => rfl
    | cons c cs => exact List.dropWhile_cons_of_neg (by simpa using h c (by rw [hchars]; rfl))
  rw [dropDigits, hdrop, String.ofList_toList]

theorem toList_nested (outer simple : String) :
    (outer ++ "$" ++ simple).toList = outer.toList ++ '$' :: simple.toList := by
  rw [String.toList_append, String.toList_append, List.append_assoc]
  rfl

namespace Mappings

variable {m : Mappings}

theorem renameSimple_of_nested {inner around t : String}
    (h : m.renameClass inner = around ++ "$" ++ t) (ht : '$' ∉ t.toList) (simple : String) :
    m.renameSimple inner simple = Text.dropDigits t := by
  have hsplit : Text.splitLast? '$' (m.renameClass inner).toList =
      some (around.toList, t.toList) :=
    Text.splitLast?_eq_some.mpr ⟨by rw [h, toList_nested], ht⟩
  rw [renameSimple, hsplit, Text.dropDigits]

/-- A class that has no new name of its own follows the class around it and keeps its simple
name. -/
theorem renameClass_nested {outer simple : String} (houter : IsInternalName outer)
    (hsimple : IsSimpleName simple) (hnone : m.className? (outer ++ "$" ++ simple) = none) :
    m.renameClass (outer ++ "$" ++ simple) = m.renameClass outer ++ "$" ++ simple := by
  have hchars := toList_nested outer simple
  have houter' : outer.toList ≠ [] := houter.1
  have hhead : (outer ++ "$" ++ simple).toList.head? ≠ some '[' := by
    rw [hchars, List.head?_append_of_ne_nil _ houter']
    exact head?_of_isInternalName houter
  have hfollows : m.Follows (outer.toList ++ '$' :: simple.toList)
      (m.renameChars outer.toList ++ '$' :: simple.toList) := by
    refine (follows_renameChars m outer.toList).snoc houter' ?_ hsimple.segment ?_
    · simpa using hsimple.nonempty
    · rw [← hchars, String.ofList_toList]
      exact hnone
  refine String.toList_inj.mp ?_
  rw [renameClass_of_head? hhead, renameClass_of_isInternalName houter, toList_renamePlain, hchars,
    toList_nested, toList_renamePlain]
  exact renameChars_eq_iff.mpr hfollows

end Mappings

/-! ## Rows -/

namespace InnerClassRow

/-- The row is about the class `inner`, which is `simple` in the class `outer`. -/
structure Nests (p : Pool) (row : InnerClassRow) (outer inner simple : String) : Prop where
  outerName : p.className row.outer = .ok outer
  innerName : p.className row.inner = .ok inner
  simpleName : p.text row.name = .ok simple
  nested : inner = outer ++ "$" ++ simple

/-- The row of the class `inner` after a relabelling. -/
structure Renested (m : Mappings) (q : Pool) (new : InnerClassRow) (outer inner simple : String) :
    Prop where
  /-- What the new name adds is recorded without digits in front. -/
  stripped : ∀ t, m.renameClass inner = m.renameClass outer ++ "$" ++ t → '$' ∉ t.toList →
    q.text new.name = .ok (Text.dropDigits t)
  renamed : ∀ t, m.renameClass inner = m.renameClass outer ++ "$" ++ t → IsSimpleName t →
    new.Nests q (m.renameClass outer) (m.renameClass inner) t
  unchanged : m.renameClass outer = outer → m.renameClass inner = inner → IsSimpleName simple →
    new.Nests q outer inner simple
  /-- The class around may be renamed while the class itself has no new name. -/
  followed : m.className? inner = none → IsInternalName outer → IsSimpleName simple →
    new.Nests q (m.renameClass outer) (m.renameClass outer ++ "$" ++ simple) simple

/-- A row that is kept up to its simple name, which goes with the new names. -/
structure FollowsNames (m : Mappings) (p q : Pool) (old new : InnerClassRow) : Prop where
  frame : new.frame = old.frame
  nested : ∀ outer inner simple, old.Nests p outer inner simple →
    new.Renested m q outer inner simple

theorem outer_eq_of_frame {old new : InnerClassRow} (h : new.frame = old.frame) :
    new.outer = old.outer := by
  injection h

theorem inner_eq_of_frame {old new : InnerClassRow} (h : new.frame = old.frame) :
    new.inner = old.inner := by
  injection h

end InnerClassRow

namespace Relabelling

variable {r : Relabelling} {c new : ClassFile} {old row : InnerClassRow}

theorem Relabelled.followsNames (h : Relabelled r c new) (hc : c.pool.WellFormed)
    (hrow : old.Renamed r.mappings c.pool new.pool row) :
    old.FollowsNames r.mappings c.pool new.pool row := by
  refine ⟨hrow.frame, fun outer inner simple hnests => ?_⟩
  have hne : old.name ≠ 0 := fun hzero => by
    have hslot := Pool.text_eq_ok.mp hnests.simpleName
    rw [hzero, UInt16.toNat_zero, hc.zero] at hslot
    nomatch hslot
  obtain ⟨inner', hinner', simple', new', hsimple', hnew', htext⟩ := hrow.named hne
  obtain rfl := Except.ok.inj (hnests.innerName.symm.trans hinner')
  obtain rfl := Except.ok.inj (hnests.simpleName.symm.trans hsimple')
  obtain rfl := Except.ok.inj hnew'
  have houter : new.pool.className row.outer = .ok (r.mappings.renameClass outer) := by
    rw [InnerClassRow.outer_eq_of_frame hrow.frame]
    exact h.className hnests.outerName
  have hinner : new.pool.className row.inner = .ok (r.mappings.renameClass inner) := by
    rw [InnerClassRow.inner_eq_of_frame hrow.frame]
    exact h.className hnests.innerName
  have hstripped : ∀ t, r.mappings.renameClass inner = r.mappings.renameClass outer ++ "$" ++ t →
      '$' ∉ t.toList → new.pool.text row.name = .ok (Text.dropDigits t) := fun t ht hsegment => by
    rw [htext, Mappings.renameSimple_of_nested ht hsegment]
  have hrenamed : ∀ t, r.mappings.renameClass inner = r.mappings.renameClass outer ++ "$" ++ t →
      IsSimpleName t → row.Nests new.pool (r.mappings.renameClass outer)
        (r.mappings.renameClass inner) t := fun t ht hsimple => by
    refine ⟨houter, hinner, ?_, ht⟩
    rw [hstripped t ht hsimple.segment, Text.dropDigits_of_head hsimple.head]
  refine ⟨hstripped, hrenamed, fun hsameOuter hsameInner hsimple => ?_,
    fun hnone hplain hsimple => ?_⟩
  · have hnested := hrenamed simple (by rw [hsameOuter, hsameInner, hnests.nested]) hsimple
    rwa [hsameOuter, hsameInner] at hnested
  · have hname : r.mappings.renameClass inner = r.mappings.renameClass outer ++ "$" ++ simple := by
      rw [hnests.nested] at hnone ⊢
      exact Mappings.renameClass_nested hplain hsimple hnone
    rw [← hname]
    exact hrenamed simple hname hsimple

end Relabelling

namespace ClassFile

open Relabelling

/-- The simple names that a relabelled class records go with the new names of the classes. -/
theorem simpleNames_of_relabel {bs : Bytes} {c : ClassFile} {m : Mappings} {d : Option Dictionary}
    {out : RelabelledClass} (hparse : parse bs = .ok c) (h : c.relabel m d = .ok out) :
    ∃ new, parse out.bytes = .ok new ∧
      (∀ i text, c.pool.text i = .ok text → new.pool.text i = .ok text) ∧
        List.Forall₂ (Attribute.Kept c.pool fun name before after => name = "InnerClasses" →
          SamePayload InnerClassRow.tableCodec
            (List.Forall₂ (InnerClassRow.FollowsNames m c.pool new.pool)) before after)
          c.attributes new.attributes := by
  have hpool := (storable_of_parse hparse).pool
  obtain ⟨r, new, hr, -, hnew, hrelabelled⟩ := relabelled_of_relabel (storable_of_parse hparse) h
  refine ⟨new, hnew, fun i text htext => hrelabelled.text htext,
    hrelabelled.attributes.imp fun a a' hmade => ?_⟩
  obtain ⟨hsame, name, hname, hpayload⟩ := hmade.of_yields (r.yields_classAttribute _ a)
  rw [hr.source] at hname hpayload
  refine ⟨hsame, name, hname, fun hinner => ?_⟩
  subst hinner
  obtain ⟨rows, rows', hrows, hrows', hrenamed⟩ := hpayload
  refine ⟨rows, rows', hrows, hrows', hrenamed.imp fun old row hrow => ?_⟩
  rw [← hr.mappings]
  exact hrelabelled.followsNames hpool hrow

end ClassFile

/-! ## Three nested classes

In the class `a` are nested `b`, a class with the name `1` of an anonymous one and a class whose
simple name `b$c` holds a `$`. -/

namespace NestedClasses

def bytes : Bytes :=
  [202, 254, 186, 190, 0, 0, 0, 52, 0, 13, 1, 0, 1, 97, 7, 0, 1, 1, 0, 5, 97, 36, 98, 36, 99, 7, 0,
    3, 1, 0, 3, 98, 36, 99, 1, 0, 12, 73, 110, 110, 101, 114, 67, 108, 97, 115, 115, 101, 115, 1, 0,
    3, 97, 36, 49, 7, 0, 7, 1, 0, 1, 49, 1, 0, 3, 97, 36, 98, 7, 0, 10, 1, 0, 1, 98, 0, 0, 0, 2, 0,
    0, 0, 0, 0, 0, 0, 0, 0, 1, 0, 6, 0, 0, 0, 26, 0, 3, 0, 11, 0, 2, 0, 12, 0, 0, 0, 8, 0, 2, 0, 9,
    0, 0, 0, 4, 0, 2, 0, 5, 0, 0]

def pool : Pool where
  slots := #[.unusable, .utf8 "a", .classRef 1, .utf8 "a$b$c", .classRef 3, .utf8 "b$c",
    .utf8 "InnerClasses", .utf8 "a$1", .classRef 7, .utf8 "1", .utf8 "a$b", .classRef 10, .utf8 "b"]
  texts := .ofList [("a", 1), ("a$b$c", 3), ("b$c", 5), ("InnerClasses", 6), ("a$1", 7), ("1", 9),
    ("a$b", 10), ("b", 12)] compare
  classes := .ofList [(1, 2), (3, 4), (7, 8), (10, 11)] compare
  pairs := ∅

def member : InnerClassRow := ⟨11, 2, 12, 0⟩

def numbered : InnerClassRow := ⟨8, 2, 9, 0⟩

def joined : InnerClassRow := ⟨4, 2, 5, 0⟩

def table : Bytes :=
  [0, 3, 0, 11, 0, 2, 0, 12, 0, 0, 0, 8, 0, 2, 0, 9, 0, 0, 0, 4, 0, 2, 0, 5, 0, 0]

def classFile : ClassFile :=
  ⟨⟨52, 0⟩, pool, ⟨0⟩, 2, 0, [], [], [], [⟨6, table⟩]⟩

def mappings : Mappings :=
  (Mappings.empty.nameClass "a" "net/Outer").nameClass "a$b" "net/Outer$Entry"

def relabelled : RelabelledClass where
  formerName := "a"
  name := "net/Outer"
  bytes := [202, 254, 186, 190, 0, 0, 0, 52, 0, 20, 1, 0, 1, 97, 7, 0, 13, 1, 0, 5, 97, 36, 98, 36,
    99, 7, 0, 14, 1, 0, 3, 98, 36, 99, 1, 0, 12, 73, 110, 110, 101, 114, 67, 108, 97, 115, 115, 101,
    115, 1, 0, 3, 97, 36, 49, 7, 0, 15, 1, 0, 1, 49, 1, 0, 3, 97, 36, 98, 7, 0, 16, 1, 0, 1, 98, 1,
    0, 9, 110, 101, 116, 47, 79, 117, 116, 101, 114, 1, 0, 17, 110, 101, 116, 47, 79, 117, 116, 101,
    114, 36, 69, 110, 116, 114, 121, 36, 99, 1, 0, 11, 110, 101, 116, 47, 79, 117, 116, 101, 114,
    36, 49, 1, 0, 15, 110, 101, 116, 47, 79, 117, 116, 101, 114, 36, 69, 110, 116, 114, 121, 1, 0,
    5, 69, 110, 116, 114, 121, 1, 0, 0, 1, 0, 1, 99, 0, 0, 0, 2, 0, 0, 0, 0, 0, 0, 0, 0, 0, 1, 0, 6,
    0, 0, 0, 26, 0, 3, 0, 11, 0, 2, 0, 17, 0, 0, 0, 8, 0, 2, 0, 18, 0, 0, 0, 4, 0, 2, 0, 19, 0, 0]
  parameterNames := []

/-- What a run without mappings makes of the class. -/
def stripped : RelabelledClass where
  formerName := "a"
  name := "a"
  bytes := [202, 254, 186, 190, 0, 0, 0, 52, 0, 15, 1, 0, 1, 97, 7, 0, 1, 1, 0, 5, 97, 36, 98, 36,
    99, 7, 0, 3, 1, 0, 3, 98, 36, 99, 1, 0, 12, 73, 110, 110, 101, 114, 67, 108, 97, 115, 115, 101,
    115, 1, 0, 3, 97, 36, 49, 7, 0, 7, 1, 0, 1, 49, 1, 0, 3, 97, 36, 98, 7, 0, 10, 1, 0, 1, 98, 1,
    0, 0, 1, 0, 1, 99, 0, 0, 0, 2, 0, 0, 0, 0, 0, 0, 0, 0, 0, 1, 0, 6, 0, 0, 0, 26, 0, 3, 0, 11, 0,
    2, 0, 12, 0, 0, 0, 8, 0, 2, 0, 13, 0, 0, 0, 4, 0, 2, 0, 14, 0, 0]
  parameterNames := []

def strippedPool : Pool where
  slots := pool.slots ++ #[.utf8 "", .utf8 "c"]
  texts := (pool.texts.insert "" 13).insert "c" 14
  classes := pool.classes
  pairs := ∅

def strippedTable : Bytes :=
  [0, 3, 0, 11, 0, 2, 0, 12, 0, 0, 0, 8, 0, 2, 0, 13, 0, 0, 0, 4, 0, 2, 0, 14, 0, 0]

def strippedFile : ClassFile :=
  { classFile with pool := strippedPool, attributes := [⟨6, strippedTable⟩] }

theorem parse_bytes : ClassFile.parse bytes = .ok classFile := by decide +kernel

theorem relabel_classFile : classFile.relabel mappings none = .ok relabelled := by decide +kernel

theorem isSimpleName_entry : IsSimpleName "Entry" := by
  refine ⟨by decide, by decide, fun c hc => ?_⟩
  obtain rfl := Option.some.inj hc
  decide

end NestedClasses

namespace ClassFile

theorem simpleNames_of_relabel_nestedClasses :
    parse NestedClasses.bytes = .ok NestedClasses.classFile ∧
      NestedClasses.classFile.relabel NestedClasses.mappings none =
        .ok NestedClasses.relabelled ∧
      NestedClasses.member.Nests NestedClasses.pool "a" "a$b" "b" ∧
      NestedClasses.mappings.renameClass "a$b" =
        NestedClasses.mappings.renameClass "a" ++ "$" ++ "Entry" ∧ IsSimpleName "Entry" ∧
      ∃ new, parse NestedClasses.relabelled.bytes = .ok new ∧
        (∀ i text, NestedClasses.pool.text i = .ok text → new.pool.text i = .ok text) ∧
          List.Forall₂ (Attribute.Kept NestedClasses.pool fun name before after =>
            name = "InnerClasses" → SamePayload InnerClassRow.tableCodec
              (List.Forall₂ (InnerClassRow.FollowsNames NestedClasses.mappings NestedClasses.pool
                new.pool)) before after)
            NestedClasses.classFile.attributes new.attributes :=
  ⟨NestedClasses.parse_bytes, NestedClasses.relabel_classFile, ⟨rfl, rfl, rfl, rfl⟩,
    by decide +kernel, NestedClasses.isSimpleName_entry,
    simpleNames_of_relabel NestedClasses.parse_bytes NestedClasses.relabel_classFile⟩

/-- Without any mappings the new names add to the name of `a` what the old ones did, but the class
`a$1` is no longer called `1` and the class `a$b$c` no longer `b$c`. -/
theorem simpleNames_lost_nestedClasses :
    parse NestedClasses.bytes = .ok NestedClasses.classFile ∧
      NestedClasses.classFile.relabel .empty none = .ok NestedClasses.stripped ∧
      InnerClassRow.tableCodec.decode NestedClasses.table =
        .ok [NestedClasses.member, NestedClasses.numbered, NestedClasses.joined] ∧
      NestedClasses.numbered.Nests NestedClasses.pool "a" "a$1" "1" ∧
      NestedClasses.joined.Nests NestedClasses.pool "a" "a$b$c" "b$c" ∧
      Mappings.empty.renameClass "a$1" = Mappings.empty.renameClass "a" ++ "$" ++ "1" ∧
      Mappings.empty.renameClass "a$b$c" = Mappings.empty.renameClass "a" ++ "$" ++ "b$c" ∧
      parse NestedClasses.stripped.bytes = .ok NestedClasses.strippedFile ∧
      InnerClassRow.tableCodec.decode NestedClasses.strippedTable =
        .ok [NestedClasses.member, { NestedClasses.numbered with name := 13 },
          { NestedClasses.joined with name := 14 }] ∧
      NestedClasses.strippedFile.pool.text 13 = .ok "" ∧
      NestedClasses.strippedFile.pool.text 14 = .ok "c" := by
  have hkept : ∀ name, Mappings.empty.renameClass name = name :=
    Mappings.isIdentity_empty.renameClass
  refine ⟨NestedClasses.parse_bytes, by decide +kernel, by decide +kernel, ⟨rfl, rfl, rfl, rfl⟩,
    ⟨rfl, rfl, rfl, rfl⟩, ?_, ?_, by decide +kernel, by decide +kernel, rfl, rfl⟩
  · rw [hkept, hkept]
    rfl
  · rw [hkept, hkept]
    rfl

end ClassFile
end ClassRelabel
