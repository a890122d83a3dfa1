/-
Signatures and descriptors of one class.

A signature spells a nested class segment by segment, with type arguments, and a descriptor spells
its name as a whole.  `erased` turns the first into the second.  Both are renamed, each by its own
rule, and `NamedAlike` says that they are renamed to the same class.

`namedAlike_iff` is the exact condition: each nested class has to stay within the class around it.
One that was moved elsewhere has no segment that the new name of the class around it could be
continued with, and its signature then names a class that the descriptor does not
(`MovedClass.not_namedAlike`).
-/
import ClassRelabel.Proofs.Naming.Class
import ClassRelabel.Proofs.Naming.Identity
import ClassRelabel.Proofs.Signature.Renaming

namespace ClassRelabel
namespace Grammar

/-! ## Erasure -/

/-- What is left of the text behind `depth` open brackets when nothing in brackets is kept and a
`$` is put for each dot. -/
def erasedFrom : Nat → List Char → List Char
  | _, [] => []
  | depth, c :: cs =>
    if c = '<' then
      erasedFrom (depth + 1) cs
    else if c = '>' then
      erasedFrom (depth - 1) cs
    else if depth = 0 then
      (if c = '.' then '$' else c) :: erasedFrom depth cs
    else
      erasedFrom depth cs

/-- The signature of a class without its type arguments, as a descriptor. -/
def erased (signature : List Char) : List Char := erasedFrom 0 signature

/-- Text that leaves as many brackets open as it found. -/
inductive Balanced : List Char → Prop
  | plain {cs : List Char} (h : ∀ c ∈ cs, c ∉ ['<', '>']) : Balanced cs
  | append {cs cs' : List Char} (h : Balanced cs) (h' : Balanced cs') : Balanced (cs ++ cs')
  | brackets {cs : List Char} (h : Balanced cs) : Balanced ('<' :: cs ++ ['>'])

theorem Balanced.cons {c : Char} {cs : List Char} (hc : c ∉ ['<', '>']) (h : Balanced cs) :
    Balanced (c :: cs) :=
  .append (.plain (List.forall_mem_singleton.mpr hc)) h

theorem erasedFrom_balanced {cs : List Char} (h : Balanced cs) (depth : Nat) (rest : List Char) :
    erasedFrom (depth + 1) (cs ++ rest) = erasedFrom (depth + 1) rest := by
  induction h generalizing depth rest with
  | @plain cs h =>
    induction cs with
    | nil => rfl
    | cons c cs ih =>
      have hc : c ≠ '<' ∧ c ≠ '>' := by simpa using h c List.mem_cons_self
      rw [List.cons_append, erasedFrom, if_neg hc.1, if_neg hc.2, if_neg (Nat.succ_ne_zero depth)]
      exact ih fun c' hc' => h c' (List.mem_cons_of_mem c hc')
  | append h h' ih ih' => rw [List.append_assoc, ih, ih']
  | brackets h ih =>
    rw [List.cons_append, List.cons_append, List.append_assoc, erasedFrom, if_pos rfl, ih,
      List.singleton_append, erasedFrom, if_neg (by decide), if_pos rfl, Nat.add_sub_cancel]

/-- Characters of a name: it goes on until type arguments or a nested segment follow. -/
def IsPlain (cs : List Char) : Prop := ∀ c ∈ cs, c ∉ ['.', '<', '>']

theorem IsPlain.balanced {cs : List Char} (h : IsPlain cs) : Balanced cs :=
  .plain fun c hc hmem => h c hc (List.mem_cons_of_mem '.' hmem)

theorem erasedFrom_plain {cs : List Char} (h : IsPlain cs) (rest : List Char) :
    erasedFrom 0 (cs ++ rest) = cs ++ erasedFrom 0 rest := by
  induction cs with
  | nil => rfl
  | cons c cs ih =>
    have hc : c ≠ '.' ∧ c ≠ '<' ∧ c ≠ '>' := by simpa using h c List.mem_cons_self
    rw [List.cons_append, erasedFrom, if_neg hc.2.1, if_neg hc.2.2, if_pos rfl, if_neg hc.1,
      ih fun c' hc' => h c' (List.mem_cons_of_mem c hc')]
    rfl

theorem balanced_bracketed {arguments : List TypeArgument} {text : List Char} (h : Balanced text) :
    Balanced (bracketed arguments text) := by
  unfold bracketed
  split
  · exact .plain (by simp)
  · exact .brackets h

theorem erasedFrom_bracketed {arguments : List TypeArgument} {text : List Char}
    (h : Balanced text) (rest : List Char) :
    erasedFrom 0 (bracketed arguments text ++ rest) = erasedFrom 0 rest := by
  unfold bracketed
  split
  · rfl
  · rw [List.cons_append, List.cons_append, List.append_assoc, erasedFrom, if_pos rfl,
      erasedFrom_balanced h, List.singleton_append, erasedFrom, if_neg (by decide), if_pos rfl]

/-! ## Names of nested classes -/

/-- The name of the class nested in `outer` through the segments. -/
def binaryName (outer : String) : List Segment → String
  | [] => outer
  | .mk inner _ :: rest => binaryName (outer ++ "$" ++ inner) rest

/-- Segments that are told apart by their dots, whatever their type arguments. -/
def PlainSegments : List Segment → Prop
  | [] => True
  | .mk name arguments :: rest =>
    IsPlain name.toList ∧ Balanced (argumentsText arguments) ∧ PlainSegments rest

theorem balanced_segmentsText : ∀ {nested : List Segment}, PlainSegments nested →
    Balanced (segmentsText nested)
  | [], _ => .plain (by simp [segmentsText])
  | .mk name arguments :: rest, ⟨hname, harguments, hrest⟩ => by
    rw [segmentsText]
    exact .append (.append (.cons (by decide) hname.balanced) (balanced_bracketed harguments))
      (balanced_segmentsText hrest)

theorem erasedFrom_segmentsText {nested : List Segment} (h : PlainSegments nested)
    (outer : String) :
    outer.toList ++ erasedFrom 0 (segmentsText nested ++ [';']) =
      (binaryName outer nested).toList ++ [';'] := by
  induction nested generalizing outer with
  | nil => rfl
  | cons s rest ih =>
    obtain ⟨name, arguments⟩ := s
    obtain ⟨hname, harguments, hrest⟩ := h
    have hdot : ∀ cs, erasedFrom 0 ('.' :: cs) = '$' :: erasedFrom 0 cs := fun _ => rfl
    rw [binaryName, ← ih hrest, segmentsText, List.append_assoc, List.append_assoc,
      List.cons_append, hdot, erasedFrom_plain hname, erasedFrom_bracketed harguments]
    simp

/-- The erasure of a class spells its name as a whole. -/
theorem erased_text {name : String} {arguments : List TypeArgument} {nested : List Segment}
    (hname : IsPlain name.toList) (harguments : Balanced (argumentsText arguments))
    (hnested : PlainSegments nested) :
    erased (ReferenceType.ofClass name arguments nested).text =
      'L' :: (binaryName name nested).toList ++ [';'] := by
  have hfront : ∀ cs, erasedFrom 0 ('L' :: cs) = 'L' :: erasedFrom 0 cs := fun _ => rfl
  rw [erased, ReferenceType.text, List.append_assoc, List.append_assoc, List.cons_append, hfront,
    erasedFrom_plain hname, erasedFrom_bracketed harguments, erasedFrom_segmentsText hnested,
    List.cons_append]

/-! ## Names that signatures can hold -/

theorem isPlain_of_isQualified {name : String} (h : IsQualified name) : IsPlain name.toList :=
  fun c hc hmem => h.2 c hc (by
    simp only [List.mem_cons, List.not_mem_nil, or_false] at hmem ⊢
    tauto)

theorem isInternalName_of_isQualified {name : String} (h : IsQualified name) :
    IsInternalName name :=
  ⟨h.1, fun c hc hmem => h.2 c hc (by
    simp only [List.mem_cons, List.not_mem_nil, or_false] at hmem ⊢
    tauto)⟩

theorem isQualified_nested {outer inner : String} (houter : IsQualified outer)
    (hinner : IsIdentifier inner) : IsQualified (outer ++ "$" ++ inner) := by
  refine ⟨by simp, fun c hc => ?_⟩
  rw [String.toList_append, String.toList_append, List.append_assoc] at hc
  rcases List.mem_append.mp hc with hc | hc
  · exact houter.2 c hc
  · rcases List.mem_cons.mp hc with rfl | hc
    · decide
    · exact (isQualified_of_isIdentifier hinner).2 c hc

theorem isQualified_binaryName {outer : String} {nested : List Segment} (houter : IsQualified outer)
    (h : ValidSegments nested) : IsQualified (binaryName outer nested) := by
  induction nested generalizing outer with
  | nil => exact houter
  | cons s rest ih =>
    obtain ⟨name, arguments⟩ := s
    exact ih (isQualified_nested houter h.1) h.2.2

theorem validSegments_take {nested : List Segment} (h : ValidSegments nested) (n : Nat) :
    ValidSegments (nested.take n) := by
  induction nested generalizing n with
  | nil => rwa [List.take_nil]
  | cons s rest ih =>
    obtain ⟨name, arguments⟩ := s
    cases n with
    | zero => trivial
    | succ n => exact ⟨h.1, h.2.1, ih h.2.2 n⟩

variable {m : Mappings}

theorem isQualified_renameClass (hm : m.NewNames IsQualified) {name : String}
    (h : IsQualified name) : IsQualified (m.renameClass name) :=
  Mappings.spelled_renameClass (isInternalName_of_isQualified h) hm h.2

/-- A new segment is a part of the new name of its class. -/
theorem isPlain_renameSegment {outer inner : String}
    (h : IsPlain (m.renameClass (outer ++ "$" ++ inner)).toList) :
    IsPlain (m.renameSegment outer inner).toList := by
  have hsegment := segmentName_renameSegment m outer inner
  generalize m.renameSegment outer inner = new at hsegment ⊢
  cases hsegment with
  | within hrest =>
    rw [hrest, String.toList_append] at h
    exact fun c hc => h c (List.mem_append_right _ hc)
  | moved _ hrest _ =>
    rw [hrest, String.toList_append] at h
    exact fun c hc => h c (List.mem_append_right _ hc)
  | whole _ => exact h

mutual

theorem balanced_rename (hm : m.NewNames IsQualified) : ∀ t : ReferenceType, t.Valid →
    Balanced (t.rename m).text
  | .ofClass name arguments nested, ⟨hname, harguments, hnested⟩ => by
    have hnew := isPlain_of_isQualified (isQualified_renameClass hm hname)
    rw [ReferenceType.rename, ReferenceType.text]
    exact .append (.append (.append (.cons (by decide) hnew.balanced)
      (balanced_bracketed (balanced_renameArguments hm arguments harguments)))
      (balanced_segmentsText (plain_renameSegments hm name nested hname hnested)))
      (.plain (by simp))
  | .typeVariable name, h =>
    .append (.cons (by decide)
      (isPlain_of_isQualified (isQualified_of_isIdentifier h)).balanced) (.plain (by simp))
  | .primitives element, _ => by
    have hcode : element.code ∉ ['<', '>'] := by cases element <;> decide
    exact .cons (by decide) (.plain (List.forall_mem_singleton.mpr hcode))
  | .array element, h => .cons (by decide) (balanced_rename hm element h)

theorem plain_renameSegments (hm : m.NewNames IsQualified) : ∀ (outer : String)
    (nested : List Segment), IsQualified outer → ValidSegments nested →
    PlainSegments (renameSegments m outer nested)
  | _, [], _, _ => trivial
  | outer, .mk name arguments :: rest, houter, ⟨hname, harguments, hrest⟩ => by
    have hnested := isQualified_nested houter hname
    exact ⟨isPlain_renameSegment (isPlain_of_isQualified (isQualified_renameClass hm hnested)),
      balanced_renameArguments hm arguments harguments,
      plain_renameSegments hm (outer ++ "$" ++ name) rest hnested hrest⟩

theorem balanced_renameArguments (hm : m.NewNames IsQualified) : ∀ arguments : List TypeArgument,
    ValidArguments arguments → Balanced (argumentsText (renameArguments m arguments))
  | [], _ => .plain (by simp [renameArguments, argumentsText])
  | .any :: rest, h => .cons (by decide) (balanced_renameArguments hm rest h)
  | .extends bound :: rest, h =>
    .append (.cons (by decide) (balanced_rename hm bound h.1))
      (balanced_renameArguments hm rest h.2)
  | .super bound :: rest, h =>
    .append (.cons (by decide) (balanced_rename hm bound h.1))
      (balanced_renameArguments hm rest h.2)
  | .exact type :: rest, h =>
    .append (balanced_rename hm type h.1) (balanced_renameArguments hm rest h.2)

end

/-- What holds of renamed text holds of text, because mappings that say nothing change nothing. -/
theorem balanced_argumentsText {arguments : List TypeArgument} (h : ValidArguments arguments) :
    Balanced (argumentsText arguments) := by
  have hbalanced := balanced_renameArguments (Mappings.newNames_empty _) arguments h
  rwa [← toChars_argumentTrees, argumentTrees_rename, Mappings.isIdentity_empty.renameArguments,
    toChars_argumentTrees] at hbalanced

theorem plainSegments_of_valid : ∀ {nested : List Segment}, ValidSegments nested →
    PlainSegments nested
  | [], _ => trivial
  | .mk _ _ :: _, ⟨hname, harguments, hrest⟩ =>
    ⟨isPlain_of_isQualified (isQualified_of_isIdentifier hname),
      balanced_argumentsText harguments, plainSegments_of_valid hrest⟩

/-! ## Classes that stay where they are nested -/

/-- The new name of the nested class continues the new name of the class around it. -/
def StaysWithin (m : Mappings) (outer inner : String) : Prop :=
  ∃ rest, m.renameClass (outer ++ "$" ++ inner) = m.renameClass outer ++ "$" ++ rest

/-- All classes nested in `outer` through the segments stay within the class around them. -/
def AllStayWithin (m : Mappings) : String → List Segment → Prop
  | _, [] => True
  | outer, .mk inner _ :: rest =>
    StaysWithin m outer inner ∧ AllStayWithin m (outer ++ "$" ++ inner) rest

/-- The signature of a class is renamed, and its new erasure is what the descriptor, which is its
old erasure, is renamed to. -/
def NamedAlike (m : Mappings) (t : ReferenceType) : Prop :=
  ∃ new, m.renameSignature (String.ofList t.text) = .ok new ∧
    m.renameDescriptor (String.ofList (erased t.text)) = .ok (String.ofList (erased new.toList))

theorem staysWithin_iff {outer inner : String} : StaysWithin m outer inner ↔
    m.renameClass outer ++ "$" ++ m.renameSegment outer inner =
      m.renameClass (outer ++ "$" ++ inner) := by
  refine ⟨fun ⟨rest, hrest⟩ => ?_, fun h => ⟨_, h.symm⟩⟩
  have hsegment := segmentName_renameSegment m outer inner
  generalize m.renameSegment outer inner = new at hsegment ⊢
  cases hsegment with
  | within h => exact h.symm
  | moved elsewhere _ _ => exact absurd hrest (elsewhere rest)
  | whole h => exact absurd (by simp [hrest]) h

/-- Classes leave the class around them only by a new name of their own. -/
theorem staysWithin_of_className? {outer inner : String} (houter : IsQualified outer)
    (hinner : IsIdentifier inner) (hlast : '$' ∉ inner.toList)
    (hown : m.className? (outer ++ "$" ++ inner) = none) : StaysWithin m outer inner := by
  have hname : (outer ++ "$" ++ inner).toList = outer.toList ++ '$' :: inner.toList := by simp
  rw [← String.ofList_toList (s := outer ++ "$" ++ inner), hname] at hown
  have hfollows := (Mappings.follows_renameChars m outer.toList).snoc houter.1 hinner.1 hlast hown
  refine ⟨inner, String.toList_injective ?_⟩
  rw [Mappings.renameClass_of_isInternalName (isInternalName_of_isQualified
      (isQualified_nested houter hinner)), Mappings.toList_renamePlain, hname,
    Mappings.renameChars_eq_iff.mpr hfollows, Mappings.renameClass_of_isInternalName
      (isInternalName_of_isQualified houter), String.toList_append, String.toList_append,
    Mappings.toList_renamePlain]
  simp

theorem allStayWithin_iff {outer : String} {nested : List Segment} :
    AllStayWithin m outer nested ↔ ∀ n,
      binaryName (m.renameClass outer) (renameSegments m outer (nested.take n)) =
        m.renameClass (binaryName outer (nested.take n)) := by
  induction nested generalizing outer with
  | nil => simp [AllStayWithin, renameSegments, binaryName]
  | cons s rest ih =>
    obtain ⟨inner, arguments⟩ := s
    rw [AllStayWithin, staysWithin_iff]
    constructor
    · rintro ⟨hinner, hrest⟩ (_ | n)
      · rfl
      · rw [List.take_succ_cons, renameSegments, binaryName, binaryName, hinner]
        exact ih.mp hrest n
    · intro h
      have hinner : m.renameClass outer ++ "$" ++ m.renameSegment outer inner =
          m.renameClass (outer ++ "$" ++ inner) := h 1
      refine ⟨hinner, ih.mpr fun n => ?_⟩
      have hnext := h (n + 1)
      rwa [List.take_succ_cons, renameSegments, binaryName, binaryName, hinner] at hnext

/-- The descriptor of a class that is no array is renamed by its name. -/
theorem renameDescriptor_object (m : Mappings) {name : String} (h : IsInternalName name) :
    m.renameDescriptor (String.ofList ('L' :: name.toList ++ [';'])) =
      .ok (String.ofList ('L' :: (m.renameClass name).toList ++ [';'])) := by
  have hparse : FieldType.parse (String.ofList ('L' :: name.toList ++ [';'])) =
      .ok ⟨.object name, 0⟩ := FieldType.parse_eq_ok.mpr ⟨h, rfl⟩
  rw [Mappings.renameDescriptor_eq, hparse]
  rfl

theorem namedAlike_ofClass (hm : m.NewNames IsQualified) {name : String}
    {arguments : List TypeArgument} {nested : List Segment}
    (h : (ReferenceType.ofClass name arguments nested).Valid) :
    NamedAlike m (.ofClass name arguments nested) ↔
      binaryName (m.renameClass name) (renameSegments m name nested) =
        m.renameClass (binaryName name nested) := by
  obtain ⟨hname, harguments, hnested⟩ := h
  have hsignature : m.renameSignature
      (String.ofList (ReferenceType.ofClass name arguments nested).text) =
      .ok (String.ofList ((ReferenceType.ofClass name arguments nested).rename m).text) :=
    renameSignature_eq m (s := .ofField (.ofClass name arguments nested))
      ⟨hname, harguments, hnested⟩
  have hold := erased_text (isPlain_of_isQualified hname) (balanced_argumentsText harguments)
    (plainSegments_of_valid hnested)
  have hnew := erased_text (isPlain_of_isQualified (isQualified_renameClass hm hname))
    (balanced_renameArguments hm arguments harguments)
    (plain_renameSegments hm name nested hname hnested)
  rw [NamedAlike, hsignature, hold, renameDescriptor_object m
    (isInternalName_of_isQualified (isQualified_binaryName hname hnested))]
  simp only [Except.ok.injEq, exists_eq_left', String.toList_ofList, ReferenceType.rename, hnew]
  simp [eq_comm]

/-- The signature of a class and its descriptor are renamed to one class, and so it is for every
class around it, exactly if each of them stays within the class that it is nested in. -/
theorem namedAlike_iff (hm : m.NewNames IsQualified) {name : String}
    {arguments : List TypeArgument} {nested : List Segment}
    (h : (ReferenceType.ofClass name arguments nested).Valid) :
    (∀ n, NamedAlike m (.ofClass name arguments (nested.take n))) ↔
      AllStayWithin m name nested := by
  rw [allStayWithin_iff]
  exact forall_congr' fun n => namedAlike_ofClass hm ⟨h.1, h.2.1, validSegments_take h.2.2 n⟩

/-! ## Classes that stay

In `La<Ld;>.b<[I>.c;` the class `a$b` is renamed and stays within the new name of `a`, and `a$b$c`
has no new name of its own. -/

namespace GenericMethod

def outerArguments : List TypeArgument := [.exact (.ofClass "d" [] [])]

def nested : List Segment := [.mk "b" [.exact (.primitives .int)], .mk "c" []]

theorem valid_nested : (ReferenceType.ofClass "a" outerArguments nested).Valid := by
  simp only [outerArguments, nested, ReferenceType.Valid, ValidArguments, ValidSegments]
  decide

theorem newNames_mappings : mappings.NewNames IsQualified :=
  (((Mappings.newNames_empty _).nameClass "a" (by decide)).nameClass "a$b" (by decide)).nameClass
    "d" (by decide)

theorem allStayWithin_nested : AllStayWithin mappings "a" nested :=
  ⟨⟨"Entry", by decide +kernel⟩,
    staysWithin_of_className? (by decide) (by decide) (by decide) (by decide +kernel), trivial⟩

end GenericMethod

theorem namedAlike_iff_genericMethod :
    GenericMethod.mappings.NewNames IsQualified ∧
    (ReferenceType.ofClass "a" GenericMethod.outerArguments GenericMethod.nested).Valid ∧
    NamedAlike GenericMethod.mappings (.ofClass "a" GenericMethod.outerArguments
      GenericMethod.nested) := by
  have hm := GenericMethod.newNames_mappings
  have hvalid := GenericMethod.valid_nested
  exact ⟨hm, hvalid, (namedAlike_iff hm hvalid).mpr GenericMethod.allStayWithin_nested 2⟩

/-! ## A class that is moved

The class `a$b` is nested in `a`, but not under its new name.  Its signature is then renamed to
one of a class `x/Moved` nested in `net/Outer`, which there is not. -/

namespace MovedClass

def mappings : Mappings := (Mappings.empty.nameClass "a" "net/Outer").nameClass "a$b" "x/Moved"

theorem newNames_mappings : mappings.NewNames IsQualified :=
  ((Mappings.newNames_empty _).nameClass "a" (by decide)).nameClass "a$b" (by decide)

theorem valid_type : (ReferenceType.ofClass "a" [] [.mk "b" []]).Valid := by
  simp only [ReferenceType.Valid, ValidArguments, ValidSegments]
  decide

theorem renameSignature_type : mappings.renameSignature "La.b;" = .ok "Lnet/Outer.x/Moved;" := by
  decide +kernel

theorem renameDescriptor_type : mappings.renameDescriptor "La$b;" = .ok "Lx/Moved;" := by
  decide +kernel

theorem not_namedAlike :
    mappings.NewNames IsQualified ∧ (ReferenceType.ofClass "a" [] [.mk "b" []]).Valid ∧
      ¬NamedAlike mappings (.ofClass "a" [] [.mk "b" []]) := by
  refine ⟨newNames_mappings, valid_type, ?_⟩
  rintro ⟨new, hsignature, hdescriptor⟩
  have hnew := renameSignature_type.symm.trans hsignature
  have hsame := renameDescriptor_type.symm.trans hdescriptor
  rw [← Except.ok.inj hnew] at hsame
  exact absurd hsame (by decide)

end MovedClass

end Grammar
end ClassRelabel
