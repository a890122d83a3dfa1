/-
New names in generic signatures.

`GenericSignature.Renamed m old new` says that two trees differ in the names of classes alone, and
by which rule: the name of a class is renamed as a whole, and each nested segment to what the new
name of the class up to it adds to that of the class around it.  The theorem this file exists for
is `renameSignature_text`: a signature of the grammar is always renamed, to the spelling of such a
tree.
-/
import ClassRelabel.Naming.Signature
import ClassRelabel.Proofs.Signature.Grammar
import Mathlib.Data.List.Forall2

namespace ClassRelabel
namespace Grammar

open Signature (Reference Suffix Argument Item)

/-! ## New names -/

/-- The new name of a segment: what the new name of the class adds to that of the class around it,
or what follows the last `$` where the class was moved elsewhere. -/
inductive SegmentName (m : Mappings) (outer inner : String) : String → Prop
  | within {rest : String}
      (h : m.renameClass (outer ++ "$" ++ inner) = m.renameClass outer ++ "$" ++ rest) :
      SegmentName m outer inner rest
  | moved {before rest : String}
      (elsewhere : ∀ r, m.renameClass (outer ++ "$" ++ inner) ≠ m.renameClass outer ++ "$" ++ r)
      (h : m.renameClass (outer ++ "$" ++ inner) = before ++ "$" ++ rest)
      (last : '$' ∉ rest.toList) : SegmentName m outer inner rest
  | whole (h : '$' ∉ (m.renameClass (outer ++ "$" ++ inner)).toList) :
      SegmentName m outer inner (m.renameClass (outer ++ "$" ++ inner))

mutual

inductive RenamedReference (m : Mappings) : ReferenceType → ReferenceType → Prop
  | ofClass {name : String} {arguments arguments' : List TypeArgument}
      {nested nested' : List Segment} (harguments : RenamedArguments m arguments arguments')
      (hnested : RenamedSegments m name nested nested') :
      RenamedReference m (.ofClass name arguments nested)
        (.ofClass (m.renameClass name) arguments' nested')
  | typeVariable (name : String) : RenamedReference m (.typeVariable name) (.typeVariable name)
  | primitives (element : Primitive) :
      RenamedReference m (.primitives element) (.primitives element)
  | array {element element' : ReferenceType} (h : RenamedReference m element element') :
      RenamedReference m (.array element) (.array element')

/-- Segments nested in the class `outer`. -/
inductive RenamedSegments (m : Mappings) : String → List Segment → List Segment → Prop
  | nil (outer : String) : RenamedSegments m outer [] []
  | cons {outer name name' : String} {arguments arguments' : List TypeArgument}
      {rest rest' : List Segment} (hname : SegmentName m outer name name')
      (harguments : RenamedArguments m arguments arguments')
      (hrest : RenamedSegments m (outer ++ "$" ++ name) rest rest') :
      RenamedSegments m outer (.mk name arguments :: rest) (.mk name' arguments' :: rest')

inductive RenamedArguments (m : Mappings) : List TypeArgument → List TypeArgument → Prop
  | nil : RenamedArguments m [] []
  | any {rest rest' : List TypeArgument} (hrest : RenamedArguments m rest rest') :
      RenamedArguments m (.any :: rest) (.any :: rest')
  | extends {bound bound' : ReferenceType} {rest rest' : List TypeArgument}
      (hbound : RenamedReference m bound bound') (hrest : RenamedArguments m rest rest') :
      RenamedArguments m (.extends bound :: rest) (.extends bound' :: rest')
  | super {bound bound' : ReferenceType} {rest rest' : List TypeArgument}
      (hbound : RenamedReference m bound bound') (hrest : RenamedArguments m rest rest') :
      RenamedArguments m (.super bound :: rest) (.super bound' :: rest')
  | exact {type type' : ReferenceType} {rest rest' : List TypeArgument}
      (htype : RenamedReference m type type') (hrest : RenamedArguments m rest rest') :
      RenamedArguments m (.exact type :: rest) (.exact type' :: rest')

end

inductive SomeType.Renamed (m : Mappings) : SomeType → SomeType → Prop
  | primitive (type : Primitive) : Renamed m (.primitive type) (.primitive type)
  | reference {type type' : ReferenceType} (h : RenamedReference m type type') :
      Renamed m (.reference type) (.reference type')

structure TypeParameter.Renamed (m : Mappings) (old new : TypeParameter) : Prop where
  name : new.name = old.name
  classBound : List.Forall₂ (RenamedReference m) old.classBound.toList new.classBound.toList
  interfaceBounds : List.Forall₂ (RenamedReference m) old.interfaceBounds new.interfaceBounds

def ClassType.Renamed (m : Mappings) (old new : ClassType) : Prop :=
  RenamedReference m old.toReference new.toReference

inductive Thrown.Renamed (m : Mappings) : Thrown → Thrown → Prop
  | ofClass {type type' : ClassType} (h : type.Renamed m type') :
      Renamed m (.ofClass type) (.ofClass type')
  | typeVariable (name : String) : Renamed m (.typeVariable name) (.typeVariable name)

/-- Trees of one shape in which the names of classes alone differ. -/
inductive GenericSignature.Renamed (m : Mappings) : GenericSignature → GenericSignature → Prop
  | ofField {type type' : ReferenceType} (h : RenamedReference m type type') :
      Renamed m (.ofField type) (.ofField type')
  | ofClass {parameters parameters' : List TypeParameter} {superclass superclass' : ClassType}
      {interfaces interfaces' : List ClassType}
      (hparameters : List.Forall₂ (TypeParameter.Renamed m) parameters parameters')
      (hsuperclass : superclass.Renamed m superclass')
      (hinterfaces : List.Forall₂ (ClassType.Renamed m) interfaces interfaces') :
      Renamed m (.ofClass parameters superclass interfaces)
        (.ofClass parameters' superclass' interfaces')
  | ofMethod {parameters parameters' : List TypeParameter} {arguments arguments' : List SomeType}
      {result result' : Option SomeType} {thrown thrown' : List Thrown}
      (hparameters : List.Forall₂ (TypeParameter.Renamed m) parameters parameters')
      (harguments : List.Forall₂ (SomeType.Renamed m) arguments arguments')
      (hresult : List.Forall₂ (SomeType.Renamed m) result.toList result'.toList)
      (hthrown : List.Forall₂ (Thrown.Renamed m) thrown thrown') :
      Renamed m (.ofMethod parameters arguments result thrown)
        (.ofMethod parameters' arguments' result' thrown')

/-! ## Renaming a tree -/

mutual

def ReferenceType.rename (m : Mappings) : ReferenceType → ReferenceType
  | .ofClass name arguments nested =>
    .ofClass (m.renameClass name) (renameArguments m arguments) (renameSegments m name nested)
  | .typeVariable name => .typeVariable name
  | .primitives element => .primitives element
  | .array element => .array (element.rename m)

def renameSegments (m : Mappings) (outer : String) : List Segment → List Segment
  | [] => []
  | .mk name arguments :: rest =>
    .mk (m.renameSegment outer name) (renameArguments m arguments) ::
      renameSegments m (outer ++ "$" ++ name) rest

def renameArguments (m : Mappings) : List TypeArgument → List TypeArgument
  | [] => []
  | .any :: rest => .any :: renameArguments m rest
  | .extends bound :: rest => .extends (bound.rename m) :: renameArguments m rest
  | .super bound :: rest => .super (bound.rename m) :: renameArguments m rest
  | .exact type :: rest => .exact (type.rename m) :: renameArguments m rest

end

def SomeType.rename (m : Mappings) : SomeType → SomeType
  | .primitive type => .primitive type
  | .reference type => .reference (type.rename m)

def ClassType.rename (m : Mappings) (t : ClassType) : ClassType :=
  ⟨m.renameClass t.name, renameArguments m t.arguments, renameSegments m t.name t.nested⟩

def Thrown.rename (m : Mappings) : Thrown → Thrown
  | .ofClass type => .ofClass (type.rename m)
  | .typeVariable name => .typeVariable name

def TypeParameter.rename (m : Mappings) (p : TypeParameter) : TypeParameter :=
  ⟨p.name, p.classBound.map (ReferenceType.rename m),
    p.interfaceBounds.map (ReferenceType.rename m)⟩

def GenericSignature.rename (m : Mappings) : GenericSignature → GenericSignature
  | .ofField type => .ofField (type.rename m)
  | .ofClass parameters superclass interfaces =>
    .ofClass (parameters.map (TypeParameter.rename m)) (superclass.rename m)
      (interfaces.map (ClassType.rename m))
  | .ofMethod parameters arguments result thrown =>
    .ofMethod (parameters.map (TypeParameter.rename m)) (arguments.map (SomeType.rename m))
      (result.map (SomeType.rename m)) (thrown.map (Thrown.rename m))

/-! ### It follows the rule -/

theorem segmentName_renameSegment (m : Mappings) (outer inner : String) :
    SegmentName m outer inner (m.renameSegment outer inner) := by
  unfold Mappings.renameSegment
  dsimp only
  by_cases hwithin : ((m.renameClass outer).toList ++ ['$']).isPrefixOf
      (m.renameClass (outer ++ "$" ++ inner)).toList = true
  · rw [if_pos hwithin]
    obtain ⟨rest, hrest⟩ := List.isPrefixOf_iff_prefix.mp hwithin
    rw [← hrest, List.drop_left]
    refine .within (String.toList_injective ?_)
    simp [← hrest]
  · rw [if_neg hwithin]
    have helsewhere : ∀ r, m.renameClass (outer ++ "$" ++ inner) ≠ m.renameClass outer ++ "$" ++ r := by
      intro r hr
      exact hwithin (List.isPrefixOf_iff_prefix.mpr ⟨r.toList, by simp [hr]⟩)
    by_cases hmem : '$' ∈ (m.renameClass (outer ++ "$" ++ inner)).toList
    · obtain ⟨after, before, hcut, hlast⟩ := List.eq_append_cons_of_mem (List.mem_reverse.mpr hmem)
      rw [List.reverse_eq_iff, List.reverse_append, List.reverse_cons, List.append_assoc,
        List.singleton_append] at hcut
      have hlast' : '$' ∉ after.reverse := mt List.mem_reverse.mp hlast
      rw [hcut, Text.afterLast_append hlast']
      have hwhole : m.renameClass (outer ++ "$" ++ inner) =
          String.ofList before.reverse ++ "$" ++ String.ofList after.reverse :=
        String.toList_injective (by simp [hcut])
      exact .moved helsewhere hwhole (by rwa [String.toList_ofList])
    · rw [Text.afterLast_of_notMem hmem, String.ofList_toList]
      exact .whole hmem

variable (m : Mappings)

mutual

theorem renamed_rename : ∀ t : ReferenceType, RenamedReference m t (t.rename m)
  | .ofClass name arguments nested =>
    .ofClass (renamed_renameArguments arguments) (renamed_renameSegments name nested)
  | .typeVariable name => .typeVariable name
  | .primitives element => .primitives element
  | .array element => .array (renamed_rename element)

theorem renamed_renameSegments : ∀ (outer : String) (nested : List Segment),
    RenamedSegments m outer nested (renameSegments m outer nested)
  | outer, [] => .nil outer
  | outer, .mk name arguments :: rest =>
    .cons (segmentName_renameSegment m outer name) (renamed_renameArguments arguments)
      (renamed_renameSegments (outer ++ "$" ++ name) rest)

theorem renamed_renameArguments : ∀ arguments : List TypeArgument,
    RenamedArguments m arguments (renameArguments m arguments)
  | [] => .nil
  | .any :: rest => .any (renamed_renameArguments rest)
  | .extends bound :: rest => .extends (renamed_rename bound) (renamed_renameArguments rest)
  | .super bound :: rest => .super (renamed_rename bound) (renamed_renameArguments rest)
  | .exact type :: rest => .exact (renamed_rename type) (renamed_renameArguments rest)

end

theorem renamed_items (types : List SomeType) :
    List.Forall₂ (SomeType.Renamed m) types (types.map (SomeType.rename m)) := by
  refine List.forall₂_map_right_iff.mpr (List.forall₂_same.mpr fun t _ => ?_)
  cases t with
  | primitive type => exact .primitive type
  | reference type => exact .reference (renamed_rename m type)

theorem renamed_parameters (parameters : List TypeParameter) :
    List.Forall₂ (TypeParameter.Renamed m) parameters (parameters.map (TypeParameter.rename m)) := by
  refine List.forall₂_map_right_iff.mpr (List.forall₂_same.mpr fun p _ => ⟨rfl, ?_, ?_⟩)
  · cases hbound : p.classBound with
    | none => simp [TypeParameter.rename, hbound]
    | some t => simpa [TypeParameter.rename, hbound] using renamed_rename m t
  · exact List.forall₂_map_right_iff.mpr (List.forall₂_same.mpr fun t _ => renamed_rename m t)

theorem renamed_classType (t : ClassType) : t.Renamed m (t.rename m) :=
  renamed_rename m t.toReference

theorem renamed_thrown (t : Thrown) : t.Renamed m (t.rename m) := by
  cases t with
  | ofClass type => exact .ofClass (renamed_classType m type)
  | typeVariable name => exact .typeVariable name

theorem renamed_signature (s : GenericSignature) : s.Renamed m (s.rename m) := by
  cases s with
  | ofField type => exact .ofField (renamed_rename m type)
  | ofClass parameters superclass interfaces =>
    exact .ofClass (renamed_parameters m parameters) (renamed_classType m superclass)
      (List.forall₂_map_right_iff.mpr (List.forall₂_same.mpr fun t _ => renamed_classType m t))
  | ofMethod parameters arguments result thrown =>
    refine .ofMethod (renamed_parameters m parameters) (renamed_items m arguments) ?_
      (List.forall₂_map_right_iff.mpr (List.forall₂_same.mpr fun t _ => renamed_thrown m t))
    cases result with
    | none => exact .nil
    | some t => exact renamed_items m [t]

/-! ### It is what the reader's tree is renamed to -/

theorem renameSuffixes_bracketSuffix (outer : String) (list : List Argument) (ss : List Suffix) :
    m.renameSuffixes outer (bracketSuffix list ++ ss) =
      bracketSuffix (m.renameArguments list) ++ m.renameSuffixes outer ss := by
  match list with
  | [] => rfl
  | .any :: rest => rfl
  | .upper bound :: rest => rfl
  | .lower bound :: rest => rfl
  | .exact type :: rest => rfl

mutual

theorem tree_rename : ∀ t : ReferenceType, (t.rename m).tree = m.renameReference t.tree
  | .ofClass name arguments nested => by
    rw [ReferenceType.rename, ReferenceType.tree, ReferenceType.tree, Mappings.renameReference,
      renameSuffixes_bracketSuffix, argumentTrees_rename arguments, segmentTrees_rename name nested]
  | .typeVariable name => rfl
  | .primitives element => rfl
  | .array element => by
    rw [ReferenceType.rename, ReferenceType.tree, ReferenceType.tree, Mappings.renameReference,
      tree_rename element]

theorem segmentTrees_rename : ∀ (outer : String) (nested : List Segment),
    segmentTrees (renameSegments m outer nested) = m.renameSuffixes outer (segmentTrees nested)
  | outer, [] => rfl
  | outer, .mk name arguments :: rest => by
    rw [renameSegments, segmentTrees, segmentTrees, Mappings.renameSuffixes,
      renameSuffixes_bracketSuffix, argumentTrees_rename arguments,
      segmentTrees_rename (outer ++ "$" ++ name) rest]

theorem argumentTrees_rename : ∀ arguments : List TypeArgument,
    argumentTrees (renameArguments m arguments) = m.renameArguments (argumentTrees arguments)
  | [] => rfl
  | .any :: rest => by
    rw [renameArguments, argumentTrees, argumentTrees, Mappings.renameArguments,
      argumentTrees_rename rest]
  | .extends bound :: rest => by
    rw [renameArguments, argumentTrees, argumentTrees, Mappings.renameArguments,
      argumentTrees_rename rest, tree_rename bound]
  | .super bound :: rest => by
    rw [renameArguments, argumentTrees, argumentTrees, Mappings.renameArguments,
      argumentTrees_rename rest, tree_rename bound]
  | .exact type :: rest => by
    rw [renameArguments, argumentTrees, argumentTrees, Mappings.renameArguments,
      argumentTrees_rename rest, tree_rename type]

end

theorem item_rename (t : SomeType) : (t.rename m).item = m.renameItem t.item := by
  cases t with
  | primitive type => rfl
  | reference type => exact congrArg Item.type (tree_rename m type)

theorem type_rename (t : ReferenceType) :
    Item.type (t.rename m).tree = m.renameItem (.type t.tree) :=
  congrArg Item.type (tree_rename m t)

theorem toReference_rename (t : ClassType) : (t.rename m).toReference = t.toReference.rename m := rfl

theorem toReference_rename_thrown (t : Thrown) :
    (t.rename m).toReference = t.toReference.rename m := by
  cases t <;> rfl

theorem parameter_rename (p : TypeParameter) : (p.rename m).tree = m.renameParameter p.tree := by
  have hfirst : (p.classBound.map (ReferenceType.rename m)).map ReferenceType.tree =
      (p.classBound.map ReferenceType.tree).map m.renameReference := by
    rw [Option.map_map, Option.map_map]
    exact Option.map_congr fun t _ => tree_rename m t
  simp [TypeParameter.rename, TypeParameter.tree, Mappings.renameParameter, hfirst, tree_rename]

theorem parameterTrees_rename (parameters : List TypeParameter) :
    parameterTrees (parameters.map (TypeParameter.rename m)) =
      (parameterTrees parameters).map (List.map m.renameParameter) := by
  cases parameters with
  | nil => rfl
  | cons p rest => simp [parameterTrees, parameter_rename]

theorem signature_rename (s : GenericSignature) : (s.rename m).tree = m.renameTree s.tree := by
  cases s with
  | ofField type => simp [GenericSignature.rename, GenericSignature.tree, Mappings.renameTree,
      type_rename]
  | ofClass parameters superclass interfaces =>
    simp [GenericSignature.rename, GenericSignature.tree, Mappings.renameTree,
      parameterTrees_rename, toReference_rename, type_rename]
  | ofMethod parameters arguments result thrown =>
    have hmark : ∀ c, m.renameItem (.mark c) = .mark c := fun _ => rfl
    have hresult : ((result.map (SomeType.rename m)).map SomeType.item).getD (.mark 'V') =
        m.renameItem ((result.map SomeType.item).getD (.mark 'V')) := by
      cases result with
      | none => rfl
      | some t => exact item_rename m t
    have harguments : (arguments.map (SomeType.rename m)).map SomeType.item =
        (arguments.map SomeType.item).map m.renameItem := by
      rw [List.map_map, List.map_map]
      exact List.map_congr_left fun t _ => item_rename m t
    have hthrown : (thrown.map (Thrown.rename m)).flatMap
          (fun t => [.mark '^', .type t.toReference.tree]) =
        (thrown.flatMap fun t => [.mark '^', .type t.toReference.tree]).map m.renameItem := by
      rw [List.flatMap_map, List.map_flatMap]
      simp only [toReference_rename_thrown, type_rename, List.map_cons, List.map_nil, hmark]
    simp only [GenericSignature.rename, GenericSignature.tree, Mappings.renameTree,
      parameterTrees_rename, List.map_append, List.map_cons, hmark, harguments, hresult, hthrown]

theorem renameSignature_eq {s : GenericSignature} (h : s.Valid) :
    m.renameSignature (String.ofList s.text) = .ok (String.ofList (s.rename m).text) := by
  rw [Mappings.renameSignature, parse_text h, ← toChars_signature, signature_rename]
  rfl

/-- A signature of the grammar is renamed to the spelling of the tree in which the names of classes
alone are new. -/
theorem renameSignature_text {s : GenericSignature} (h : s.Valid) :
    ∃ s', s.Renamed m s' ∧
      m.renameSignature (String.ofList s.text) = .ok (String.ofList s'.text) :=
  ⟨s.rename m, renamed_signature m s, renameSignature_eq m h⟩

/-! ## A generic method

`<K::Ljava/lang/Iterable<*>;>(La<Ld;>.b<[I>;[TK;)TK;^Ld;` takes a nested class and an array of
`K`, and throws `d`. -/

namespace GenericMethod

def parameters : List TypeParameter :=
  [⟨"K", none, [.ofClass "java/lang/Iterable" [.any] []]⟩]

def arguments : List SomeType :=
  [.reference (.ofClass "a" [.exact (.ofClass "d" [] [])] [.mk "b" [.exact (.primitives .int)]]),
    .reference (.array (.typeVariable "K"))]

def signature : GenericSignature :=
  .ofMethod parameters arguments (some (.reference (.typeVariable "K"))) [.ofClass ⟨"d", [], []⟩]

def mappings : Mappings :=
  ((Mappings.empty.nameClass "a" "net/Outer").nameClass "a$b" "net/Outer$Entry").nameClass "d"
    "net/util/Holder"

theorem valid_signature : signature.Valid := by
  have hnested : ReferenceType.Valid
      (.ofClass "a" [.exact (.ofClass "d" [] [])] [.mk "b" [.exact (.primitives .int)]]) := by
    simp only [ReferenceType.Valid, ValidArguments, ValidSegments]
    decide
  have hbound : ReferenceType.Valid (.ofClass "java/lang/Iterable" [.any] []) := by
    simp only [ReferenceType.Valid, ValidArguments, ValidSegments]
    decide
  have hthrown : ReferenceType.Valid (.ofClass "d" [] []) := by
    simp only [ReferenceType.Valid, ValidArguments, ValidSegments]
    decide
  have hvariable : IsIdentifier "K" := by decide
  refine ⟨?_, ?_, ?_, ?_⟩
  · exact List.forall_mem_singleton.mpr ⟨hvariable, by simp, List.forall_mem_singleton.mpr hbound,
      by simp⟩
  · exact List.forall_mem_cons.mpr ⟨hnested, List.forall_mem_singleton.mpr hvariable⟩
  · rintro t ⟨⟩
    exact hvariable
  · exact List.forall_mem_singleton.mpr hthrown

end GenericMethod

theorem renameSignature_text_genericMethod :
    GenericMethod.signature.Valid ∧
      ∃ s', GenericMethod.signature.Renamed GenericMethod.mappings s' ∧
        GenericMethod.mappings.renameSignature (String.ofList GenericMethod.signature.text) =
          .ok (String.ofList s'.text) :=
  ⟨GenericMethod.valid_signature,
    renameSignature_text GenericMethod.mappings GenericMethod.valid_signature⟩

end Grammar
end ClassRelabel
