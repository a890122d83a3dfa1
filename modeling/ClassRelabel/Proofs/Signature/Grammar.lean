/-
The grammar of generic signatures.

A compiler writes signatures by a grammar in which type arguments are never empty, a name stands
where one is due, and a type parameter without a bound by a class has one by an interface.
`GenericSignature` is the syntax tree of this grammar and `text` its spelling.

The reader of signatures knows a wider grammar and flatter trees.  `tree` is the tree that it
makes of a spelling: it is spelled the same (`toChars_signature`), and `parse_text` says that it
is what is read.
-/
import ClassRelabel.Descriptor
import ClassRelabel.Proofs.Signature.Spelling

namespace ClassRelabel
namespace Grammar

open Signature (Reference Suffix Argument Item)

/-! ## Syntax trees -/

mutual

inductive ReferenceType where
  /-- A class by its name with the package in front, its type arguments and the segments nested in
  it. -/
  | ofClass (name : String) (arguments : List TypeArgument) (nested : List Segment)
  | typeVariable (name : String)
  | primitives (element : Primitive)
  | array (element : ReferenceType)

inductive Segment where
  | mk (name : String) (arguments : List TypeArgument)

inductive TypeArgument where
  | any
  | extends (bound : ReferenceType)
  | super (bound : ReferenceType)
  | exact (type : ReferenceType)

end

inductive SomeType where
  | primitive (type : Primitive)
  | reference (type : ReferenceType)

structure ClassType where
  name : String
  arguments : List TypeArgument
  nested : List Segment

structure TypeParameter where
  name : String
  classBound : Option ReferenceType
  interfaceBounds : List ReferenceType

inductive Thrown where
  | ofClass (type : ClassType)
  | typeVariable (name : String)

/-- The signature of a field, a class or a method.  Nothing for the result of a method is
`void`. -/
inductive GenericSignature where
  | ofField (type : ReferenceType)
  | ofClass (parameters : List TypeParameter) (superclass : ClassType) (interfaces : List ClassType)
  | ofMethod (parameters : List TypeParameter) (arguments : List SomeType)
      (result : Option SomeType) (thrown : List Thrown)

def ClassType.toReference (t : ClassType) : ReferenceType := .ofClass t.name t.arguments t.nested

def Thrown.toReference : Thrown → ReferenceType
  | .ofClass type => type.toReference
  | .typeVariable name => .typeVariable name

/-! ## Words of the grammar -/

def IsIdentifier (name : String) : Prop :=
  name.toList ≠ [] ∧ ∀ c ∈ name.toList, c ∉ ['.', ';', '[', '/', '<', '>', ':']

/-- The name of a class, in which slashes separate the packages. -/
def IsQualified (name : String) : Prop :=
  name.toList ≠ [] ∧ ∀ c ∈ name.toList, c ∉ ['.', ';', '[', '<', '>', ':']

-- The characters are looked through one by one; there are too many to try all of them.
instance : DecidablePred IsIdentifier := fun _ =>
  @instDecidableAnd _ _ inferInstance (List.decidableBAll _ _)

instance : DecidablePred IsQualified := fun _ =>
  @instDecidableAnd _ _ inferInstance (List.decidableBAll _ _)

mutual

def ReferenceType.Valid : ReferenceType → Prop
  | .ofClass name arguments nested =>
    IsQualified name ∧ ValidArguments arguments ∧ ValidSegments nested
  | .typeVariable name => IsIdentifier name
  | .primitives element => element ≠ .void
  | .array element => element.Valid

def ValidSegments : List Segment → Prop
  | [] => True
  | .mk name arguments :: rest => IsIdentifier name ∧ ValidArguments arguments ∧ ValidSegments rest

def ValidArguments : List TypeArgument → Prop
  | [] => True
  | .any :: rest => ValidArguments rest
  | .extends bound :: rest => bound.Valid ∧ ValidArguments rest
  | .super bound :: rest => bound.Valid ∧ ValidArguments rest
  | .exact type :: rest => type.Valid ∧ ValidArguments rest

end

def SomeType.Valid : SomeType → Prop
  | .primitive type => type ≠ .void
  | .reference type => type.Valid

/-- A class bound is left out only in front of the bound by an interface. -/
structure TypeParameter.Valid (p : TypeParameter) : Prop where
  name : IsIdentifier p.name
  classBound : ∀ t ∈ p.classBound, t.Valid
  interfaceBounds : ∀ t ∈ p.interfaceBounds, t.Valid
  bounded : p.classBound = none → p.interfaceBounds ≠ []

def GenericSignature.Valid : GenericSignature → Prop
  | .ofField type => type.Valid
  | .ofClass parameters superclass interfaces =>
    (∀ p ∈ parameters, p.Valid) ∧ superclass.toReference.Valid ∧
      ∀ t ∈ interfaces, t.toReference.Valid
  | .ofMethod parameters arguments result thrown =>
    (∀ p ∈ parameters, p.Valid) ∧ (∀ t ∈ arguments, t.Valid) ∧ (∀ t ∈ result, t.Valid) ∧
      ∀ t ∈ thrown, t.toReference.Valid

/-! ## Spelling -/

/-- Type arguments by their spelling without the brackets, which no type arguments do not have. -/
def bracketed (arguments : List TypeArgument) (text : List Char) : List Char :=
  if arguments.isEmpty then [] else '<' :: text ++ ['>']

mutual

def ReferenceType.text : ReferenceType → List Char
  | .ofClass name arguments nested =>
    'L' :: name.toList ++ bracketed arguments (argumentsText arguments) ++ segmentsText nested ++
      [';']
  | .typeVariable name => 'T' :: name.toList ++ [';']
  | .primitives element => ['[', element.code]
  | .array element => '[' :: element.text

def segmentsText : List Segment → List Char
  | [] => []
  | .mk name arguments :: rest =>
    '.' :: name.toList ++ bracketed arguments (argumentsText arguments) ++ segmentsText rest

def argumentsText : List TypeArgument → List Char
  | [] => []
  | .any :: rest => '*' :: argumentsText rest
  | .extends bound :: rest => '+' :: bound.text ++ argumentsText rest
  | .super bound :: rest => '-' :: bound.text ++ argumentsText rest
  | .exact type :: rest => type.text ++ argumentsText rest

end

def SomeType.text : SomeType → List Char
  | .primitive type => [type.code]
  | .reference type => type.text

def TypeParameter.text (p : TypeParameter) : List Char :=
  p.name.toList ++ ':' :: (p.classBound.map ReferenceType.text).getD [] ++
    p.interfaceBounds.flatMap fun t => ':' :: t.text

def parametersText (parameters : List TypeParameter) : List Char :=
  if parameters.isEmpty then [] else '<' :: parameters.flatMap TypeParameter.text ++ ['>']

def GenericSignature.text : GenericSignature → List Char
  | .ofField type => type.text
  | .ofClass parameters superclass interfaces =>
    parametersText parameters ++ superclass.toReference.text ++
      interfaces.flatMap fun t => t.toReference.text
  | .ofMethod parameters arguments result thrown =>
    parametersText parameters ++ '(' :: arguments.flatMap SomeType.text ++
      ')' :: (result.map SomeType.text).getD ['V'] ++
        thrown.flatMap fun t => '^' :: t.toReference.text

/-! ## Trees as they are read -/

/-- Type arguments in brackets, if there are any. -/
def bracketSuffix : List Argument → List Suffix
  | [] => []
  | list => [.arguments list]

mutual

def ReferenceType.tree : ReferenceType → Reference
  | .ofClass name arguments nested =>
    .object name (bracketSuffix (argumentTrees arguments) ++ segmentTrees nested)
  | .typeVariable name => .variable name
  | .primitives element => .primitives element.code
  | .array element => .array element.tree

def segmentTrees : List Segment → List Suffix
  | [] => []
  | .mk name arguments :: rest =>
    .nested name :: (bracketSuffix (argumentTrees arguments) ++ segmentTrees rest)

def argumentTrees : List TypeArgument → List Argument
  | [] => []
  | .any :: rest => .any :: argumentTrees rest
  | .extends bound :: rest => .upper bound.tree :: argumentTrees rest
  | .super bound :: rest => .lower bound.tree :: argumentTrees rest
  | .exact type :: rest => .exact type.tree :: argumentTrees rest

end

def SomeType.item : SomeType → Item
  | .primitive type => .mark type.code
  | .reference type => .type type.tree

def TypeParameter.tree (p : TypeParameter) : Signature.Parameter where
  name := p.name
  first := p.classBound.map ReferenceType.tree
  others := p.interfaceBounds.map fun t => some t.tree

def parameterTrees (parameters : List TypeParameter) : Option (List Signature.Parameter) :=
  if parameters.isEmpty then none else some (parameters.map TypeParameter.tree)

def GenericSignature.tree : GenericSignature → Signature
  | .ofField type => ⟨none, [.type type.tree]⟩
  | .ofClass parameters superclass interfaces =>
    ⟨parameterTrees parameters,
      (superclass :: interfaces).map fun t => .type t.toReference.tree⟩
  | .ofMethod parameters arguments result thrown =>
    ⟨parameterTrees parameters,
      .mark '(' :: arguments.map SomeType.item ++ .mark ')' ::
        (result.map SomeType.item).getD (.mark 'V') ::
          thrown.flatMap fun t => [.mark '^', .type t.toReference.tree]⟩

/-! ### They spell the same -/

theorem suffixesToChars_append (ss ss' : List Suffix) :
    Signature.suffixesToChars (ss ++ ss') =
      Signature.suffixesToChars ss ++ Signature.suffixesToChars ss' := by
  induction ss with
  | nil => rfl
  | cons s ss ih => rw [List.cons_append, Signature.suffixesToChars, ih, Signature.suffixesToChars,
      List.append_assoc]

theorem argumentTrees_eq_nil {arguments : List TypeArgument} :
    argumentTrees arguments = [] ↔ arguments = [] := by
  match arguments with
  | [] => simp [argumentTrees]
  | .any :: _ => simp [argumentTrees]
  | .extends _ :: _ => simp [argumentTrees]
  | .super _ :: _ => simp [argumentTrees]
  | .exact _ :: _ => simp [argumentTrees]

theorem toChars_bracketSuffix {arguments : List TypeArgument}
    (h : Signature.argumentsToChars (argumentTrees arguments) = argumentsText arguments) :
    Signature.suffixesToChars (bracketSuffix (argumentTrees arguments)) =
      bracketed arguments (argumentsText arguments) := by
  cases arguments with
  | nil => rfl
  | cons a rest =>
    obtain ⟨b, list, hlist⟩ := List.exists_cons_of_ne_nil
      (mt argumentTrees_eq_nil.mp (List.cons_ne_nil a rest))
    rw [hlist] at h ⊢
    rw [bracketSuffix, Signature.suffixesToChars, Signature.Suffix.toChars, h, bracketed]
    · simp [Signature.suffixesToChars]
    · simp

mutual

theorem toChars_tree : ∀ t : ReferenceType, t.tree.toChars = t.text
  | .ofClass name arguments nested => by
    rw [ReferenceType.tree, Reference.toChars, suffixesToChars_append,
      toChars_bracketSuffix (toChars_argumentTrees arguments), toChars_segmentTrees nested,
      ReferenceType.text]
    simp
  | .typeVariable name => rfl
  | .primitives element => rfl
  | .array element => by
    rw [ReferenceType.tree, Reference.toChars, toChars_tree element, ReferenceType.text]

theorem toChars_segmentTrees : ∀ nested : List Segment,
    Signature.suffixesToChars (segmentTrees nested) = segmentsText nested
  | [] => rfl
  | .mk name arguments :: rest => by
    rw [segmentTrees, Signature.suffixesToChars, suffixesToChars_append,
      toChars_bracketSuffix (toChars_argumentTrees arguments), toChars_segmentTrees rest,
      segmentsText, Signature.Suffix.toChars]
    simp

theorem toChars_argumentTrees : ∀ arguments : List TypeArgument,
    Signature.argumentsToChars (argumentTrees arguments) = argumentsText arguments
  | [] => rfl
  | .any :: rest => by
    rw [argumentTrees, Signature.argumentsToChars, toChars_argumentTrees rest]
    rfl
  | .extends bound :: rest => by
    rw [argumentTrees, Signature.argumentsToChars, toChars_argumentTrees rest, Argument.toChars,
      toChars_tree bound]
    rfl
  | .super bound :: rest => by
    rw [argumentTrees, Signature.argumentsToChars, toChars_argumentTrees rest, Argument.toChars,
      toChars_tree bound]
    rfl
  | .exact type :: rest => by
    rw [argumentTrees, Signature.argumentsToChars, toChars_argumentTrees rest, Argument.toChars,
      toChars_tree type]
    rfl

end

theorem toChars_mark (c : Char) : (Item.mark c).toChars = [c] := rfl

theorem toChars_type (t : ReferenceType) : (Item.type t.tree).toChars = t.text := toChars_tree t

theorem toChars_item (t : SomeType) : t.item.toChars = t.text := by
  cases t with
  | primitive type => rfl
  | reference type => exact toChars_tree type

theorem toChars_parameter (p : TypeParameter) : p.tree.toChars = p.text := by
  have hfirst : (p.classBound.map ReferenceType.tree).map Reference.toChars =
      p.classBound.map ReferenceType.text := by
    rw [Option.map_map]
    exact Option.map_congr fun t _ => toChars_tree t
  simp [TypeParameter.tree, Signature.Parameter.toChars, Signature.boundToChars, hfirst,
    TypeParameter.text, List.flatMap_map, toChars_tree]

theorem toChars_parameterTrees (parameters : List TypeParameter) :
    Signature.parametersToChars (parameterTrees parameters) = parametersText parameters := by
  unfold parameterTrees parametersText
  split
  · rfl
  · rw [Signature.parametersToChars, List.flatMap_map]
    simp only [toChars_parameter]

theorem toChars_signature (s : GenericSignature) : s.tree.toChars = s.text := by
  cases s with
  | ofField type => simp [GenericSignature.tree, Signature.toChars, Signature.parametersToChars,
      toChars_type, GenericSignature.text]
  | ofClass parameters superclass interfaces =>
    simp [GenericSignature.tree, Signature.toChars, toChars_parameterTrees, List.flatMap_map,
      toChars_type, GenericSignature.text]
  | ofMethod parameters arguments result thrown =>
    have hresult : ((result.map SomeType.item).getD (.mark 'V')).toChars =
        (result.map SomeType.text).getD ['V'] := by
      cases result with
      | none => rfl
      | some t => exact toChars_item t
    simp [GenericSignature.tree, Signature.toChars, toChars_parameterTrees, List.flatMap_map,
      List.flatMap_assoc, toChars_mark, toChars_item, toChars_type, hresult, GenericSignature.text]

/-! ### They are valid -/

theorem isSegment_of_isQualified {name : String} (h : IsQualified name) :
    Signature.IsSegment name := by
  refine ⟨h.1, fun c hc => ?_⟩
  have hne := h.2 c hc
  simp only [List.mem_cons, List.not_mem_nil, or_false, not_or] at hne
  simp [Signature.endsName, hne]

theorem isQualified_of_isIdentifier {name : String} (h : IsIdentifier name) : IsQualified name :=
  ⟨h.1, fun c hc hmem => h.2 c hc (List.mem_of_mem_erase (b := '/') hmem)⟩

theorem isPrimitive_code {p : Primitive} (h : p ≠ .void) : Signature.isPrimitive p.code = true := by
  cases p <;> first | rfl | contradiction

theorem validSuffixes_append {ss ss' : List Suffix} (h : Signature.ValidSuffixes ss)
    (h' : Signature.ValidSuffixes ss') : Signature.ValidSuffixes (ss ++ ss') := by
  match ss, h with
  | [], _ => exact h'
  | .arguments list :: rest, h => exact ⟨h.1, validSuffixes_append h.2 h'⟩
  | .nested name :: rest, h => exact ⟨h.1, validSuffixes_append h.2 h'⟩

theorem validSuffixes_bracketSuffix {list : List Argument} (h : Signature.ValidArguments list) :
    Signature.ValidSuffixes (bracketSuffix list) := by
  cases list with
  | nil => trivial
  | cons a rest => exact ⟨h, trivial⟩

mutual

theorem valid_tree : ∀ t : ReferenceType, t.Valid → t.tree.Valid
  | .ofClass name arguments nested, h =>
    ⟨isSegment_of_isQualified h.1, validSuffixes_append
      (validSuffixes_bracketSuffix (valid_argumentTrees arguments h.2.1))
      (valid_segmentTrees nested h.2.2)⟩
  | .typeVariable _, h => fun hmem => h.2 ';' hmem (by decide)
  | .primitives element, h => isPrimitive_code h
  | .array element, h => valid_tree element h

theorem valid_segmentTrees : ∀ nested : List Segment, ValidSegments nested →
    Signature.ValidSuffixes (segmentTrees nested)
  | [], _ => trivial
  | .mk _ arguments :: rest, h =>
    ⟨isSegment_of_isQualified (isQualified_of_isIdentifier h.1), validSuffixes_append
      (validSuffixes_bracketSuffix (valid_argumentTrees arguments h.2.1))
      (valid_segmentTrees rest h.2.2)⟩

theorem valid_argumentTrees : ∀ arguments : List TypeArgument, ValidArguments arguments →
    Signature.ValidArguments (argumentTrees arguments)
  | [], _ => trivial
  | .any :: rest, h => valid_argumentTrees rest h
  | .extends bound :: rest, h => ⟨valid_tree bound h.1, valid_argumentTrees rest h.2⟩
  | .super bound :: rest, h => ⟨valid_tree bound h.1, valid_argumentTrees rest h.2⟩
  | .exact type :: rest, h => ⟨valid_tree type h.1, valid_argumentTrees rest h.2⟩

end

theorem valid_item {t : SomeType} (h : t.Valid) : t.item.Valid := by
  cases t with
  | primitive type =>
    have hcode := isPrimitive_code h
    simp [SomeType.item, Item.Valid, Signature.isMark, hcode]
  | reference type => exact valid_tree type h

theorem valid_parameter {p : TypeParameter} (h : p.Valid) : p.tree.Valid where
  name_ne_nil := h.name.1
  name := ⟨fun hmem => h.name.2 ':' hmem (by decide), fun hmem => h.name.2 '>' hmem (by decide)⟩
  first t ht := by
    obtain ⟨bound, hbound, rfl⟩ := Option.map_eq_some_iff.mp ht
    exact valid_tree bound (h.classBound bound hbound)
  others bound hbound := by
    obtain ⟨t, ht, rfl⟩ := List.mem_map.mp hbound
    exact ⟨t.tree, rfl, valid_tree t (h.interfaceBounds t ht)⟩
  followed hnone := by
    have hbounds := h.bounded (Option.map_eq_none_iff.mp hnone)
    exact mt List.map_eq_nil_iff.mp hbounds

theorem valid_parameterTrees {parameters : List TypeParameter} (h : ∀ p ∈ parameters, p.Valid)
    (list : List Signature.Parameter) (hlist : parameterTrees parameters = some list) :
    ∀ p ∈ list, p.Valid := by
  unfold parameterTrees at hlist
  split at hlist
  · simp at hlist
  · rw [← Option.some.inj hlist]
    exact List.forall_mem_map.mpr fun p hp => valid_parameter (h p hp)

theorem valid_signature {s : GenericSignature} (h : s.Valid) : s.tree.Valid := by
  cases s with
  | ofField type =>
    exact ⟨by simp [GenericSignature.tree], List.forall_mem_singleton.mpr (valid_tree type h),
      fun _ => List.cons_ne_nil _ _⟩
  | ofClass parameters superclass interfaces =>
    obtain ⟨hparameters, hsuperclass, hinterfaces⟩ := h
    refine ⟨valid_parameterTrees hparameters, List.forall_mem_map.mpr ?_,
      fun _ => List.cons_ne_nil _ _⟩
    exact List.forall_mem_cons.mpr ⟨valid_tree _ hsuperclass, fun t ht =>
      valid_tree _ (hinterfaces t ht)⟩
  | ofMethod parameters arguments result thrown =>
    obtain ⟨hparameters, harguments, hresult, hthrown⟩ := h
    refine ⟨valid_parameterTrees hparameters, ?_, fun _ => by simp [GenericSignature.tree]⟩
    have hmark : ∀ c, Signature.isMark c = true → (Item.mark c).Valid := fun _ hc => hc
    have hlast : ((result.map SomeType.item).getD (.mark 'V')).Valid := by
      cases result with
      | none => exact hmark 'V' rfl
      | some t => exact valid_item (hresult t rfl)
    simp only [GenericSignature.tree, List.forall_mem_append, List.forall_mem_cons,
      List.forall_mem_map, List.forall_mem_flatMap]
    exact ⟨⟨hmark '(' rfl, fun t ht => valid_item (harguments t ht)⟩, hmark ')' rfl, hlast,
      fun t ht => ⟨hmark '^' rfl, valid_tree _ (hthrown t ht), by simp⟩⟩

/-- A signature of the grammar is read as its tree. -/
theorem parse_text {s : GenericSignature} (h : s.Valid) :
    Signature.parse (String.ofList s.text) = .ok s.tree := by
  have hread := Signature.parse_toString (valid_signature h)
  rwa [← toChars_signature]

end Grammar
end ClassRelabel
