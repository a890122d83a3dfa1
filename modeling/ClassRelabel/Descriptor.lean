/-
Descriptors of fields and methods.

A descriptor spells a type: a letter for a primitive, `L` and `;` around the name of a class, and
one `[` for each dimension of an array.  `ofFront?` reads one descriptor off the front of a text
and `toChars` spells it again.  Arrays have at most 255 dimensions and never hold `void`.
-/
import ClassRelabel.Fault

namespace ClassRelabel

inductive Primitive where
  | boolean
  | char
  | byte
  | short
  | int
  | long
  | float
  | double
  | void
deriving DecidableEq, Repr

/-- What an array holds, or a type that is no array. -/
inductive Element where
  | primitive (type : Primitive)
  | object (name : String)
deriving DecidableEq, Repr

/-- The type of a field, a parameter or a result.  With zero dimensions it is its element. -/
structure FieldType where
  element : Element
  dimensions : UInt8
deriving DecidableEq, Repr

structure MethodType where
  parameters : List FieldType
  result : FieldType
deriving DecidableEq, Repr

namespace Primitive

def ofCode? : Char → Option Primitive
  | 'Z' => some boolean
  | 'C' => some char
  | 'B' => some byte
  | 'S' => some short
  | 'I' => some int
  | 'J' => some long
  | 'F' => some float
  | 'D' => some double
  | 'V' => some void
  | _ => none

def code : Primitive → Char
  | boolean => 'Z'
  | char => 'C'
  | byte => 'B'
  | short => 'S'
  | int => 'I'
  | long => 'J'
  | float => 'F'
  | double => 'D'
  | void => 'V'

def slots : Primitive → Nat
  | long | double => 2
  | void => 0
  | _ => 1

end Primitive

/-- The characters of a class name inside a descriptor: some, but none that structure descriptors
or separate packages in source text.  A semicolon ends the name and is not among them. -/
def isClassName (cs : List Char) : Bool :=
  !cs.isEmpty && cs.all fun c => c != '.' && c != '['

namespace Element

def ofFront? : List Char → Option (Element × List Char)
  | [] => none
  | 'L' :: rest =>
    match rest.dropWhile (· != ';') with
    | _ :: after =>
      let name := rest.takeWhile (· != ';')
      if isClassName name then some (object (String.ofList name), after) else none
    | [] => none
  | c :: rest => (Primitive.ofCode? c).map fun p => (primitive p, rest)

def toChars : Element → List Char
  | primitive type => [type.code]
  | object name => 'L' :: name.toList ++ [';']

def slots : Element → Nat
  | primitive type => type.slots
  | object _ => 1

def mapClasses (f : String → String) : Element → Element
  | primitive type => primitive type
  | object name => object (f name)

end Element

namespace FieldType

def isArray (t : FieldType) : Bool := t.dimensions != 0

def isVoid (t : FieldType) : Bool := t.element = .primitive .void && !t.isArray

/-- Reads one descriptor off the front, `V` included. -/
def ofFront? (cs : List Char) : Option (FieldType × List Char) := do
  let dimensions := (cs.takeWhile (· == '[')).length
  let (element, rest) ← Element.ofFront? (cs.dropWhile (· == '['))
  if dimensions = 0 then
    return (⟨element, 0⟩, rest)
  else if element = .primitive .void then
    none
  else if dimensions < 256 then
    return (⟨element, UInt8.ofNat dimensions⟩, rest)
  else
    none

def toChars (t : FieldType) : List Char :=
  List.replicate t.dimensions.toNat '[' ++ t.element.toChars

protected def toString (t : FieldType) : String := String.ofList t.toChars

instance : ToString FieldType := ⟨FieldType.toString⟩

/-- A whole descriptor of a result, which may be `V`. -/
def parseResult (s : String) : Except Fault FieldType :=
  match ofFront? s.toList with
  | some (t, []) => .ok t
  | _ => .error (.descriptor s)

def parse (s : String) : Except Fault FieldType := do
  let t ← parseResult s
  if t.isVoid then .error (.descriptor s) else .ok t

def slots (t : FieldType) : Nat :=
  if t.isArray then 1 else t.element.slots

def mapClasses (f : String → String) (t : FieldType) : FieldType :=
  { t with element := t.element.mapClasses f }

end FieldType

/-! ## What is left is shorter -/

theorem Element.length_lt_of_ofFront? {cs rest : List Char} {e : Element}
    (h : Element.ofFront? cs = some (e, rest)) : rest.length < cs.length := by
  unfold Element.ofFront? at h
  split at h
  · simp at h
  · rename_i cs
    split at h
    · rename_i after hdrop
      have hle := (List.dropWhile_suffix (l := cs) (· != ';')).length_le
      rw [hdrop, List.length_cons] at hle
      dsimp only at h
      split at h
      · simp only [Option.some.injEq, Prod.mk.injEq] at h
        rw [← h.2, List.length_cons]
        omega
      · simp at h
    · simp at h
  · simp only [Option.map_eq_some_iff, Prod.mk.injEq] at h
    obtain ⟨_, _, _, rfl⟩ := h
    simp

theorem FieldType.length_lt_of_ofFront? {cs rest : List Char} {t : FieldType}
    (h : FieldType.ofFront? cs = some (t, rest)) : rest.length < cs.length := by
  simp only [FieldType.ofFront?, Option.bind_eq_bind, Option.bind_eq_some_iff] at h
  obtain ⟨⟨e, after⟩, he, h⟩ := h
  have hlt := Element.length_lt_of_ofFront? he
  have hle := (List.dropWhile_suffix (l := cs) (· == '[')).length_le
  have hrest : after = rest := by
    dsimp only at h
    split at h
    · simp only [pure, Option.some.injEq, Prod.mk.injEq] at h
      exact h.2
    · split at h
      · simp at h
      · split at h
        · simp only [pure, Option.some.injEq, Prod.mk.injEq] at h
          exact h.2
        · simp at h
  subst hrest
  omega

namespace MethodType

/-- Reads parameters up to and including the closing parenthesis. -/
def parameters? (cs : List Char) : Option (List FieldType × List Char) :=
  match cs with
  | ')' :: rest => some ([], rest)
  | cs =>
    match h : FieldType.ofFront? cs with
    | none => none
    | some (t, rest) =>
      if t.isVoid then
        none
      else
        have : rest.length < cs.length := FieldType.length_lt_of_ofFront? h
        (parameters? rest).map fun (ts, after) => (t :: ts, after)
termination_by cs.length

def ofChars? : List Char → Option MethodType
  | '(' :: cs => do
    let (parameters, rest) ← parameters? cs
    match ← FieldType.ofFront? rest with
    | (result, []) => some ⟨parameters, result⟩
    | _ => none
  | _ => none

def parse (s : String) : Except Fault MethodType :=
  match ofChars? s.toList with
  | some m => .ok m
  | none => .error (.descriptor s)

def toChars (m : MethodType) : List Char :=
  '(' :: m.parameters.flatMap FieldType.toChars ++ ')' :: m.result.toChars

protected def toString (m : MethodType) : String := String.ofList m.toChars

instance : ToString MethodType := ⟨MethodType.toString⟩

/-- The local variable slots of the parameters, without a receiver. -/
def slots (m : MethodType) : Nat :=
  m.parameters.foldr (fun t n => t.slots + n) 0

def mapClasses (f : String → String) (m : MethodType) : MethodType :=
  ⟨m.parameters.map (FieldType.mapClasses f), m.result.mapClasses f⟩

end MethodType
end ClassRelabel
