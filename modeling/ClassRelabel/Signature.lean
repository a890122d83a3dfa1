/-
Generic signatures of classes, methods, fields and local variables.

A signature is a list of type parameters, if any, and then marks and types.  A type names a class
by a first segment with type arguments and nested segments after it, a type variable, or an
array.  `Signature.parse` reads a signature as this tree and `Signature.toChars` spells it again.

The grammar is wider than that of compilers: a bound may be left out, type arguments may be empty
or stand twice, and marks may stand in any order.
-/
import ClassRelabel.Fault

namespace ClassRelabel
namespace Signature

mutual

inductive Reference where
  /-- A class by its first segment. -/
  | object (name : String) (suffixes : List Suffix)
  | variable (name : String)
  /-- An array of a primitive. -/
  | primitives (code : Char)
  | array (element : Reference)

/-- What follows a segment of a class name. -/
inductive Suffix where
  | arguments (list : List Argument)
  /-- A class nested in the one before it. -/
  | nested (name : String)

inductive Argument where
  | any
  | upper (bound : Reference)
  | lower (bound : Reference)
  | exact (type : Reference)

end

/-- A type parameter.  Each bound has a colon in front and may be left out after it. -/
structure Parameter where
  name : String
  first : Option Reference
  others : List (Option Reference)

inductive Item where
  /-- A parenthesis, `^`, `V` or the code of a primitive. -/
  | mark (c : Char)
  | type (t : Reference)

end Signature

structure Signature where
  parameters : Option (List Signature.Parameter)
  items : List Signature.Item

namespace Signature

def isPrimitive (c : Char) : Bool := "ZCBSIJFD".toList.contains c

def isMark (c : Char) : Bool := "()^V".toList.contains c || isPrimitive c

/-- A segment of a class name ends before one of these. -/
def endsName (c : Char) : Bool := c == '<' || c == '.' || c == ';'

/-- A segment of a class name off the front.  It is not empty and something ends it. -/
def name? (cs : List Char) : Option (String × List Char) :=
  let name := cs.takeWhile fun c => !endsName c
  match cs.dropWhile fun c => !endsName c with
  | [] => none
  | rest => if name.isEmpty then none else some (String.ofList name, rest)

/-! ## Reading

Each reader takes something off the front before it calls another one on the rest, so the length
of the text is fuel enough. -/

mutual

def reference? : Nat → List Char → Option (Reference × List Char)
  | 0, _ => none
  | fuel + 1, 'L' :: cs => do
    let (name, rest) ← name? cs
    let (suffixes, rest) ← suffixes? fuel rest
    return (.object name suffixes, rest)
  | _ + 1, 'T' :: cs =>
    match cs.dropWhile (· != ';') with
    | _ :: rest => some (.variable (String.ofList (cs.takeWhile (· != ';'))), rest)
    | [] => none
  | fuel + 1, '[' :: c :: cs =>
    if isPrimitive c then
      some (.primitives c, cs)
    else do
      let (element, rest) ← reference? fuel (c :: cs)
      return (.array element, rest)
  | _ + 1, _ => none

/-- What follows the first segment of a class name, up to and including the semicolon. -/
def suffixes? : Nat → List Char → Option (List Suffix × List Char)
  | 0, _ => none
  | _ + 1, ';' :: rest => some ([], rest)
  | fuel + 1, '<' :: cs => do
    let (list, rest) ← arguments? fuel cs
    let (suffixes, rest) ← suffixes? fuel rest
    return (.arguments list :: suffixes, rest)
  | fuel + 1, '.' :: cs => do
    let (name, rest) ← name? cs
    let (suffixes, rest) ← suffixes? fuel rest
    return (.nested name :: suffixes, rest)
  | _ + 1, _ => none

/-- Type arguments up to and including the closing bracket. -/
def arguments? : Nat → List Char → Option (List Argument × List Char)
  | 0, _ => none
  | _ + 1, '>' :: rest => some ([], rest)
  | fuel + 1, '*' :: cs => do
    let (list, rest) ← arguments? fuel cs
    return (.any :: list, rest)
  | fuel + 1, '+' :: cs => do
    let (bound, rest) ← reference? fuel cs
    let (list, rest) ← arguments? fuel rest
    return (.upper bound :: list, rest)
  | fuel + 1, '-' :: cs => do
    let (bound, rest) ← reference? fuel cs
    let (list, rest) ← arguments? fuel rest
    return (.lower bound :: list, rest)
  | fuel + 1, cs => do
    let (type, rest) ← reference? fuel cs
    let (list, rest) ← arguments? fuel rest
    return (.exact type :: list, rest)

end

/-- Whether a bound is there: after a colon the text goes on with a type. -/
def startsReference : List Char → Bool
  | c :: _ => c == 'L' || c == 'T' || c == '['
  | [] => false

/-- A bound that may be left out.  Something has to follow the colon in front of it. -/
def bound? (cs : List Char) : Option (Option Reference × List Char) :=
  if cs.isEmpty then
    none
  else if startsReference cs then
    (reference? (cs.length + 1) cs).map fun (t, rest) => (some t, rest)
  else
    some (none, cs)

/-- Further bounds, each with a colon in front.  Something has to follow them. -/
def bounds? : Nat → List Char → Option (List (Option Reference) × List Char)
  | 0, _ => none
  | _ + 1, [] => none
  | fuel + 1, ':' :: cs => do
    let (bound, rest) ← bound? cs
    let (bounds, rest) ← bounds? fuel rest
    return (bound :: bounds, rest)
  | _ + 1, cs => some ([], cs)

/-- Type parameters up to and including the closing bracket. -/
def parameters? : Nat → List Char → Option (List Parameter × List Char)
  | 0, _ => none
  | _ + 1, [] => none
  | _ + 1, '>' :: rest => some ([], rest)
  | fuel + 1, cs =>
    match cs.dropWhile (· != ':') with
    | [] => none
    | _ :: rest => do
      let (first, rest) ← bound? rest
      let (others, rest) ← bounds? fuel rest
      let (parameters, rest) ← parameters? fuel rest
      return (⟨String.ofList (cs.takeWhile (· != ':')), first, others⟩ :: parameters, rest)

/-- Marks and types up to the end. -/
def items? : Nat → List Char → Option (List Item)
  | _, [] => some []
  | 0, _ => none
  | fuel + 1, c :: cs =>
    if isMark c then
      (items? fuel cs).map (.mark c :: ·)
    else do
      let (type, rest) ← reference? (cs.length + 2) (c :: cs)
      let items ← items? fuel rest
      return .type type :: items

/-- Reads a signature, which is not empty. -/
def ofChars? : List Char → Option Signature
  | [] => none
  | '<' :: cs => do
    let (parameters, rest) ← parameters? (cs.length + 1) cs
    let items ← items? rest.length rest
    return ⟨some parameters, items⟩
  | cs => do
    let items ← items? cs.length cs
    return ⟨none, items⟩

def parse (s : String) : Except Fault Signature :=
  match ofChars? s.toList with
  | some t => .ok t
  | none => .error (.descriptor s)

/-! ## Spelling -/

mutual

def Reference.toChars : Reference → List Char
  | .object name suffixes => 'L' :: name.toList ++ suffixesToChars suffixes ++ [';']
  | .variable name => 'T' :: name.toList ++ [';']
  | .primitives code => ['[', code]
  | .array element => '[' :: element.toChars

def Suffix.toChars : Suffix → List Char
  | .arguments list => '<' :: argumentsToChars list ++ ['>']
  | .nested name => '.' :: name.toList

def suffixesToChars : List Suffix → List Char
  | [] => []
  | s :: rest => s.toChars ++ suffixesToChars rest

def Argument.toChars : Argument → List Char
  | .any => ['*']
  | .upper bound => '+' :: bound.toChars
  | .lower bound => '-' :: bound.toChars
  | .exact type => type.toChars

def argumentsToChars : List Argument → List Char
  | [] => []
  | a :: rest => a.toChars ++ argumentsToChars rest

end

def boundToChars (bound : Option Reference) : List Char :=
  ':' :: (bound.map Reference.toChars).getD []

def Parameter.toChars (p : Parameter) : List Char :=
  p.name.toList ++ boundToChars p.first ++ p.others.flatMap boundToChars

def Item.toChars : Item → List Char
  | .mark c => [c]
  | .type t => t.toChars

def parametersToChars : Option (List Parameter) → List Char
  | none => []
  | some list => '<' :: list.flatMap Parameter.toChars ++ ['>']

def toChars (s : Signature) : List Char :=
  parametersToChars s.parameters ++ s.items.flatMap Item.toChars

protected def toString (s : Signature) : String := String.ofList s.toChars

instance : ToString Signature := ⟨Signature.toString⟩

end Signature
end ClassRelabel
