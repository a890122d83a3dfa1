/-
Names for parameters.

A parameter without a name of its own gets one from its type.  The innermost simple name of the
class, or the letter of a primitive, goes through a dictionary and into lower case; arrays have an
`a` in front.  The result must not be empty, reserved or begin with a snowman, and it is claimed
among the names of the method.
-/
import ClassRelabel.Descriptor
import ClassRelabel.Dictionary.Basic
import ClassRelabel.Naming.Used
import ClassRelabel.Text.Lower

namespace ClassRelabel

structure Parameter where
  method : MethodId
  slot : UInt16
deriving DecidableEq, Repr

/-- Words that source text cannot use as names, the receiver `this` among them. -/
def keywords : List String :=
  ["abstract", "assert", "boolean", "break", "byte", "case", "catch", "char", "class", "const",
   "continue", "default", "do", "double", "else", "enum", "extends", "final", "finally", "float",
   "for", "goto", "if", "implements", "import", "instanceof", "int", "interface", "long",
   "native", "new", "package", "private", "protected", "public", "return", "short", "static",
   "strictfp", "super", "switch", "synchronized", "this", "throw", "throws", "transient", "try",
   "void", "volatile", "while", "true", "false", "null"]

/-- The name of a method's receiver is a keyword that a slot may have. -/
def receiverName : String := "this"

def isReserved (name : String) : Bool := name != receiverName && keywords.contains name

/-- What a type is named by: the name of the class or the letter of the primitive that it is made
of. -/
def Element.token : Element → String
  | .primitive type => String.singleton type.code
  | .object name => name

/-- The part of a class name after its package and its outer classes. -/
def simpleName (name : String) : String :=
  String.ofList (Text.afterLast '$' (Text.afterLast '/' name.toList))

/-- The name that a type suggests before any dictionary. -/
def FieldType.suggestion (t : FieldType) : String :=
  let simple := simpleName t.element.token
  if t.isArray then "a" ++ simple else simple

namespace Parameter

/-- Some compilers left a snowman where a name had been. -/
def snowman : Char := '☃'

/-- Whether a parameter may have a name. -/
def check (p : Parameter) (name : String) : Except Fault Unit :=
  if name.toList.head? = some snowman then
    .error (.badGlyph name p.method)
  else if isReserved name then
    .error (.reservedName name p.method)
  else
    .ok ()

/-- Deduces the name of a parameter of type `type` that is called `rawName` so far.  A receiver
keeps its name, in capitals too. -/
def deduce (p : Parameter) (d : Dictionary) (rawName type : String) : NamesM String := do
  if rawName.toLower = receiverName then
    return rawName
  let t ← FieldType.parse type
  let name := Text.lower (d.apply t.suggestion t.element.token)
  if name.isEmpty then
    throw (.emptyName p.slot p.method)
  p.check name
  modifyGet (·.claim name)

end Parameter
end ClassRelabel
