/-
New names of the classes inside generic signatures.

The first segment of a class takes the new name of its class.  A nested segment takes what the new
name of the whole class adds to the new name of the class around it; when the nested class was
moved elsewhere it takes what follows the last `$`.
-/
import ClassRelabel.Naming.Class
import ClassRelabel.Signature

namespace ClassRelabel
namespace Mappings

/-- The segment that names the nested class `outer$inner`. -/
def renameSegment (m : Mappings) (outer inner : String) : String :=
  let around := (m.renameClass outer).toList ++ ['$']
  let whole := (m.renameClass (outer ++ "$" ++ inner)).toList
  if around.isPrefixOf whole then
    String.ofList (whole.drop around.length)
  else
    String.ofList (Text.afterLast '$' whole)

open Signature

mutual

def renameReference (m : Mappings) : Reference → Reference
  | .object name suffixes => .object (m.renameClass name) (renameSuffixes m name suffixes)
  | .variable name => .variable name
  | .primitives code => .primitives code
  | .array element => .array (renameReference m element)

/-- What follows the segments that spell the class `outer`. -/
def renameSuffixes (m : Mappings) (outer : String) : List Suffix → List Suffix
  | [] => []
  | .arguments list :: rest => .arguments (renameArguments m list) :: renameSuffixes m outer rest
  | .nested inner :: rest =>
    .nested (m.renameSegment outer inner) :: renameSuffixes m (outer ++ "$" ++ inner) rest

def renameArguments (m : Mappings) : List Argument → List Argument
  | [] => []
  | .any :: rest => .any :: renameArguments m rest
  | .upper bound :: rest => .upper (renameReference m bound) :: renameArguments m rest
  | .lower bound :: rest => .lower (renameReference m bound) :: renameArguments m rest
  | .exact type :: rest => .exact (renameReference m type) :: renameArguments m rest

end

def renameParameter (m : Mappings) (p : Signature.Parameter) : Signature.Parameter :=
  { p with
    first := p.first.map m.renameReference
    others := p.others.map (Option.map m.renameReference) }

def renameItem (m : Mappings) : Item → Item
  | .mark c => .mark c
  | .type t => .type (m.renameReference t)

def renameTree (m : Mappings) (s : Signature) : Signature :=
  ⟨s.parameters.map (List.map m.renameParameter), s.items.map m.renameItem⟩

def renameSignature (m : Mappings) (s : String) : Except Fault String := do
  return toString (m.renameTree (← Signature.parse s))

end Mappings
end ClassRelabel
