/-
New names of fields, methods and parameters.

A member is looked up under the name of the class that the reference or declaration gives, without
a search of its supertypes: completed mappings hold the names that a class inherits.
-/
import ClassRelabel.Mapping.Basic

namespace ClassRelabel
namespace Mappings

def renameField (m : Mappings) (owner name : String) : String :=
  match (m.class? owner).bind fun e => e.fields[name]? with
  | some entry => entry.name
  | none => name

def method? (m : Mappings) (owner : String) (key : MethodKey) : Option MethodEntry :=
  (m.class? owner).bind fun e => e.methods[key]?

def renameMethod (m : Mappings) (owner : String) (key : MethodKey) : String :=
  if key.isInitializer then
    key.name
  else
    match m.method? owner key with
    | some entry => entry.name
    | none => key.name

/-- The name of the parameter in a local variable slot, if the mappings give one. -/
def parameter? (m : Mappings) (owner : String) (key : MethodKey) (slot : UInt16) : Option String :=
  (m.method? owner key).bind fun e => e.parameters[slot]?

/-- The name at a call site that makes no lambda.  It is no name of a member and stays. -/
def renameCallSite (_ : Mappings) (name _descriptor : String) : String := name

end Mappings
end ClassRelabel
