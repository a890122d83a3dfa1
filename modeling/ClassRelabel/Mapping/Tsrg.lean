/-
Mapping files with members under their class.

A line that starts at the margin names a class, and the indented lines after it its members: two
words are a field, three a method.  A package line takes no members.
-/
import ClassRelabel.Mapping.Basic
import ClassRelabel.Mapping.Line

namespace ClassRelabel
namespace Mapping
namespace Tsrg

/-- The mappings read so far and the class whose members follow. -/
structure State where
  mappings : Mappings
  owner : Option String

def isIndented (l : Line) : Bool :=
  l.chars.head? == some '\t' || l.chars.head? == some ' '

def step (s : State) (l : Line) : Except Fault State := do
  if isIndented l then
    match s.owner with
    | none => l.fault .memberOutsideClass
    | some owner =>
      match l.words with
      | [old, new] => return { s with mappings := s.mappings.nameField owner old ⟨new, none⟩ }
      | [old, descriptor, new] =>
        return { s with mappings := s.mappings.nameMethod owner ⟨old, descriptor⟩ new }
      | _ => l.fault (.unknownMember l.trimmed)
  else
    match l.words with
    | [old, new] =>
      if isPackage old then
        return { s with owner := none }
      else
        return ⟨s.mappings.nameClass old new, some old⟩
    | _ => l.fault .twoNamesNeeded

def read (text : String) : Except Fault Mappings := do
  let s ← (records text).foldlM step ⟨.empty, none⟩
  return s.mappings

end Tsrg
end Mapping
end ClassRelabel
