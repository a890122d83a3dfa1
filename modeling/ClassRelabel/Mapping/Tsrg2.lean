/-
Mapping files with namespaces.

The first record is a header that lists the namespaces.  Every later line gives one name for each
of them, of which the first two are the old and the new one.  The number of tabs in front tells a
class, its members, and what belongs to a method: the names of its parameters by slot, and a mark
that says the method is static.
-/
import ClassRelabel.Mapping.Basic
import ClassRelabel.Mapping.Line
import ClassRelabel.Text.Decimal

namespace ClassRelabel
namespace Mapping
namespace Tsrg2

/-- The mappings read so far, and the class and the method that the next lines belong to. -/
structure State where
  mappings : Mappings
  owner : Option String
  method : Option MethodKey

def depth (l : Line) : Nat := (l.chars.takeWhile (· == '\t')).length

/-- A line at the margin has one name for each namespace. -/
def classStep (namespaces : Nat) (s : State) (l : Line) : Except Fault State := do
  match l.words with
  | old :: new :: rest =>
    if rest.length + 2 ≠ namespaces then
      l.fault (.namesNeeded namespaces)
    else if isPackage old then
      return { s with owner := none, method := none }
    else
      return ⟨s.mappings.nameClass old new, some old, none⟩
  | _ => l.fault (.namesNeeded namespaces)

/-- A member has a name for each namespace, and a descriptor after the first if it is a method or
its descriptor is known. -/
def memberStep (namespaces : Nat) (s : State) (l : Line) : Except Fault State := do
  match s.owner with
  | none => l.fault .memberOutsideClass
  | some owner =>
    let words := l.words
    if words.length = namespaces then
      match words with
      | old :: new :: _ =>
        return ⟨s.mappings.nameField owner old ⟨new, none⟩, owner, none⟩
      | _ => l.fault (.unknownMember l.trimmed)
    else if words.length = namespaces + 1 then
      match words with
      | old :: descriptor :: new :: _ =>
        if descriptor.toList.head? = some '(' then
          let key := ⟨old, descriptor⟩
          return ⟨s.mappings.nameMethod owner key new, owner, some key⟩
        else
          return ⟨s.mappings.nameField owner old ⟨new, some descriptor⟩, owner, none⟩
      | _ => l.fault (.unknownMember l.trimmed)
    else
      l.fault (.unknownMember l.trimmed)

def parameterStep (namespaces : Nat) (s : State) (l : Line) : Except Fault State := do
  match s.owner, s.method with
  | some owner, some key =>
    match l.words with
    | ["static"] => return s
    | slot :: names =>
      if names.length ≠ namespaces then
        l.fault (.unknownParameter l.trimmed)
      else
        match Text.decimal? 0xFFFF slot, names with
        | some n, _ :: new :: _ =>
          return { s with mappings := s.mappings.nameParameter owner key (UInt16.ofNat n) new }
        | _, _ => l.fault (.badSlot slot)
    | [] => l.fault (.unknownParameter l.trimmed)
  | _, _ => l.fault .parameterOutsideMethod

def step (namespaces : Nat) (s : State) (l : Line) : Except Fault State :=
  match depth l with
  | 0 => classStep namespaces s l
  | 1 => memberStep namespaces s l
  | 2 => parameterStep namespaces s l
  | _ => l.fault .deepIndent

/-- The number of namespaces that a header lists. -/
def header (l : Line) : Except Fault Nat :=
  if "tsrg2 ".toList.isPrefixOf l.chars then .ok (l.words.length - 1) else l.fault .noHeader

/-- A text without records is an empty set. -/
def read (text : String) : Except Fault Mappings := do
  match records text with
  | [] => return .empty
  | l :: rest =>
    let namespaces ← header l
    if namespaces < 2 then
      .error (.mapping 1 .fewNamespaces)
    else
      let s ← rest.foldlM (step namespaces) ⟨.empty, none, none⟩
      return s.mappings

end Tsrg2
end Mapping
end ClassRelabel
