/-
What the constants of a pool mean.

A reference is followed to the text it ends in.  A constant of another kind on the way is a fault
that shows it.
-/
import ClassRelabel.Pool.Basic

namespace ClassRelabel

structure NamedType where
  name : String
  descriptor : String
deriving DecidableEq, Repr

structure MemberRef where
  kind : MemberKind
  owner : String
  name : String
  descriptor : String
deriving DecidableEq, Repr

namespace Pool

variable (p : Pool)

def text (i : Index) : Except Fault String := do
  match ← p.constant i with
  | .utf8 s => .ok s
  | .utf8Raw _ => .error (.format (.notUnicode i))
  | c => .error (.format (.wrongConstant i .text c))

def className (i : Index) : Except Fault String := do
  match ← p.constant i with
  | .classRef name => p.text name
  | c => .error (.format (.wrongConstant i .className c))

def namedType (i : Index) : Except Fault NamedType := do
  match ← p.constant i with
  | .nameAndType name descriptor => return ⟨← p.text name, ← p.text descriptor⟩
  | c => .error (.format (.wrongConstant i .nameAndType c))

/-- The member a reference names.  Its name and descriptor are followed before its owner. -/
def memberRef (i : Index) : Except Fault MemberRef := do
  match ← p.constant i with
  | .member kind owner nameAndType =>
    let named ← p.namedType nameAndType
    return ⟨kind, ← p.className owner, named.name, named.descriptor⟩
  | c => .error (.format (.wrongConstant i .member c))

def methodHandle (i : Index) : Except Fault (HandleKind × MemberRef) := do
  match ← p.constant i with
  | .methodHandle kind reference => return (kind, ← p.memberRef reference)
  | c => .error (.format (.wrongConstant i .methodHandle c))

def methodType (i : Index) : Except Fault String := do
  match ← p.constant i with
  | .methodType descriptor => p.text descriptor
  | c => .error (.format (.wrongConstant i .methodType c))

end Pool
end ClassRelabel
