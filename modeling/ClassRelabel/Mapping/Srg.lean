/-
Mapping files of flat records.

Each record stands on a line of its own and starts with its kind: `PK:` for a package, which is
ignored, `CL:` for a class, `FD:` for a field with or without descriptors, `MD:` for a method.
Members are qualified by their class, so records may come in any order.
-/
import ClassRelabel.Mapping.Basic
import ClassRelabel.Mapping.Line

namespace ClassRelabel
namespace Mapping
namespace Srg

def step (m : Mappings) (l : Line) : Except Fault Mappings := do
  match l.words with
  | ["PK:", _, _] => return m
  | ["CL:", old, new] => return m.nameClass old new
  | ["FD:", old, new] =>
    let (owner, name) ← l.splitMember old
    let (_, new) ← l.splitMember new
    return m.nameField owner name ⟨new, none⟩
  | ["FD:", old, descriptor, new, _] =>
    let (owner, name) ← l.splitMember old
    let (_, new) ← l.splitMember new
    return m.nameField owner name ⟨new, some descriptor⟩
  | ["MD:", old, descriptor, new, _] =>
    let (owner, name) ← l.splitMember old
    let (_, new) ← l.splitMember new
    return m.nameMethod owner ⟨name, descriptor⟩ new
  | _ => l.fault (.unknownRecord l.text)

def read (text : String) : Except Fault Mappings :=
  (records text).foldlM step .empty

end Srg
end Mapping
end ClassRelabel
