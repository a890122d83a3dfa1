/-
Passing the names of members on to subtypes.

`Hierarchy.supertypesFirst` lists the known classes that can be reached from given ones so that a
class follows its supertypes, as far as they do not lead back to it.  `Mappings.complete` goes
through that list and gives each class what it inherits: `Mappings.inherit` copies from the
entries of the parents, in their order, what the parent declares and the class sees.  A member
that has an entry keeps it.
-/
import Std.Data.ExtTreeSet
import ClassRelabel.Hierarchy.Basic

namespace ClassRelabel

open Std (ExtTreeSet)

namespace Hierarchy

/-- The classes asked for so far, and the known ones among them with the last one first. -/
structure Visit where
  seen : ExtTreeSet String compare
  order : List String

/-- Visits a class after its parents.  Each visit inside another asks for a class not asked for
before and comes from a known one, so `fuel` need not exceed the number of known classes by more
than one. -/
def visit (h : Hierarchy) : Nat → Visit → String → Visit
  | 0, v, _ => v
  | fuel + 1, v, name =>
    if v.seen.contains name then
      v
    else
      let v := { v with seen := v.seen.insert name }
      match h.class? name with
      | none => v
      | some c =>
        let v := c.parents.foldl (visit h fuel) v
        { v with order := name :: v.order }

def supertypesFirst (h : Hierarchy) (names : List String) : List String :=
  (names.foldl (visit h (h.size + 2)) ⟨∅, []⟩).order.reverse

end Hierarchy

namespace ClassEntry

def addMissing (e : ClassEntry) (fields : List (String × FieldEntry))
    (methods : List (MethodKey × MethodEntry)) : ClassEntry :=
  { e with
    fields := fields.foldl (fun t f => t.insertIfNew f.1 f.2) e.fields
    methods := methods.foldl (fun t m => t.insertIfNew m.1 m.2) e.methods }

end ClassEntry

namespace Mappings

def inheritedFields (m : Mappings) (h : Hierarchy) (c : ClassShape) (parent : String) :
    List (String × FieldEntry) :=
  match h.class? parent, m.class? parent with
  | some p, some e => e.fields.toList.filter fun f => c.inheritsField p f.1
  | _, _ => []

def inheritedMethods (m : Mappings) (h : Hierarchy) (c : ClassShape) (parent : String) :
    List (MethodKey × MethodEntry) :=
  match h.class? parent, m.class? parent with
  | some p, some e => e.methods.toList.filter fun f => c.inheritsMethod p f.1
  | _, _ => []

/-- Gives a class what it inherits from its parents.  A class that inherits nothing gets no
entry. -/
def inherit (h : Hierarchy) (m : Mappings) (name : String) : Mappings :=
  match h.class? name with
  | none => m
  | some c =>
    let fields := c.parents.flatMap (m.inheritedFields h c)
    let methods := c.parents.flatMap (m.inheritedMethods h c)
    if fields.isEmpty && methods.isEmpty then
      m
    else
      m.update name fun e => e.addMissing fields methods

def complete (m : Mappings) (h : Hierarchy) (names : List String) : Mappings :=
  (h.supertypesFirst names).foldl (inherit h) m

end Mappings
end ClassRelabel
