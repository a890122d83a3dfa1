/-
New names of classes, and of the classes inside descriptors.

A class without a new name of its own follows the class it is nested in: `renameClass` looks for
the longest part of the name before a `$` that has a new name and keeps the rest.  The name of an
array class is a descriptor and is renamed as one.
-/
import ClassRelabel.Descriptor
import ClassRelabel.Mapping.Basic
import ClassRelabel.Text.Split

namespace ClassRelabel
namespace Text

theorem length_lt_of_splitFirst? {sep : Char} {cs before after : List Char}
    (h : splitFirst? sep cs = some (before, after)) : after.length < cs.length := by
  unfold splitFirst? at h
  split at h
  · simp at h
  · rename_i hdrop
    have hle := (List.dropWhile_suffix (l := cs) (· != sep)).length_le
    rw [hdrop, List.length_cons] at hle
    simp only [Option.some.injEq, Prod.mk.injEq] at h
    rw [← h.2]
    omega

/-- What stands before the last `sep` is shorter. -/
theorem length_lt_of_splitLast? {sep : Char} {cs before after : List Char}
    (h : splitLast? sep cs = some (before, after)) : before.length < cs.length := by
  simp only [splitLast?, Option.map_eq_some_iff, Prod.mk.injEq] at h
  obtain ⟨⟨x, y⟩, hsplit, hbefore, -⟩ := h
  have hlt := length_lt_of_splitFirst? hsplit
  rw [← hbefore]
  simpa using hlt

end Text

namespace Mappings

def className? (m : Mappings) (name : String) : Option String :=
  (m.class? name).bind ClassEntry.name

/-- The new name of a class that is no array, as characters. -/
def renameChars (m : Mappings) (name : List Char) : List Char :=
  match m.className? (String.ofList name) with
  | some new => new.toList
  | none =>
    match h : Text.splitLast? '$' name with
    | none => name
    | some (outer, inner) =>
      if outer.isEmpty || inner.isEmpty then
        name
      else
        have : outer.length < name.length := Text.length_lt_of_splitLast? h
        m.renameChars outer ++ '$' :: inner
termination_by name.length

def renamePlain (m : Mappings) (name : String) : String :=
  String.ofList (m.renameChars name.toList)

def renameDescriptor (m : Mappings) (descriptor : String) : Except Fault String := do
  return toString ((← FieldType.parse descriptor).mapClasses m.renamePlain)

def renameResult (m : Mappings) (descriptor : String) : Except Fault String := do
  return toString ((← FieldType.parseResult descriptor).mapClasses m.renamePlain)

def renameMethodType (m : Mappings) (descriptor : String) : Except Fault String := do
  return toString ((← MethodType.parse descriptor).mapClasses m.renamePlain)

/-- The new name of a class.  An array class whose name is no descriptor keeps it. -/
def renameClass (m : Mappings) (name : String) : String :=
  if name.toList.head? = some '[' then
    match m.renameDescriptor name with
    | .ok new => new
    | .error _ => name
  else
    m.renamePlain name

/-- The simple name to record for a nested class: what follows the last `$` of its new name,
without digits in front.  A new name without `$` leaves the simple name as it was. -/
def renameSimple (m : Mappings) (name simple : String) : String :=
  match Text.splitLast? '$' (m.renameClass name).toList with
  | some (_, last) => String.ofList (last.dropWhile fun c => '0' ≤ c && c ≤ '9')
  | none => simple

end Mappings
end ClassRelabel
