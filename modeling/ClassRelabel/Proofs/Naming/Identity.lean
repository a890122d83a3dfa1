/-
Mappings that rename nothing.

Mappings that give everything the name it has leave every name, descriptor and signature as it is.
The one name that they may still change is the simple name of a nested class, which is made anew
from the name of the class (`IsIdentity.renameSimple`).
-/
import ClassRelabel.Naming.Member
import ClassRelabel.Naming.Signature
import ClassRelabel.Proofs.Descriptor.Spelling
import ClassRelabel.Proofs.Mapping
import ClassRelabel.Proofs.Signature.Exact

namespace ClassRelabel

/-! ## Trees without new names -/

theorem Element.mapClasses_of_eq {f : String → String} (hf : ∀ name, f name = name) (e : Element) :
    e.mapClasses f = e := by
  cases e with
  | primitive type => rfl
  | object name => rw [mapClasses, hf]

theorem FieldType.mapClasses_of_eq {f : String → String} (hf : ∀ name, f name = name)
    (t : FieldType) : t.mapClasses f = t := by
  rw [mapClasses, Element.mapClasses_of_eq hf]

theorem MethodType.mapClasses_of_eq {f : String → String} (hf : ∀ name, f name = name)
    (t : MethodType) : t.mapClasses f = t := by
  have hparameters : t.parameters.map (FieldType.mapClasses f) = t.parameters :=
    List.map_id'' (FieldType.mapClasses_of_eq hf) t.parameters
  rw [mapClasses, hparameters, FieldType.mapClasses_of_eq hf]

namespace Mappings
namespace IsIdentity

variable {m : Mappings} (hm : m.IsIdentity)

include hm

/-! ## Classes -/

theorem className? {name new : String} (h : m.className? name = some new) : new = name := by
  obtain ⟨e, he, hnew⟩ := Option.bind_eq_some_iff.mp h
  exact (hm name e he).name new hnew

theorem renameChars (name : List Char) : m.renameChars name = name := by
  fun_induction Mappings.renameChars m name with
  | case1 name new hnew =>
    rw [hm.className? hnew, String.toList_ofList]
  | case2 => rfl
  | case3 => rfl
  | case4 name _ outer inner hsplit _ _ ih =>
    rw [ih, (Text.splitLast?_eq_some.mp hsplit).1]

theorem renamePlain (name : String) : m.renamePlain name = name := by
  rw [Mappings.renamePlain, hm.renameChars, String.ofList_toList]

theorem renameDescriptor {descriptor new : String} (h : m.renameDescriptor descriptor = .ok new) :
    new = descriptor := by
  obtain ⟨t, ht, h⟩ := Except.bind_eq_ok.mp h
  rw [← Except.pure_eq_ok.mp h, FieldType.mapClasses_of_eq hm.renamePlain,
    FieldType.toString_of_parse ht]

theorem renameResult {descriptor new : String} (h : m.renameResult descriptor = .ok new) :
    new = descriptor := by
  obtain ⟨t, ht, h⟩ := Except.bind_eq_ok.mp h
  rw [← Except.pure_eq_ok.mp h, FieldType.mapClasses_of_eq hm.renamePlain,
    FieldType.toString_of_parseResult ht]

theorem renameMethodType {descriptor new : String} (h : m.renameMethodType descriptor = .ok new) :
    new = descriptor := by
  obtain ⟨t, ht, h⟩ := Except.bind_eq_ok.mp h
  rw [← Except.pure_eq_ok.mp h, MethodType.mapClasses_of_eq hm.renamePlain,
    MethodType.toString_of_parse ht]

theorem renameClass (name : String) : m.renameClass name = name := by
  unfold Mappings.renameClass
  split
  · split
    · rename_i new hnew
      exact hm.renameDescriptor hnew
    · rfl
  · exact hm.renamePlain name

/-- A simple name that is what follows the last `$` of the class, without digits in front, is made
again. -/
theorem renameSimple {name simple : String}
    (h : ∀ outer last : List Char, name.toList = outer ++ '$' :: last → '$' ∉ last →
      simple = String.ofList (last.dropWhile fun c => '0' ≤ c && c ≤ '9')) :
    m.renameSimple name simple = simple := by
  unfold Mappings.renameSimple
  rw [hm.renameClass]
  split
  · rename_i outer last hsplit
    obtain ⟨hname, hlast⟩ := Text.splitLast?_eq_some.mp hsplit
    exact (h outer last hname hlast).symm
  · rfl

/-! ## Generic signatures -/

theorem renameSegment (outer inner : String) : m.renameSegment outer inner = inner := by
  have hwhole : (m.renameClass (outer ++ "$" ++ inner)).toList =
      (m.renameClass outer).toList ++ ['$'] ++ inner.toList := by
    rw [hm.renameClass, hm.renameClass, String.toList_append, String.toList_append]
    rfl
  unfold Mappings.renameSegment
  dsimp only
  rw [hwhole, if_pos (List.isPrefixOf_iff_prefix.mpr (List.prefix_append _ _)), List.drop_left,
    String.ofList_toList]

open Signature

omit hm

mutual

theorem renameReference (hm : m.IsIdentity) : ∀ t : Reference, m.renameReference t = t
  | .object name suffixes => by
    rw [Mappings.renameReference, hm.renameClass, renameSuffixes hm name suffixes]
  | .variable name => by rw [Mappings.renameReference]
  | .primitives code => by rw [Mappings.renameReference]
  | .array element => by rw [Mappings.renameReference, renameReference hm element]

theorem renameSuffixes (hm : m.IsIdentity) :
    ∀ (outer : String) (ss : List Suffix), m.renameSuffixes outer ss = ss
  | _, [] => by rw [Mappings.renameSuffixes]
  | outer, .arguments list :: rest => by
    rw [Mappings.renameSuffixes, renameArguments hm list, renameSuffixes hm outer rest]
  | outer, .nested inner :: rest => by
    rw [Mappings.renameSuffixes, hm.renameSegment, renameSuffixes hm (outer ++ "$" ++ inner) rest]

theorem renameArguments (hm : m.IsIdentity) : ∀ as : List Argument, m.renameArguments as = as
  | [] => by rw [Mappings.renameArguments]
  | .any :: rest => by rw [Mappings.renameArguments, renameArguments hm rest]
  | .upper bound :: rest => by
    rw [Mappings.renameArguments, renameReference hm bound, renameArguments hm rest]
  | .lower bound :: rest => by
    rw [Mappings.renameArguments, renameReference hm bound, renameArguments hm rest]
  | .exact type :: rest => by
    rw [Mappings.renameArguments, renameReference hm type, renameArguments hm rest]

end

include hm

theorem renameParameter (p : Signature.Parameter) : m.renameParameter p = p := by
  have hbound : ∀ bound : Option Reference, bound.map m.renameReference = bound := fun bound => by
    rw [Option.map_congr fun t _ => hm.renameReference t, Option.map_id']
  rw [Mappings.renameParameter, hbound, List.map_id'' hbound]

theorem renameItem (i : Item) : m.renameItem i = i := by
  cases i with
  | mark c => rfl
  | type t => rw [Mappings.renameItem, hm.renameReference]

theorem renameTree (s : Signature) : m.renameTree s = s := by
  rw [Mappings.renameTree, List.map_id'' hm.renameItem,
    Option.map_congr fun list _ => List.map_id'' hm.renameParameter list, Option.map_id']

theorem renameSignature {text new : String} (h : m.renameSignature text = .ok new) :
    new = text := by
  obtain ⟨s, hs, h⟩ := Except.bind_eq_ok.mp h
  rw [← Except.pure_eq_ok.mp h, hm.renameTree, Signature.toString_of_parse hs]

/-! ## Members -/

theorem renameField (owner name : String) : m.renameField owner name = name := by
  unfold Mappings.renameField
  split
  · rename_i entry hentry
    obtain ⟨e, he, hentry⟩ := Option.bind_eq_some_iff.mp hentry
    exact (hm owner e he).fields name entry hentry
  · rfl

theorem renameMethod (owner : String) (key : MethodKey) : m.renameMethod owner key = key.name := by
  unfold Mappings.renameMethod
  split
  · rfl
  · split
    · rename_i entry hentry
      obtain ⟨e, he, hentry⟩ := Option.bind_eq_some_iff.mp hentry
      exact (hm owner e he).methods key entry hentry
    · rfl

theorem parameter? (owner : String) (key : MethodKey) (slot : UInt16) :
    m.parameter? owner key slot = none := by
  refine Option.bind_eq_none_iff.mpr fun entry hentry => ?_
  obtain ⟨e, he, hentry⟩ := Option.bind_eq_some_iff.mp hentry
  rw [(hm owner e he).parameters key entry hentry]
  exact Std.ExtTreeMap.getElem?_empty

end IsIdentity
end Mappings
end ClassRelabel
