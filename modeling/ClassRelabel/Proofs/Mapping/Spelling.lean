/-
Mappings that can be written down.

Names stand on a line as words, so they have no blanks.  A line must not be taken for a comment or a
package, a member not for its class, and a descriptor tells methods from fields (`Spellable`).
-/
import ClassRelabel.Proofs.Mapping.Facts
import ClassRelabel.Proofs.Mapping.Lines
import ClassRelabel.Proofs.Text.Split

namespace ClassRelabel

open Text

namespace Mapping

/-- A name that is one word on a line. -/
def IsName (s : String) : Prop := IsWord s.toList

instance (s : String) : Decidable (IsName s) := inferInstanceAs (Decidable (IsWord s.toList))

/-- Words behind an indentation, with a space between them. -/
def spaced (indent : String) (ws : List String) : List Char :=
  indent.toList ++ unwords (ws.map String.toList)

variable {indent : String} {w : String} {ws : List String}

theorem words_spaced (k : Nat) (hindent : AllBlank indent.toList) (hws : ∀ w ∈ ws, IsName w) :
    (Line.mk k (spaced indent ws)).words = ws := by
  have hwords : ∀ w ∈ ws.map String.toList, IsWord w := List.forall_mem_map.mpr hws
  rw [Line.words, spaced, words_indented hindent, words_unwords hwords, List.map_map]
  exact List.map_id'' (fun w => String.ofList_toList) ws

theorem not_mem_spaced (hindent : '\n' ∉ indent.toList) (hws : ∀ w ∈ ws, IsName w) :
    '\n' ∉ spaced indent ws := by
  intro hmem
  rw [spaced, List.mem_append] at hmem
  rcases hmem.imp_right mem_unwords with hmem | hspace | ⟨w, hw, hmem⟩
  · exact hindent hmem
  · simp at hspace
  · obtain ⟨v, hv, rfl⟩ := List.mem_map.mp hw
    have hblank := (hws v hv).2 '\n' hmem
    simp [isBlank] at hblank

/-- Words on a line are a record, unless they begin like a comment. -/
theorem speaks_spaced (hblanks : AllBlank indent.toList) (hindent : '\n' ∉ indent.toList)
    (hws : ∀ v ∈ w :: ws, IsName v) (hw : w.toList.head? ≠ some '#') :
    Speaks (spaced indent (w :: ws)) := by
  refine ⟨not_mem_spaced hindent hws, ?_, ?_⟩
  · obtain ⟨vs, v, hvs⟩ := (List.eq_nil_or_concat' (w :: ws)).resolve_left (List.cons_ne_nil w ws)
    have hv : IsName v := hws v (by simp [hvs])
    obtain ⟨front, hfront⟩ := unwords_concat (vs.map String.toList) v.toList
    refine ⟨indent.toList ++ (front ++ v.toList.dropLast), v.toList.getLast hv.1, ?_,
      hv.2 _ (List.getLast_mem hv.1)⟩
    rw [spaced, hvs, List.map_append, List.map_singleton, hfront, List.append_assoc,
      List.append_assoc, List.dropLast_append_getLast]
  · obtain ⟨hword, -⟩ := List.forall_mem_cons.mp hws
    obtain ⟨rest, hrest⟩ := unwords_cons w.toList (ws.map String.toList)
    obtain ⟨c, cs, hcs⟩ := List.exists_cons_of_ne_nil hword.1
    refine ⟨indent.toList, c, cs ++ rest, ?_, hblanks, hword.2 c (hcs ▸ List.mem_cons_self), ?_⟩
    · rw [spaced, List.map_cons, hrest, hcs, List.cons_append]
    · rintro rfl
      simp [hcs] at hw

/-! ## Spellable mappings -/

/-- The name of a member.  Its class can be written in front of it. -/
def IsMemberName (s : String) : Prop := IsName s ∧ '/' ∉ s.toList

instance (s : String) : Decidable (IsMemberName s) := inferInstanceAs (Decidable (_ ∧ _))

end Mapping

open Mapping

/-- A descriptor of a method begins with a parenthesis and one of a field does not. -/
def Fact.Spellable : Fact → Prop
  | className owner new =>
    IsName owner ∧ IsName new ∧ owner.toList.head? ≠ some '#' ∧ owner.toList.getLast? ≠ some '/'
  | field _ name entry =>
    IsMemberName name ∧ IsMemberName entry.name ∧ name.toList.head? ≠ some '#' ∧
      ∀ d, entry.descriptor = some d → IsName d ∧ d.toList.head? ≠ some '('
  | method _ key entry =>
    IsMemberName key.name ∧ IsMemberName entry.name ∧ key.name.toList.head? ≠ some '#' ∧
      IsName key.descriptor ∧ key.descriptor.toList.head? = some '(' ∧
      ∀ (slot : UInt16) (p : String), entry.parameters[slot]? = some p → IsName p

/-- The facts can be written down, with their classes in front of them. -/
def SpellableFacts (l : List Fact) : Prop := ∀ f ∈ l, f.Spellable ∧ IsName f.owner

namespace Mappings

/-- Every class has a new name, and no name or descriptor is taken for something else. -/
structure Spellable (m : Mappings) : Prop where
  named : m.Named
  facts : ∀ f, m.Says f → f.Spellable

variable {m : Mappings} {f : Fact} {l : List Fact}

theorem Spellable.isName_owner (h : m.Spellable) (hf : m.Says f) : IsName f.owner := by
  obtain ⟨e, hclass, -⟩ := hf
  obtain ⟨new, hnew⟩ := h.named f.owner e hclass
  have hspellable := h.facts (.className f.owner new) ⟨e, hclass, hnew⟩
  exact hspellable.1

theorem Spellable.spellableFacts (h : m.Spellable) (hl : m.Listed l) : SpellableFacts l :=
  fun f hf =>
    have hsaid : m.Says f := (hl.2 f).mp hf
    ⟨h.facts f hsaid, h.isName_owner hsaid⟩

end Mappings
end ClassRelabel
