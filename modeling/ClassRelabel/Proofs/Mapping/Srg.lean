/-
Flat records are read back.

A record stands for one fact or for a package.  Parameters are left out.  A record gives its member
the name behind the last slash, whatever owner and descriptor stand with the new name.
-/
import ClassRelabel.Mapping.Srg
import ClassRelabel.Proofs.Mapping.Spelling

namespace ClassRelabel
namespace Mapping

open Text

/-- A member behind its class. -/
def qualified (owner name : String) : String := owner ++ "/" ++ name

theorem isName_qualified {owner name : String} (howner : ∀ c ∈ owner.toList, isBlank c = false)
    (hname : IsName name) : IsName (qualified owner name) := by
  constructor
  · simp [qualified]
  · intro c hc
    rw [qualified, String.toList_append, String.toList_append, List.mem_append,
      List.mem_append] at hc
    rcases hc with (hc | hc) | hc
    · exact howner c hc
    · obtain rfl : c = '/' := by simpa using hc
      decide
    · exact hname.2 c hc

theorem splitMember_qualified (l : Line) {owner name : String} (hname : '/' ∉ name.toList) :
    l.splitMember (qualified owner name) = .ok (owner, name) := by
  have hcut : splitLast? '/' (qualified owner name).toList = some (owner.toList, name.toList) := by
    rw [splitLast?_eq_some]
    exact ⟨by simp [qualified], hname⟩
  rw [Line.splitMember, hcut]
  simp

namespace Srg

/-- The words of a record, and the fact that it gives. -/
inductive Record : List Fact → List String → Prop
  | package {old new : String} (hold : IsName old) (hnew : IsName new) :
      Record [] ["PK:", old, new]
  | className {owner new : String} : Record [.className owner new] ["CL:", owner, new]
  | field {owner name new newOwner : String}
      (hnewOwner : ∀ c ∈ newOwner.toList, isBlank c = false) :
      Record [.field owner name ⟨new, none⟩]
        ["FD:", qualified owner name, qualified newOwner new]
  | typedField {owner name descriptor new newOwner newDescriptor : String}
      (hnewOwner : ∀ c ∈ newOwner.toList, isBlank c = false)
      (hnewDescriptor : IsName newDescriptor) :
      Record [.field owner name ⟨new, some descriptor⟩]
        ["FD:", qualified owner name, descriptor, qualified newOwner new, newDescriptor]
  | method {owner newOwner newDescriptor : String} {key : MethodKey} {entry : MethodEntry}
      (hnewOwner : ∀ c ∈ newOwner.toList, isBlank c = false)
      (hnewDescriptor : IsName newDescriptor) :
      Record [.method owner key entry]
        ["MD:", qualified owner key.name, key.descriptor, qualified newOwner entry.name,
          newDescriptor]

/-- Records for the facts in order, and for packages in between. -/
inductive Rendering : List Fact → List (List Char) → Prop
  | nil : Rendering [] []
  | record {fs l : List Fact} {ws : List String} {rs : List (List Char)} (h : Record fs ws)
      (hrest : Rendering l rs) : Rendering (fs ++ l) (spaced "" ws :: rs)

variable {fs l : List Fact} {ws : List String} {rs : List (List Char)} {m : Mappings}

/-- Facts can be written in every order. -/
theorem exists_rendering (l : List Fact) : ∃ rs, Rendering l rs := by
  have hnone : ∀ c ∈ "".toList, isBlank c = false := by simp
  have hword : IsName "-" := by decide
  induction l with
  | nil => exact ⟨[], .nil⟩
  | cons f l ih =>
    obtain ⟨rs, hrs⟩ := ih
    cases f with
    | className owner new => exact ⟨_, .record .className hrs⟩
    | field owner name entry =>
      obtain ⟨new, descriptor | descriptor⟩ := entry
      · exact ⟨_, .record (.field hnone) hrs⟩
      · exact ⟨_, .record (.typedField hnone hword) hrs⟩
    | method owner key entry => exact ⟨_, .record (.method hnone hword) hrs⟩

theorem Record.isName (h : Record fs ws) (hfs : SpellableFacts fs) : ∀ w ∈ ws, IsName w := by
  cases h with
  | package hold hnew =>
    simp only [List.forall_mem_cons]
    exact ⟨by decide, hold, hnew, by simp⟩
  | className =>
    obtain ⟨⟨howner, hnew, -⟩, -⟩ := List.forall_mem_singleton.mp hfs
    simp only [List.forall_mem_cons]
    exact ⟨by decide, howner, hnew, by simp⟩
  | field hnewOwner =>
    obtain ⟨⟨hname, hnew, -⟩, howner⟩ := List.forall_mem_singleton.mp hfs
    simp only [List.forall_mem_cons]
    exact ⟨by decide, isName_qualified howner.2 hname.1, isName_qualified hnewOwner hnew.1, by simp⟩
  | typedField hnewOwner hnewDescriptor =>
    obtain ⟨⟨hname, hnew, -, hdescriptor⟩, howner⟩ := List.forall_mem_singleton.mp hfs
    simp only [List.forall_mem_cons]
    exact ⟨by decide, isName_qualified howner.2 hname.1, (hdescriptor _ rfl).1,
      isName_qualified hnewOwner hnew.1, hnewDescriptor, by simp⟩
  | method hnewOwner hnewDescriptor =>
    obtain ⟨⟨hname, hnew, -, hdescriptor, -⟩, howner⟩ := List.forall_mem_singleton.mp hfs
    simp only [List.forall_mem_cons]
    exact ⟨by decide, isName_qualified howner.2 hname.1, hdescriptor,
      isName_qualified hnewOwner hnew.1, hnewDescriptor, by simp⟩

theorem Record.speaks (h : Record fs ws) (hfs : SpellableFacts fs) : Speaks (spaced "" ws) := by
  have hnames := h.isName hfs
  have hempty : AllBlank "".toList := by simp [AllBlank]
  cases h <;> exact speaks_spaced hempty (by simp) hnames (by decide)

/-- A record gives its fact. -/
theorem Record.step (h : Record fs ws) (hfs : SpellableFacts fs) (k : Nat)
    (hm : m.Fresh (fs ++ l)) :
    step m ⟨k, spaced "" ws⟩ =
      .ok ((fs.map (Fact.mapEntries id MethodEntry.withoutParameters)).foldl Mappings.tell m) := by
  have hwords : (Line.mk k (spaced "" ws)).words = ws :=
    words_spaced k (by simp [AllBlank]) (h.isName hfs)
  cases h with
  | package _ _ => simp only [Srg.step, hwords]; rfl
  | className => simp only [Srg.step, hwords]; rfl
  | field _ =>
    obtain ⟨⟨hname, hnew, -⟩, -⟩ := List.forall_mem_singleton.mp hfs
    simp only [Srg.step, hwords, splitMember_qualified _ hname.2, splitMember_qualified _ hnew.2]
    rfl
  | typedField _ _ =>
    obtain ⟨⟨hname, hnew, -⟩, -⟩ := List.forall_mem_singleton.mp hfs
    simp only [Srg.step, hwords, splitMember_qualified _ hname.2, splitMember_qualified _ hnew.2]
    rfl
  | @method owner newOwner newDescriptor key entry _ _ =>
    obtain ⟨⟨hname, hnew, -⟩, -⟩ := List.forall_mem_singleton.mp hfs
    simp only [Srg.step, hwords, splitMember_qualified _ hname.2, splitMember_qualified _ hnew.2]
    have htell := hm.nameMethod entry.name
    exact congrArg Except.ok htell

theorem Rendering.speaks (h : Rendering l rs) (hl : SpellableFacts l) : ∀ r ∈ rs, Speaks r := by
  induction h with
  | nil => simp
  | record h _ ih =>
    obtain ⟨hfs, hl⟩ := List.forall_mem_append.mp hl
    exact List.forall_mem_cons.mpr ⟨h.speaks hfs, ih hl⟩

/-- Records give their facts one after the other. -/
theorem Rendering.foldlM_step (h : Rendering l rs) (hl : SpellableFacts l) (hm : m.Fresh l)
    {ls : List Line} (hls : ls.map Line.chars = rs) : ls.foldlM step m =
      .ok ((l.map (Fact.mapEntries id MethodEntry.withoutParameters)).foldl Mappings.tell m) := by
  -- What a record gives stays apart from what is still to come, so no method is found again.
  induction h generalizing m ls with
  | nil =>
    obtain rfl := List.map_eq_nil_iff.mp hls
    rfl
  | @record fs l ws rs h _ ih =>
    obtain ⟨⟨k, chars⟩, rest, rfl, rfl, hrest⟩ := List.map_eq_cons_iff.mp hls
    obtain ⟨hfs, hl⟩ := List.forall_mem_append.mp hl
    rw [List.foldlM_cons, h.step hfs k hm, List.map_append, List.foldl_append]
    exact ih hl (hm.foldl_tell fun f => Fact.subject_mapEntries) hrest

theorem Rendering.read_eq (h : Rendering l rs) {M : Mappings} (hM : M.Spellable)
    (hl : M.Listed l) {text : String} (hlayout : Layout rs text.toList) :
    read text = .ok M.withoutParameters := by
  have hfacts := hM.spellableFacts hl
  have hrecords := hlayout.records_eq (h.speaks hfacts)
  rw [read, h.foldlM_step hfacts hl.fresh hrecords, hl.mapEntries.foldl_tell hM.named.mapEntries]
  rfl

end Srg
end Mapping
end ClassRelabel
