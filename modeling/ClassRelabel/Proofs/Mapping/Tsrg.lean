/-
Members under their class are read back.

Every line of a member stands under the line of its class, so the class that the reader has in mind
is the one that the member belongs to.  Descriptors of fields and parameters are left out.
-/
import ClassRelabel.Mapping.Tsrg
import ClassRelabel.Proofs.Mapping.Spelling

namespace ClassRelabel
namespace Mapping

open Text

theorem head?_spaced {w : String} (hw : IsName w) (ws : List String) :
    (spaced "" (w :: ws)).head? = w.toList.head? := by
  obtain ⟨rest, hrest⟩ := unwords_cons w.toList (ws.map String.toList)
  rw [spaced, List.map_cons, hrest]
  obtain ⟨c, cs, hcs⟩ := List.exists_cons_of_ne_nil hw.1
  simp [hcs]

/-- A name for a package. -/
structure IsPackageName (s : String) : Prop where
  name : IsName s
  comment : s.toList.head? ≠ some '#'
  slash : s.toList.getLast? = some '/'

theorem isPackage_of_slash {s : String} (h : s.toList.getLast? = some '/') :
    isPackage s = true := by
  simp [isPackage, h]

theorem isPackage_of_no_slash {s : String} (h : s.toList.getLast? ≠ some '/') :
    isPackage s = false := by
  simpa [isPackage] using h

namespace Tsrg

/-- What stands in front of a member. -/
def IsIndent (s : String) : Prop := s.toList ≠ [] ∧ ∀ c ∈ s.toList, c = '\t' ∨ c = ' '

/-- The words of a line behind its indentation, the fact that it gives, and the class under which it
stands and the one under which the next line stands. -/
inductive Record : Option String → List Fact → String → List String → Option String → Prop
  | package {above : Option String} {old new : String} (hold : IsPackageName old)
      (hnew : IsName new) : Record above [] "" [old, new] none
  | className {above : Option String} {owner new : String} :
      Record above [.className owner new] "" [owner, new] (some owner)
  | field {owner name indent : String} {entry : FieldEntry} (hindent : IsIndent indent) :
      Record (some owner) [.field owner name entry] indent [name, entry.name] (some owner)
  | method {owner indent : String} {key : MethodKey} {entry : MethodEntry}
      (hindent : IsIndent indent) :
      Record (some owner) [.method owner key entry] indent
        [key.name, key.descriptor, entry.name] (some owner)

/-- Lines for the facts in order, and for packages in between. -/
inductive Rendering : Option String → List Fact → List (List Char) → Prop
  | nil {above : Option String} : Rendering above [] []
  | record {above below : Option String} {fs l : List Fact} {indent : String} {ws : List String}
      {rs : List (List Char)} (h : Record above fs indent ws below)
      (hrest : Rendering below l rs) : Rendering above (fs ++ l) (spaced indent ws :: rs)

/-- What is left of a fact. -/
def remainder (f : Fact) : Fact :=
  (f.mapEntries id MethodEntry.withoutParameters).mapEntries FieldEntry.withoutDescriptor id

theorem subject_remainder (f : Fact) : (remainder f).subject = f.subject :=
  Fact.subject_mapEntries.trans Fact.subject_mapEntries

variable {above below : Option String} {fs l : List Fact} {indent : String} {ws : List String}
variable {rs : List (List Char)} {m : Mappings}

theorem IsIndent.allBlank (h : IsIndent indent) : AllBlank indent.toList := by
  intro c hc
  rcases h.2 c hc with rfl | rfl <;> decide

theorem IsIndent.not_mem (h : IsIndent indent) : '\n' ∉ indent.toList := by
  intro hc
  rcases h.2 '\n' hc with h | h <;> simp at h

theorem isIndented_spaced (h : IsIndent indent) (k : Nat) (ws : List String) :
    isIndented ⟨k, spaced indent ws⟩ = true := by
  obtain ⟨c, cs, hcs⟩ := List.exists_cons_of_ne_nil h.1
  rcases h.2 c (hcs ▸ List.mem_cons_self) with rfl | rfl <;> simp [isIndented, spaced, hcs]

theorem isIndented_margin {w : String} (hw : IsName w) (k : Nat) (ws : List String) :
    isIndented ⟨k, spaced "" (w :: ws)⟩ = false := by
  obtain ⟨c, cs, hcs⟩ := List.exists_cons_of_ne_nil hw.1
  have hc : isBlank c = false := hw.2 c (hcs ▸ List.mem_cons_self)
  have htab : c ≠ '\t' := by
    rintro rfl
    simp [isBlank] at hc
  have hspace : c ≠ ' ' := by
    rintro rfl
    simp [isBlank] at hc
  simp [isIndented, head?_spaced hw, hcs, htab, hspace]

/-- Facts can be written if every member follows its class. -/
theorem exists_rendering (h : Grouped above l) : ∃ rs, Rendering above l rs := by
  have htab : IsIndent "\t" := by
    unfold IsIndent
    simp
  induction h with
  | nil => exact ⟨[], .nil⟩
  | className _ ih =>
    obtain ⟨rs, hrs⟩ := ih
    exact ⟨_, .record .className hrs⟩
  | field _ ih =>
    obtain ⟨rs, hrs⟩ := ih
    exact ⟨_, .record (.field htab) hrs⟩
  | method _ ih =>
    obtain ⟨rs, hrs⟩ := ih
    exact ⟨_, .record (.method htab) hrs⟩

theorem Record.isName (h : Record above fs indent ws below) (hfs : SpellableFacts fs) :
    ∀ w ∈ ws, IsName w := by
  cases h with
  | package hold hnew => simpa using ⟨hold.name, hnew⟩
  | className =>
    obtain ⟨⟨howner, hnew, -⟩, -⟩ := List.forall_mem_singleton.mp hfs
    simpa using ⟨howner, hnew⟩
  | field _ =>
    obtain ⟨⟨hname, hnew, -⟩, -⟩ := List.forall_mem_singleton.mp hfs
    simpa using ⟨hname.1, hnew.1⟩
  | method _ =>
    obtain ⟨⟨hname, hnew, -, hdescriptor, -⟩, -⟩ := List.forall_mem_singleton.mp hfs
    simpa using ⟨hname.1, hdescriptor, hnew.1⟩

theorem Record.allBlank (h : Record above fs indent ws below) : AllBlank indent.toList := by
  cases h with
  | package _ _ => simp [AllBlank]
  | className => simp [AllBlank]
  | field hindent => exact hindent.allBlank
  | method hindent => exact hindent.allBlank

theorem Record.speaks (h : Record above fs indent ws below) (hfs : SpellableFacts fs) :
    Speaks (spaced indent ws) := by
  have hnames := h.isName hfs
  have hblanks := h.allBlank
  cases h with
  | package hold _ => exact speaks_spaced hblanks (by simp) hnames hold.comment
  | className =>
    obtain ⟨⟨-, -, hcomment, -⟩, -⟩ := List.forall_mem_singleton.mp hfs
    exact speaks_spaced hblanks (by simp) hnames hcomment
  | field hindent =>
    obtain ⟨⟨-, -, hcomment, -⟩, -⟩ := List.forall_mem_singleton.mp hfs
    exact speaks_spaced hblanks hindent.not_mem hnames hcomment
  | method hindent =>
    obtain ⟨⟨-, -, hcomment, -⟩, -⟩ := List.forall_mem_singleton.mp hfs
    exact speaks_spaced hblanks hindent.not_mem hnames hcomment

/-- A line gives its fact and leaves the class that the next line stands under. -/
theorem Record.step (h : Record above fs indent ws below) (hfs : SpellableFacts fs) (k : Nat)
    (hm : m.Fresh (fs ++ l)) : step ⟨m, above⟩ ⟨k, spaced indent ws⟩ =
      .ok ⟨(fs.map remainder).foldl Mappings.tell m, below⟩ := by
  have hwords := words_spaced k h.allBlank (h.isName hfs)
  cases h with
  | package hold _ =>
    simp only [Tsrg.step, isIndented_margin hold.name, hwords, isPackage_of_slash hold.slash]
    rfl
  | className =>
    obtain ⟨⟨howner, -, -, hslash⟩, -⟩ := List.forall_mem_singleton.mp hfs
    simp only [Tsrg.step, isIndented_margin howner, hwords, isPackage_of_no_slash hslash]
    rfl
  | field hindent =>
    simp only [Tsrg.step, isIndented_spaced hindent, hwords]
    rfl
  | @method owner _ key entry hindent =>
    have htell : m.nameMethod owner key entry.name =
        m.tell (remainder (.method owner key entry)) := hm.nameMethod entry.name
    simp only [Tsrg.step, isIndented_spaced hindent, hwords]
    exact congrArg (fun m => Except.ok (State.mk m (some owner))) htell

theorem Rendering.speaks (h : Rendering above l rs) (hl : SpellableFacts l) :
    ∀ r ∈ rs, Speaks r := by
  induction h with
  | nil => simp
  | record h _ ih =>
    obtain ⟨hfs, hl⟩ := List.forall_mem_append.mp hl
    exact List.forall_mem_cons.mpr ⟨h.speaks hfs, ih hl⟩

/-- Lines give their facts one after the other, whichever class the last one stands under. -/
theorem Rendering.foldlM_step (h : Rendering above l rs) (hl : SpellableFacts l) (hm : m.Fresh l)
    {ls : List Line} (hls : ls.map Line.chars = rs) : ∃ below, ls.foldlM step ⟨m, above⟩ =
      .ok ⟨(l.map remainder).foldl Mappings.tell m, below⟩ := by
  induction h generalizing m ls with
  | @nil above =>
    obtain rfl := List.map_eq_nil_iff.mp hls
    exact ⟨above, rfl⟩
  | record h _ ih =>
    obtain ⟨⟨k, chars⟩, rest, rfl, rfl, hrest⟩ := List.map_eq_cons_iff.mp hls
    obtain ⟨hfs, hl⟩ := List.forall_mem_append.mp hl
    rw [List.foldlM_cons, h.step hfs k hm, List.map_append, List.foldl_append]
    exact ih hl (hm.foldl_tell subject_remainder) hrest

theorem Rendering.read_eq (h : Rendering none l rs) {M : Mappings} (hM : M.Spellable)
    (hl : M.Listed l) {text : String} (hlayout : Layout rs text.toList) :
    read text = .ok M.withoutParameters.withoutDescriptors := by
  have hfacts := hM.spellableFacts hl
  have hrecords := hlayout.records_eq (h.speaks hfacts)
  obtain ⟨below, hrun⟩ := h.foldlM_step hfacts hl.fresh hrecords
  have hlisted : M.withoutParameters.withoutDescriptors.Listed (l.map remainder) := by
    have hplain : M.withoutParameters.Listed
        (l.map (Fact.mapEntries id MethodEntry.withoutParameters)) := hl.mapEntries
    have hmapped : M.withoutParameters.withoutDescriptors.Listed _ := hplain.mapEntries
    rwa [List.map_map] at hmapped
  rw [read, hrun]
  exact congrArg Except.ok (hlisted.foldl_tell hM.named.mapEntries.mapEntries)

end Tsrg
end Mapping
end ClassRelabel
