/-
Mapping files with namespaces are read back.

Each line has one name for each namespace, and the names beyond the second are free.  Under the line
of a method stand its parameters and marks, so that a method is told with all of its parameters:
`Slots.foldlM_step`.
-/
import ClassRelabel.Mapping.Tsrg2
import ClassRelabel.Proofs.Mapping.Tsrg
import ClassRelabel.Proofs.Text.Decimal

namespace ClassRelabel

open Std (ExtTreeMap)
open Text

/-! ## Parameters -/

/-- A later entry of a method replaces the one before. -/
theorem ClassEntry.insertMethod_insertMethod (e : ClassEntry) (key : MethodKey)
    (entry entry' : MethodEntry) :
    (e.insertMethod key entry).insertMethod key entry' = e.insertMethod key entry' := by
  have hmethods : (e.methods.insert key entry).insert key entry' = e.methods.insert key entry' := by
    refine ExtTreeMap.ext_getElem? fun other => ?_
    simp only [ExtTreeMap.getElem?_insert]
    split <;> rfl
  simp only [insertMethod, hmethods]

/-- A parameter of a method that was just told is told with it. -/
theorem Mappings.nameParameter_tell (m : Mappings) (owner : String) (key : MethodKey)
    (slot : UInt16) (new : String) (entry : MethodEntry) :
    (m.tell (.method owner key entry)).nameParameter owner key slot new =
      m.tell (.method owner key { entry with parameters := entry.parameters.insert slot new }) := by
  refine ext_class? fun other => ?_
  rw [nameParameter, class?_update, class?_tell, class?_tell, class?_tell]
  by_cases hother : other = owner
  · simp only [Fact.owner, hother, if_true, Option.getD_some, ClassEntry.tell,
      ClassEntry.updateMethod]
    rw [ClassEntry.insertMethod_insertMethod]
    simp only [ClassEntry.insertMethod, ExtTreeMap.getD_insert_self]
  · simp [Fact.owner, hother]

/-- Parameters by slot, each once. -/
def MethodEntry.Lists (entry : MethodEntry) (ps : List (UInt16 × String)) : Prop :=
  ps.Nodup ∧ ∀ p, p ∈ ps ↔ entry.parameters[p.1]? = some p.2

theorem MethodEntry.lists_toList (entry : MethodEntry) : entry.Lists entry.parameters.toList :=
  ⟨nodup_toList _, fun _ => ExtTreeMap.mem_toList_iff_getElem?_eq_some⟩

def insertParameters (ps : List (UInt16 × String)) (t : ExtTreeMap UInt16 String compare) :
    ExtTreeMap UInt16 String compare :=
  ps.foldl (fun t p => t.insert p.1 p.2) t

theorem getElem?_insertParameters {ps : List (UInt16 × String)} (hps : (ps.map Prod.fst).Nodup)
    (t : ExtTreeMap UInt16 String compare) (slot : UInt16) (new : String) :
    (insertParameters ps t)[slot]? = some new ↔
      (slot, new) ∈ ps ∨ slot ∉ ps.map Prod.fst ∧ t[slot]? = some new := by
  induction ps generalizing t with
  | nil => simp [insertParameters]
  | cons p ps ih =>
    obtain ⟨hp, hps⟩ := List.nodup_cons.mp hps
    have hstep : insertParameters (p :: ps) t = insertParameters ps (t.insert p.1 p.2) := rfl
    rw [hstep, ih hps, ExtTreeMap.getElem?_insert, List.mem_cons, List.map_cons, List.mem_cons]
    simp only [Std.LawfulEqCmp.compare_eq_iff_eq, not_or]
    by_cases hslot : p.1 = slot
    · rw [if_pos hslot, Option.some.injEq]
      have hnot : slot ∉ ps.map Prod.fst := hslot ▸ hp
      have hmem : (slot, new) ∉ ps := fun h => hnot (List.mem_map_of_mem h)
      have heq : (slot, new) = p ↔ p.2 = new := by
        rw [Prod.ext_iff]
        exact ⟨fun h => h.2.symm, fun h => ⟨hslot.symm, h.symm⟩⟩
      simp [hmem, hnot, heq, hslot]
    · rw [if_neg hslot]
      have hne : (slot, new) ≠ p := fun h => hslot (h ▸ rfl)
      simp [hne, Ne.symm hslot]

theorem MethodEntry.Lists.insertParameters_eq {entry : MethodEntry} {ps : List (UInt16 × String)}
    (h : entry.Lists ps) : insertParameters ps ∅ = entry.parameters := by
  have hslots : (ps.map Prod.fst).Nodup := by
    refine List.Nodup.map_on (fun p hp q hq hslot => ?_) h.1
    have hp := (h.2 p).mp hp
    rw [hslot, (h.2 q).mp hq] at hp
    exact Prod.ext hslot (Option.some.inj hp).symm
  refine ExtTreeMap.ext_getElem? fun slot => Option.ext fun new => ?_
  rw [getElem?_insertParameters hslots, h.2 (slot, new)]
  simp

namespace Mapping
namespace Tsrg2

/-! ## Lines -/

/-- The lines under a method, in any order: its parameters, and marks that it is static. -/
inductive Slots (n : Nat) : List (UInt16 × String) → List (List Char) → Prop
  | nil : Slots n [] []
  | static {ps : List (UInt16 × String)} {rs : List (List Char)} (hrest : Slots n ps rs) :
      Slots n ps (spaced "\t\t" ["static"] :: rs)
  | parameter {ps : List (UInt16 × String)} {rs : List (List Char)} {slot : UInt16}
      {old new : String} {others : List String} (hold : IsName old)
      (hothers : ∀ w ∈ others, IsName w) (hn : others.length + 2 = n) (hrest : Slots n ps rs) :
      Slots n ((slot, new) :: ps)
        (spaced "\t\t" (slot.toNat.repr :: old :: new :: others) :: rs)

/-- The words of a line behind its indentation, what stands under it, the fact that both give, and
the class under which the line stands and the one under which the next one does.  There is a name
for each of `n` namespaces. -/
inductive Record (n : Nat) : Option String → List Fact → String → List String →
    List (List Char) → Option String → Prop
  | package {above : Option String} {old new : String} {others : List String}
      (hold : IsPackageName old) (hnew : IsName new) (hothers : ∀ w ∈ others, IsName w)
      (hn : others.length + 2 = n) : Record n above [] "" (old :: new :: others) [] none
  | className {above : Option String} {owner new : String} {others : List String}
      (hothers : ∀ w ∈ others, IsName w) (hn : others.length + 2 = n) :
      Record n above [.className owner new] "" (owner :: new :: others) [] (some owner)
  | field {owner name new : String} {others : List String}
      (hothers : ∀ w ∈ others, IsName w) (hn : others.length + 2 = n) :
      Record n (some owner) [.field owner name ⟨new, none⟩] "\t" (name :: new :: others) []
        (some owner)
  | typedField {owner name descriptor new : String} {others : List String}
      (hothers : ∀ w ∈ others, IsName w) (hn : others.length + 2 = n) :
      Record n (some owner) [.field owner name ⟨new, some descriptor⟩] "\t"
        (name :: descriptor :: new :: others) [] (some owner)
  | method {owner : String} {key : MethodKey} {entry : MethodEntry} {others : List String}
      {ps : List (UInt16 × String)} {slots : List (List Char)}
      (hothers : ∀ w ∈ others, IsName w) (hn : others.length + 2 = n) (hps : entry.Lists ps)
      (hslots : Slots n ps slots) :
      Record n (some owner) [.method owner key entry] "\t"
        (key.name :: key.descriptor :: entry.name :: others) slots (some owner)

/-- Lines for the facts in order, and for packages in between. -/
inductive Rendering (n : Nat) : Option String → List Fact → List (List Char) → Prop
  | nil {above : Option String} : Rendering n above [] []
  | record {above below : Option String} {fs l : List Fact} {indent : String} {ws : List String}
      {slots rest : List (List Char)} (h : Record n above fs indent ws slots below)
      (hrest : Rendering n below l rest) :
      Rendering n above (fs ++ l) (spaced indent ws :: slots ++ rest)

variable {n : Nat} {above below : Option String} {fs l : List Fact} {ps : List (UInt16 × String)}
variable {rs slots : List (List Char)} {m : Mappings} {owner : String} {key : MethodKey}
variable {indent : String} {ws : List String}

theorem exists_others (hn : 2 ≤ n) :
    ∃ others : List String, (∀ w ∈ others, IsName w) ∧ others.length + 2 = n := by
  refine ⟨List.replicate (n - 2) "-", fun w hw => ?_, ?_⟩
  · rw [List.eq_of_mem_replicate hw]
    decide
  · rw [List.length_replicate]
    omega

theorem exists_slots (hn : 2 ≤ n) (ps : List (UInt16 × String)) : ∃ rs, Slots n ps rs := by
  obtain ⟨others, hothers, hlength⟩ := exists_others hn
  have hword : IsName "-" := by decide
  induction ps with
  | nil => exact ⟨[], .nil⟩
  | cons p ps ih =>
    obtain ⟨rs, hrs⟩ := ih
    exact ⟨_, .parameter hword hothers hlength hrs⟩

/-- Facts can be written if every member follows its class. -/
theorem exists_rendering (hn : 2 ≤ n) (h : Grouped above l) : ∃ rs, Rendering n above l rs := by
  obtain ⟨others, hothers, hlength⟩ := exists_others hn
  induction h with
  | nil => exact ⟨[], .nil⟩
  | className _ ih =>
    obtain ⟨rs, hrs⟩ := ih
    exact ⟨_, .record (.className hothers hlength) hrs⟩
  | @field owner name entry l _ ih =>
    obtain ⟨rs, hrs⟩ := ih
    obtain ⟨new, descriptor | descriptor⟩ := entry
    · exact ⟨_, .record (.field hothers hlength) hrs⟩
    · exact ⟨_, .record (.typedField hothers hlength) hrs⟩
  | @method owner key entry l _ ih =>
    obtain ⟨rs, hrs⟩ := ih
    obtain ⟨slots, hslots⟩ := exists_slots hn entry.parameters.toList
    exact ⟨_, .record (.method hothers hlength entry.lists_toList hslots) hrs⟩

/-- The tabs in front of a line. -/
theorem depth_spaced {indent w : String} (hindent : ∀ c ∈ indent.toList, c = '\t')
    (hw : IsName w) (k : Nat) (ws : List String) :
    depth ⟨k, spaced indent (w :: ws)⟩ = indent.toList.length := by
  obtain ⟨rest, hrest⟩ := unwords_cons w.toList (ws.map String.toList)
  obtain ⟨c, cs, hcs⟩ := List.exists_cons_of_ne_nil hw.1
  have hc : c ≠ '\t' := by
    rintro rfl
    have hblank := hw.2 '\t' (hcs ▸ List.mem_cons_self)
    simp [isBlank] at hblank
  rw [depth, spaced, List.map_cons, hrest, hcs, List.cons_append,
    List.takeWhile_append_of_pos (by simpa using hindent),
    List.takeWhile_cons_of_neg (by simpa using hc), List.append_nil]

section Step

variable {w : String} (hw : IsName w) (s : State) (k : Nat) (ws : List String)
include hw

theorem step_margin :
    step n s ⟨k, spaced "" (w :: ws)⟩ = classStep n s ⟨k, spaced "" (w :: ws)⟩ := by
  rw [step, depth_spaced (by simp) hw]
  rfl

theorem step_member :
    step n s ⟨k, spaced "\t" (w :: ws)⟩ = memberStep n s ⟨k, spaced "\t" (w :: ws)⟩ := by
  rw [step, depth_spaced (by simp) hw]
  rfl

theorem step_slot :
    step n s ⟨k, spaced "\t\t" (w :: ws)⟩ = parameterStep n s ⟨k, spaced "\t\t" (w :: ws)⟩ := by
  rw [step, depth_spaced (by simp) hw]
  rfl

end Step

theorem allBlank_of_tabs {indent : String} (h : ∀ c ∈ indent.toList, c = '\t') :
    AllBlank indent.toList := by
  intro c hc
  rw [h c hc]
  decide

theorem Slots.speaks (h : Slots n ps rs) (hps : ∀ p ∈ ps, IsName p.2) : ∀ r ∈ rs, Speaks r := by
  have htabs : AllBlank "\t\t".toList := allBlank_of_tabs (by simp)
  induction h with
  | nil => simp
  | static _ ih =>
    have hnames : ∀ w ∈ ["static"], IsName w := by simpa using (by decide : IsName "static")
    exact List.forall_mem_cons.mpr
      ⟨speaks_spaced htabs (by simp) hnames (by decide), ih hps⟩
  | @parameter ps rs slot old new others hold hothers _ _ ih =>
    obtain ⟨hnew, hps⟩ := List.forall_mem_cons.mp hps
    have hnames : ∀ w ∈ slot.toNat.repr :: old :: new :: others, IsName w := by
      simp only [List.forall_mem_cons]
      exact ⟨isWord_repr _, hold, hnew, hothers⟩
    exact List.forall_mem_cons.mpr
      ⟨speaks_spaced htabs (by simp) hnames (head?_repr_ne (by decide) _), ih hps⟩

theorem parameterStep_eq {l : Line} {slot old new : String} {others : List String} {v : Nat}
    (hwords : l.words = slot :: old :: new :: others) (hn : others.length + 2 = n)
    (hslot : decimal? 0xFFFF slot = some v) :
    parameterStep n ⟨m, some owner, some key⟩ l =
      .ok ⟨m.nameParameter owner key (UInt16.ofNat v) new, some owner, some key⟩ := by
  have hlength : ¬(old :: new :: others).length ≠ n := not_not.mpr hn
  rw [parameterStep]
  simp only [hwords]
  show (if (old :: new :: others).length ≠ n then _ else _) = _
  rw [if_neg hlength, hslot]
  rfl

/-- The lines under a method give its parameters. -/
theorem Slots.foldlM_step (h : Slots n ps rs) (hps : ∀ p ∈ ps, IsName p.2) (entry : MethodEntry)
    {ls : List Line} (hls : ls.map Line.chars = rs) :
    ls.foldlM (step n) ⟨m.tell (.method owner key entry), some owner, some key⟩ =
      .ok ⟨m.tell (.method owner key
          { entry with parameters := insertParameters ps entry.parameters }),
        some owner, some key⟩ := by
  have htabs : ∀ c ∈ "\t\t".toList, c = '\t' := by simp
  induction h generalizing entry ls with
  | nil =>
    obtain rfl := List.map_eq_nil_iff.mp hls
    rfl
  | static _ ih =>
    obtain ⟨⟨k, chars⟩, rest, rfl, rfl, hrest⟩ := List.map_eq_cons_iff.mp hls
    have hnames : ∀ w ∈ ["static"], IsName w := by simpa using (by decide : IsName "static")
    have hwords := words_spaced k (allBlank_of_tabs htabs) hnames
    rw [List.foldlM_cons, step_slot (hnames _ List.mem_cons_self)]
    simp only [parameterStep, hwords]
    exact ih hps entry hrest
  | @parameter ps rs slot old new others hold hothers hn _ ih =>
    obtain ⟨⟨k, chars⟩, rest, rfl, rfl, hrest⟩ := List.map_eq_cons_iff.mp hls
    obtain ⟨hnew, hps⟩ := List.forall_mem_cons.mp hps
    have hnames : ∀ w ∈ slot.toNat.repr :: old :: new :: others, IsName w := by
      simp only [List.forall_mem_cons]
      exact ⟨isWord_repr _, hold, hnew, hothers⟩
    have hwords := words_spaced k (allBlank_of_tabs htabs) hnames
    have hslot : slot.toNat ≤ 0xFFFF := Nat.le_of_lt_succ slot.toNat_lt
    rw [List.foldlM_cons, step_slot (hnames _ List.mem_cons_self),
      parameterStep_eq hwords hn (decimal?_repr hslot), Mappings.nameParameter_tell,
      UInt16.ofNat_toNat]
    exact ih hps _ hrest

/-- A line at the margin names a class, or a package that takes no members. -/
theorem classStep_eq {l : Line} {old new : String} {others : List String}
    {method : Option MethodKey} (hwords : l.words = old :: new :: others)
    (hn : others.length + 2 = n) : classStep n ⟨m, above, method⟩ l =
      if isPackage old then .ok ⟨m, none, none⟩ else .ok ⟨m.nameClass old new, some old, none⟩ := by
  rw [classStep]
  simp only [hwords, hn, ne_eq, not_true, if_false]
  rfl

theorem memberStep_field {l : Line} {name new : String} {others : List String}
    {method : Option MethodKey} (hwords : l.words = name :: new :: others)
    (hn : others.length + 2 = n) : memberStep n ⟨m, some owner, method⟩ l =
      .ok ⟨m.nameField owner name ⟨new, none⟩, some owner, none⟩ := by
  have hlength : (name :: new :: others).length = n := hn
  simp only [memberStep, hwords, hlength, if_true]
  rfl

theorem memberStep_described {l : Line} {name descriptor new : String} {others : List String}
    {method : Option MethodKey} (hwords : l.words = name :: descriptor :: new :: others)
    (hn : others.length + 2 = n) : memberStep n ⟨m, some owner, method⟩ l =
      if descriptor.toList.head? = some '(' then
        .ok ⟨m.nameMethod owner ⟨name, descriptor⟩ new, some owner, some ⟨name, descriptor⟩⟩
      else
        .ok ⟨m.nameField owner name ⟨new, some descriptor⟩, some owner, none⟩ := by
  have hlength : (name :: descriptor :: new :: others).length = n + 1 := congrArg (· + 1) hn
  have hne : n + 1 ≠ n := Nat.succ_ne_self n
  simp only [memberStep, hwords, hlength, if_neg hne, if_true]
  rfl

theorem Record.isName (h : Record n above fs indent ws slots below) (hfs : SpellableFacts fs) :
    ∀ w ∈ ws, IsName w := by
  cases h with
  | package hold hnew hothers _ =>
    simp only [List.forall_mem_cons]
    exact ⟨hold.name, hnew, hothers⟩
  | className hothers _ =>
    obtain ⟨⟨howner, hnew, -⟩, -⟩ := List.forall_mem_singleton.mp hfs
    simp only [List.forall_mem_cons]
    exact ⟨howner, hnew, hothers⟩
  | field hothers _ =>
    obtain ⟨⟨hname, hnew, -⟩, -⟩ := List.forall_mem_singleton.mp hfs
    simp only [List.forall_mem_cons]
    exact ⟨hname.1, hnew.1, hothers⟩
  | typedField hothers _ =>
    obtain ⟨⟨hname, hnew, -, hdescriptor⟩, -⟩ := List.forall_mem_singleton.mp hfs
    simp only [List.forall_mem_cons]
    exact ⟨hname.1, (hdescriptor _ rfl).1, hnew.1, hothers⟩
  | method hothers _ _ _ =>
    obtain ⟨⟨hname, hnew, -, hdescriptor, -⟩, -⟩ := List.forall_mem_singleton.mp hfs
    simp only [List.forall_mem_cons]
    exact ⟨hname.1, hdescriptor, hnew.1, hothers⟩

theorem Record.tabs (h : Record n above fs indent ws slots below) :
    ∀ c ∈ indent.toList, c = '\t' := by
  cases h <;> simp

theorem isName_of_lists {entry : MethodEntry} (hfact : (Fact.method owner key entry).Spellable)
    (hps : entry.Lists ps) : ∀ p ∈ ps, IsName p.2 := by
  obtain ⟨-, -, -, -, -, hparameters⟩ := hfact
  exact fun p hp => hparameters p.1 p.2 ((hps.2 p).mp hp)

theorem Record.speaks (h : Record n above fs indent ws slots below) (hfs : SpellableFacts fs) :
    ∀ r ∈ spaced indent ws :: slots, Speaks r := by
  have hnames := h.isName hfs
  have hblanks : AllBlank indent.toList := allBlank_of_tabs h.tabs
  have hfeed : '\n' ∉ indent.toList := fun hmem => by simpa using h.tabs '\n' hmem
  rw [List.forall_mem_cons]
  cases h with
  | package hold _ _ _ => exact ⟨speaks_spaced hblanks hfeed hnames hold.comment, by simp⟩
  | className _ _ =>
    obtain ⟨⟨-, -, hcomment, -⟩, -⟩ := List.forall_mem_singleton.mp hfs
    exact ⟨speaks_spaced hblanks hfeed hnames hcomment, by simp⟩
  | field _ _ =>
    obtain ⟨⟨-, -, hcomment, -⟩, -⟩ := List.forall_mem_singleton.mp hfs
    exact ⟨speaks_spaced hblanks hfeed hnames hcomment, by simp⟩
  | typedField _ _ =>
    obtain ⟨⟨-, -, hcomment, -⟩, -⟩ := List.forall_mem_singleton.mp hfs
    exact ⟨speaks_spaced hblanks hfeed hnames hcomment, by simp⟩
  | method _ _ hps hslots =>
    obtain ⟨hfact, -⟩ := List.forall_mem_singleton.mp hfs
    have hparameters := isName_of_lists hfact hps
    obtain ⟨-, -, hcomment, -⟩ := hfact
    exact ⟨speaks_spaced hblanks hfeed hnames hcomment, hslots.speaks hparameters⟩

/-- A line gives its fact, with what stands under it, and leaves the class that the next line stands
under. -/
theorem Record.foldlM_step (h : Record n above fs indent ws slots below) (hfs : SpellableFacts fs)
    (hm : m.Fresh (fs ++ l)) (method : Option MethodKey) (k : Nat) {ls : List Line}
    (hls : ls.map Line.chars = slots) : ∃ method',
      (⟨k, spaced indent ws⟩ :: ls).foldlM (step n) ⟨m, above, method⟩ =
        .ok ⟨fs.foldl Mappings.tell m, below, method'⟩ := by
  have hnames := h.isName hfs
  have hwords := words_spaced k (allBlank_of_tabs h.tabs) hnames
  cases h with
  | package hold _ _ hn =>
    obtain rfl := List.map_eq_nil_iff.mp hls
    rw [List.foldlM_cons, step_margin (hnames _ List.mem_cons_self), classStep_eq hwords hn,
      isPackage_of_slash hold.slash]
    exact ⟨none, rfl⟩
  | className _ hn =>
    obtain rfl := List.map_eq_nil_iff.mp hls
    obtain ⟨⟨-, -, -, hslash⟩, -⟩ := List.forall_mem_singleton.mp hfs
    rw [List.foldlM_cons, step_margin (hnames _ List.mem_cons_self), classStep_eq hwords hn,
      isPackage_of_no_slash hslash]
    exact ⟨none, rfl⟩
  | field _ hn =>
    obtain rfl := List.map_eq_nil_iff.mp hls
    rw [List.foldlM_cons, step_member (hnames _ List.mem_cons_self), memberStep_field hwords hn]
    exact ⟨none, rfl⟩
  | typedField _ hn =>
    obtain rfl := List.map_eq_nil_iff.mp hls
    obtain ⟨⟨-, -, -, hdescriptor⟩, -⟩ := List.forall_mem_singleton.mp hfs
    rw [List.foldlM_cons, step_member (hnames _ List.mem_cons_self),
      memberStep_described hwords hn, if_neg (hdescriptor _ rfl).2]
    exact ⟨none, rfl⟩
  | @method owner key entry others ps _ _ hn hps hslots =>
    obtain ⟨hfact, -⟩ := List.forall_mem_singleton.mp hfs
    have hparameters := isName_of_lists hfact hps
    have hrun : ls.foldlM (step n)
        ⟨m.tell (.method owner key ⟨entry.name, ∅⟩), some owner, some key⟩ = .ok
          ⟨m.tell (.method owner key ⟨entry.name, insertParameters ps ∅⟩), some owner, some key⟩ :=
      hslots.foldlM_step hparameters ⟨entry.name, ∅⟩ hls
    obtain ⟨-, -, -, -, hbracket, -⟩ := hfact
    -- The entry grows with the lines under the method until it has all parameters.
    rw [hps.insertParameters_eq] at hrun
    rw [List.foldlM_cons, step_member (hnames _ List.mem_cons_self),
      memberStep_described hwords hn, if_pos hbracket, hm.nameMethod entry.name]
    exact ⟨some key, hrun⟩

theorem Rendering.speaks (h : Rendering n above l rs) (hl : SpellableFacts l) :
    ∀ r ∈ rs, Speaks r := by
  induction h with
  | nil => simp
  | record h _ ih =>
    obtain ⟨hfs, hl⟩ := List.forall_mem_append.mp hl
    exact List.forall_mem_append.mpr ⟨h.speaks hfs, ih hl⟩

/-- Lines give their facts one after the other, whichever class and method the last one stands
under. -/
theorem Rendering.foldlM_step (h : Rendering n above l rs) (hl : SpellableFacts l)
    (hm : m.Fresh l) (method : Option MethodKey) {ls : List Line} (hls : ls.map Line.chars = rs) :
    ∃ below method', ls.foldlM (step n) ⟨m, above, method⟩ =
      .ok ⟨l.foldl Mappings.tell m, below, method'⟩ := by
  induction h generalizing m method ls with
  | @nil above =>
    obtain rfl := List.map_eq_nil_iff.mp hls
    exact ⟨above, method, rfl⟩
  | @record above below fs l indent ws slots rest h _ ih =>
    obtain ⟨front, back, rfl, hfront, hback⟩ := List.map_eq_append_iff.mp hls
    obtain ⟨⟨k, chars⟩, under, rfl, rfl, hunder⟩ := List.map_eq_cons_iff.mp hfront
    obtain ⟨hfs, hl⟩ := List.forall_mem_append.mp hl
    obtain ⟨method', hrun⟩ := h.foldlM_step hfs hm method k hunder
    have hfresh : ((fs.map id).foldl Mappings.tell m).Fresh l := hm.foldl_tell fun _ => rfl
    rw [List.map_id] at hfresh
    rw [List.foldlM_append, hrun, List.foldl_append]
    exact ih hl hfresh method' hback

theorem header_eq {namespaces : List String} (hnames : ∀ w ∈ namespaces, IsName w) (k : Nat)
    (hne : namespaces ≠ []) :
    header ⟨k, spaced "" ("tsrg2" :: namespaces)⟩ = .ok namespaces.length := by
  have hall : ∀ w ∈ "tsrg2" :: namespaces, IsName w :=
    List.forall_mem_cons.mpr ⟨by decide, hnames⟩
  have hwords : (Line.mk k (spaced "" ("tsrg2" :: namespaces))).words = "tsrg2" :: namespaces :=
    words_spaced k (by simp [AllBlank]) hall
  obtain ⟨w, ws, rfl⟩ := List.exists_cons_of_ne_nil hne
  have hfront : "tsrg2 ".toList.isPrefixOf (spaced "" ("tsrg2" :: w :: ws)) = true := by
    rw [List.isPrefixOf_iff_prefix]
    exact ⟨unwords ((w :: ws).map String.toList), by simp [spaced, unwords_cons_cons]⟩
  rw [header, if_pos hfront, hwords]
  rfl

theorem Rendering.read_eq {namespaces : List String} (hnames : ∀ w ∈ namespaces, IsName w)
    (hn : 2 ≤ namespaces.length) (h : Rendering namespaces.length none l rs) {M : Mappings}
    (hM : M.Spellable) (hl : M.Listed l) {text : String}
    (hlayout : Layout (spaced "" ("tsrg2" :: namespaces) :: rs) text.toList) :
    read text = .ok M := by
  have hfacts := hM.spellableFacts hl
  have hne : namespaces ≠ [] := List.ne_nil_of_length_pos (by omega)
  have hall : ∀ w ∈ "tsrg2" :: namespaces, IsName w :=
    List.forall_mem_cons.mpr ⟨by decide, hnames⟩
  have hheader : Speaks (spaced "" ("tsrg2" :: namespaces)) :=
    speaks_spaced (by simp [AllBlank]) (by simp) hall (by decide)
  have hrecords := hlayout.records_eq
    (List.forall_mem_cons.mpr ⟨hheader, h.speaks hfacts⟩)
  obtain ⟨⟨k, chars⟩, rest, hsplit, rfl, hrest⟩ := List.map_eq_cons_iff.mp hrecords
  obtain ⟨below, method, hrun⟩ := h.foldlM_step hfacts hl.fresh none hrest
  rw [read, hsplit]
  show (header _ >>= _) = _
  rw [header_eq hnames k hne]
  show (if namespaces.length < 2 then _ else _) = _
  rw [if_neg (by omega), hrun]
  exact congrArg Except.ok (hl.foldl_tell hM.named)

end Tsrg2
end Mapping
end ClassRelabel
