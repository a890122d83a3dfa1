/-
Which line of a mapping file is to blame.

Every format is read line by line from some state (`LineReader`, `read_eq`).  A text that cannot be
read has one line that is to blame: up to there it can be read, and with this line it cannot,
whatever follows (`Blamed`).  The fault names that line (`Line.Names`), because every step names its
own line.  There is one exception.  A header that lists too few namespaces is reported for the first
line of the text, and comments may stand in front of it.
-/
import ClassRelabel.Mapping.Format
import ClassRelabel.Proofs.Effect
import ClassRelabel.Proofs.Text.Lines

namespace ClassRelabel
namespace Mapping

open Text

variable {α β : Type} {l : Line} {text : String} {fault : Fault}

/-! ## Steps name their line -/

/-- A fault of `x` is one of the line. -/
def Line.Names (l : Line) (x : Except Fault α) : Prop :=
  ∀ fault, x = .error fault → ∃ cause, fault = .mapping l.number cause

theorem Line.names_pure (l : Line) (a : α) : l.Names (pure a : Except Fault α) := by
  intro fault h
  simp [pure, Except.pure] at h

theorem Line.names_fault (l : Line) (cause : MappingFault) :
    l.Names (l.fault cause : Except Fault α) := by
  rintro _ ⟨⟩
  exact ⟨cause, rfl⟩

theorem Line.Names.bind {x : Except Fault α} {f : α → Except Fault β} (hx : l.Names x)
    (hf : ∀ a, l.Names (f a)) : l.Names (x >>= f) := by
  intro fault h
  cases hrun : x with
  | error e =>
    rw [hrun] at h
    obtain rfl : e = fault := Except.error.inj h
    exact hx e hrun
  | ok a =>
    rw [hrun] at h
    exact hf a fault h

theorem Line.names_splitMember (l : Line) (qualified : String) :
    l.Names (l.splitMember qualified) := by
  rw [Line.splitMember]
  split
  · exact l.names_pure _
  · exact l.names_fault _

theorem Line.names_splitMembers (l : Line) (old new : String)
    (f : String × String → String × String → α) :
    l.Names (do return f (← l.splitMember old) (← l.splitMember new)) :=
  (l.names_splitMember old).bind fun _ => (l.names_splitMember new).bind fun _ => l.names_pure _

theorem Srg.names_step (m : Mappings) (l : Line) : l.Names (step m l) := by
  rw [step]
  split
  · exact l.names_pure _
  · exact l.names_pure _
  · exact l.names_splitMembers _ _ fun old new => m.nameField old.1 old.2 ⟨new.2, none⟩
  · exact l.names_splitMembers _ _ fun old new => m.nameField old.1 old.2 ⟨new.2, some _⟩
  · exact l.names_splitMembers _ _ fun old new => m.nameMethod old.1 ⟨old.2, _⟩ new.2
  · exact l.names_fault _

theorem Tsrg.names_step (s : State) (l : Line) : l.Names (step s l) := by
  rw [step]
  split
  · split
    · exact l.names_fault _
    · split
      · exact l.names_pure _
      · exact l.names_pure _
      · exact l.names_fault _
  · split
    · split
      · exact l.names_pure _
      · exact l.names_pure _
    · exact l.names_fault _

namespace Tsrg2

theorem names_classStep (namespaces : Nat) (s : State) (l : Line) :
    l.Names (classStep namespaces s l) := by
  rw [classStep]
  split
  · split
    · exact l.names_fault _
    · split
      · exact l.names_pure _
      · exact l.names_pure _
  · exact l.names_fault _

theorem names_memberStep (namespaces : Nat) (s : State) (l : Line) :
    l.Names (memberStep namespaces s l) := by
  rw [memberStep]
  split
  · exact l.names_fault _
  · dsimp only
    split
    · split
      · exact l.names_pure _
      · exact l.names_fault _
    · split
      · split
        · split
          · exact l.names_pure _
          · exact l.names_pure _
        · exact l.names_fault _
      · exact l.names_fault _

theorem names_parameterStep (namespaces : Nat) (s : State) (l : Line) :
    l.Names (parameterStep namespaces s l) := by
  rw [parameterStep]
  split
  · split
    · exact l.names_pure _
    · split
      · exact l.names_fault _
      · split
        · exact l.names_pure _
        · exact l.names_fault _
    · exact l.names_fault _
  · exact l.names_fault _

theorem names_step (namespaces : Nat) (s : State) (l : Line) :
    l.Names (step namespaces s l) := by
  rw [step]
  split
  · exact names_classStep namespaces s l
  · exact names_memberStep namespaces s l
  · exact names_parameterStep namespaces s l
  · exact l.names_fault _

theorem names_header (l : Line) : l.Names (header l) := by
  rw [header]
  split
  · exact l.names_pure _
  · exact l.names_fault _

/-- The line is a header that lists fewer than two namespaces. -/
def IsShortHeader (l : Line) : Prop := ∃ n, header l = .ok n ∧ n < 2

/-- The first record is the header, and without it there is no state yet. -/
def headedStep : Option (Nat × State) → Line → Except Fault (Option (Nat × State))
  | none, l => do
    let namespaces ← header l
    if namespaces < 2 then
      .error (.mapping 1 .fewNamespaces)
    else
      return some (namespaces, ⟨.empty, none, none⟩)
  | some (namespaces, s), l => do
    return some (namespaces, ← step namespaces s l)

theorem headedStep_noHeader (h : header l = .error fault) :
    headedStep none l = .error fault := by
  rw [headedStep, h]
  rfl

theorem headedStep_shortHeader (h : IsShortHeader l) :
    headedStep none l = .error (.mapping 1 .fewNamespaces) := by
  obtain ⟨n, hn, hlt⟩ := h
  rw [headedStep, hn]
  exact if_pos hlt

theorem headedStep_header {n : Nat} (hn : header l = .ok n) (hle : 2 ≤ n) :
    headedStep none l = .ok (some (n, ⟨.empty, none, none⟩)) := by
  rw [headedStep, hn]
  exact if_neg (Nat.not_lt.mpr hle)

/-- There is a state behind a record. -/
theorem exists_of_headedStep {s t : Option (Nat × State)} (h : headedStep s l = .ok t) :
    ∃ namespaces u, t = some (namespaces, u) := by
  cases s with
  | some s =>
    obtain ⟨u, -, hu⟩ := Except.bind_eq_ok.mp h
    exact ⟨s.1, u, (Except.pure_eq_ok.mp hu).symm⟩
  | none =>
    obtain ⟨n, hn, -⟩ := Except.bind_eq_ok.mp h
    by_cases hlt : n < 2
    · simp [headedStep_shortHeader ⟨n, hn, hlt⟩] at h
    · rw [headedStep_header hn (Nat.not_lt.mp hlt)] at h
      exact ⟨n, _, (Except.ok.inj h).symm⟩

theorem names_headedStep_none (h : ¬IsShortHeader l) : l.Names (headedStep none l) := by
  cases hn : header l with
  | error e =>
    intro fault hfault
    rw [headedStep_noHeader hn] at hfault
    obtain rfl := Except.error.inj hfault
    exact names_header l e hn
  | ok n =>
    have hle : 2 ≤ n := Nat.not_lt.mp fun hlt => h ⟨n, hn, hlt⟩
    rw [headedStep_header hn hle]
    exact l.names_pure _

theorem names_headedStep_some (namespaces : Nat) (s : State) (l : Line) :
    l.Names (headedStep (some (namespaces, s)) l) :=
  (names_step namespaces s l).bind fun _ => l.names_pure _

theorem foldlM_headedStep (namespaces : Nat) (s : State) (ls : List Line) :
    ls.foldlM headedStep (some (namespaces, s)) =
      (ls.foldlM (step namespaces) s).map fun s => some (namespaces, s) := by
  induction ls generalizing s with
  | nil => rfl
  | cons l ls ih =>
    rw [List.foldlM_cons, List.foldlM_cons, headedStep]
    cases step namespaces s l with
    | error e => rfl
    | ok t => exact ih t

end Tsrg2

/-! ## Reading line by line -/

/-- A reader that goes through the records of a text. -/
structure LineReader where
  State : Type
  start : State
  step : State → Line → Except Fault State
  mappings : State → Mappings

def LineReader.run (r : LineReader) (text : String) : Except Fault r.State :=
  (records text).foldlM r.step r.start

def Format.reader : Format → LineReader
  | srg => ⟨Mappings, .empty, Srg.step, id⟩
  | tsrg => ⟨Tsrg.State, ⟨.empty, none⟩, Tsrg.step, Tsrg.State.mappings⟩
  | tsrg2 => ⟨Option (Nat × Tsrg2.State), none, Tsrg2.headedStep,
      fun s => (s.map fun t => t.2.mappings).getD .empty⟩

theorem Tsrg2.read_eq (text : String) :
    read text = (Format.tsrg2.reader.run text).map Format.tsrg2.reader.mappings := by
  rw [read, LineReader.run]
  cases records text with
  | nil => rfl
  | cons l rest =>
    show _ = Except.map _ (headedStep none l >>= fun s => rest.foldlM headedStep s)
    cases hn : header l with
    | error e =>
      rw [headedStep_noHeader hn]
      simp only [hn]
      rfl
    | ok n =>
      simp only [hn]
      by_cases hlt : n < 2
      · rw [headedStep_shortHeader ⟨n, hn, hlt⟩]
        exact if_pos hlt
      · rw [headedStep_header hn (Nat.not_lt.mp hlt)]
        show (if n < 2 then _ else _) = Except.map _ (rest.foldlM headedStep _)
        rw [if_neg hlt, foldlM_headedStep]
        cases rest.foldlM (step n) ⟨.empty, none, none⟩ <;> rfl

theorem read_eq (format : Format) (text : String) :
    read format text = (format.reader.run text).map format.reader.mappings := by
  cases format with
  | srg =>
    show Srg.read text = (Srg.read text).map id
    cases Srg.read text <;> rfl
  | tsrg =>
    show Tsrg.read text = ((records text).foldlM Tsrg.step ⟨.empty, none⟩).map Tsrg.State.mappings
    rw [Tsrg.read]
    cases (records text).foldlM Tsrg.step ⟨.empty, none⟩ <;> rfl
  | tsrg2 => exact Tsrg2.read_eq text

/-! ## Lines with their numbers -/

/-- The lines of a text, also those that say nothing. -/
def numbered (text : String) : List Line :=
  (lines text.toList).zipIdx.map fun (cs, i) => ⟨i + 1, trimEnd cs⟩

theorem records_eq (text : String) : records text = (numbered text).filter fun l => !l.isSilent :=
  rfl

theorem numbered_throughLine (k : Nat) (text : String) :
    numbered (throughLine k text) = (numbered text).take k := by
  rw [numbered, zipIdx_lines_throughLine, List.map_take, numbered]

theorem number_of_numbered {k : Nat} (h : (numbered text)[k]? = some l) :
    l.number = k + 1 ∧ k < (lines text.toList).length := by
  obtain ⟨cs, hcs, rfl⟩ : ∃ cs, (lines text.toList)[k]? = some cs ∧ ⟨k + 1, trimEnd cs⟩ = l := by
    simpa [numbered, List.getElem?_map, List.getElem?_zipIdx] using h
  exact ⟨rfl, (List.getElem?_eq_some_iff.mp hcs).1⟩

/-- A step that passes over lines that say nothing. -/
def LineReader.stepOver (r : LineReader) (s : r.State) (l : Line) : Except Fault r.State :=
  if l.isSilent then pure s else r.step s l

theorem LineReader.run_eq (r : LineReader) (text : String) :
    r.run text = (numbered text).foldlM r.stepOver r.start := by
  rw [run, records_eq, List.foldlM_filter]
  refine congrArg (fun f => (numbered text).foldlM f r.start) ?_
  funext s l
  cases h : l.isSilent <;> simp [stepOver, h]

/-- A run that fails does so at one line, from the state that the lines before it lead to. -/
theorem LineReader.exists_line (r : LineReader) (h : r.run text = .error fault) :
    ∃ k l s, (numbered text)[k]? = some l ∧ l.isSilent = false ∧
      r.run (throughLine k text) = .ok s ∧ r.step s l = .error fault ∧
      (∀ j ≤ k, ∃ s, r.run (throughLine j text) = .ok s) ∧
      ∀ j, k < j → r.run (throughLine j text) = .error fault := by
  have hfront : ∀ j, r.run (throughLine j text) =
      ((numbered text).take j).foldlM r.stepOver r.start := fun j => by
    rw [r.run_eq, numbered_throughLine]
  rw [r.run_eq] at h
  obtain ⟨k, l, s, hl, hs, hfails, hbefore, hafter⟩ := Except.foldlM_eq_error h
  have hspeaks : l.isSilent = false := by
    rw [← Bool.not_eq_true]
    intro hsilent
    rw [stepOver, if_pos hsilent] at hfails
    simp [pure, Except.pure] at hfails
  rw [stepOver, if_neg (by simp [hspeaks])] at hfails
  refine ⟨k, l, s, hl, hspeaks, (hfront k).trans hs, hfails, fun j hj => ?_, fun j hj => ?_⟩
  · rw [hfront]
    exact hbefore j hj
  · rw [hfront]
    exact hafter j hj

/-! ## The line that is to blame -/

/-- Up to line `k` the text can be read, and from there on it fails with this fault. -/
structure Blamed (format : Format) (text : String) (fault : Fault) (k : Nat) : Prop where
  pos : 1 ≤ k
  le_length : k ≤ (lines text.toList).length
  before : ∀ j < k, ∃ m, read format (throughLine j text) = .ok m
  after : ∀ j, k ≤ j → read format (throughLine j text) = .error fault

variable {format : Format} {k : Nat}

/-- Only one line is to blame. -/
theorem Blamed.unique {fault' : Fault} {k' : Nat} (h : Blamed format text fault k)
    (h' : Blamed format text fault' k') : k = k' := by
  have hle : ∀ {fault fault' : Fault} {k k' : Nat}, Blamed format text fault k →
      Blamed format text fault' k' → k ≤ k' := by
    intro fault fault' k k' h h'
    by_contra hlt
    obtain ⟨m, hm⟩ := h.before k' (by omega)
    rw [h'.after k' (Nat.le_refl k')] at hm
    simp at hm
  exact Nat.le_antisymm (hle h h') (hle h' h)

/-- The line that is to blame, and the state that the lines before it lead to. -/
theorem exists_blamed (h : read format text = .error fault) :
    ∃ k l s, Blamed format text fault (k + 1) ∧ (numbered text)[k]? = some l ∧
      l.isSilent = false ∧ format.reader.run (throughLine k text) = .ok s ∧
      format.reader.step s l = .error fault := by
  have hrun : format.reader.run text = .error fault := by
    rw [read_eq] at h
    cases hrun : format.reader.run text with
    | ok s => simp [hrun, Except.map] at h
    | error e =>
      rw [hrun] at h
      rw [Except.error.inj h]
  obtain ⟨k, l, s, hl, hspeaks, hs, hfails, hbefore, hafter⟩ := format.reader.exists_line hrun
  refine ⟨k, l, s, ⟨Nat.le_add_left 1 k, ?_, fun j hj => ?_, fun j hj => ?_⟩, hl, hspeaks, hs,
    hfails⟩
  · exact (number_of_numbered hl).2
  · obtain ⟨t, ht⟩ := hbefore j (Nat.le_of_lt_succ hj)
    exact ⟨format.reader.mappings t, by rw [read_eq, ht]; rfl⟩
  · rw [read_eq, hafter j hj]
    rfl

/-- A line that says something is the first record if no line before it is one. -/
theorem exists_records_eq (hl : (numbered text)[k]? = some l) (hspeaks : l.isSilent = false)
    (hnone : records (throughLine k text) = []) : ∃ rest, records text = l :: rest := by
  rw [records_eq, numbered_throughLine] at hnone
  obtain ⟨hlt, hget⟩ := List.getElem?_eq_some_iff.mp hl
  have hcut : numbered text = (numbered text).take k ++ l :: (numbered text).drop (k + 1) := by
    rw [← hget, ← List.drop_eq_getElem_cons hlt, List.take_append_drop]
  refine ⟨((numbered text).drop (k + 1)).filter fun l => !l.isSilent, ?_⟩
  rw [records_eq, hcut, List.filter_append, hnone, List.nil_append,
    List.filter_cons_of_pos (by simp [hspeaks])]
  rw [← hcut]

theorem records_throughLine_zero (text : String) : records (throughLine 0 text) = [] := by
  rw [records_eq, numbered_throughLine, List.take_zero]
  rfl

/-- There is a state once there is a record. -/
theorem Tsrg2.records_of_run_none (h : Format.tsrg2.reader.run text = .ok none) :
    records text = [] := by
  cases hrecords : records text with
  | nil => rfl
  | cons l rest =>
    rw [LineReader.run, hrecords, List.foldlM_cons] at h
    obtain ⟨s, hs, hrest⟩ : ∃ s, headedStep none l = .ok s ∧
        rest.foldlM headedStep s = .ok none := Except.bind_eq_ok.mp h
    obtain ⟨namespaces, u, rfl⟩ := exists_of_headedStep hs
    have hsteps : (rest.foldlM (step namespaces) u).map (fun s => some (namespaces, s)) =
        .ok none := (foldlM_headedStep namespaces u rest).symm.trans hrest
    cases hrun : rest.foldlM (step namespaces) u with
    | error e => simp [hrun, Except.map] at hsteps
    | ok v => simp [hrun, Except.map] at hsteps

theorem Tsrg2.read_shortHeader {rest : List Line} (hrecords : records text = l :: rest)
    (h : IsShortHeader l) : read text = .error (.mapping 1 .fewNamespaces) := by
  obtain ⟨n, hn, hlt⟩ := h
  rw [read, hrecords]
  simp only [hn]
  exact if_pos hlt

/-- A fault names the line where it comes up, unless that line is a header that lists too few
namespaces. -/
theorem number_or_shortHeader {s : format.reader.State} (hl : (numbered text)[k]? = some l)
    (hspeaks : l.isSilent = false) (hs : format.reader.run (throughLine k text) = .ok s)
    (hfails : format.reader.step s l = .error fault) :
    (∃ cause, fault = .mapping (k + 1) cause) ∨
      format = .tsrg2 ∧ fault = .mapping 1 .fewNamespaces ∧
        ∃ rest, records text = l :: rest ∧ Tsrg2.IsShortHeader l := by
  have hnumber := (number_of_numbered hl).1
  cases format with
  | srg => exact .inl (hnumber ▸ Srg.names_step s l fault hfails)
  | tsrg => exact .inl (hnumber ▸ Tsrg.names_step s l fault hfails)
  | tsrg2 =>
    cases s with
    | some s => exact .inl (hnumber ▸ Tsrg2.names_headedStep_some s.1 s.2 l fault hfails)
    | none =>
      by_cases hshort : Tsrg2.IsShortHeader l
      · have hfault : Tsrg2.headedStep none l = .error fault := hfails
        rw [Tsrg2.headedStep_shortHeader hshort] at hfault
        obtain ⟨rest, hrest⟩ := exists_records_eq hl hspeaks (Tsrg2.records_of_run_none hs)
        exact .inr ⟨rfl, (Except.error.inj hfault).symm, rest, hrest, hshort⟩
      · exact .inl (hnumber ▸ Tsrg2.names_headedStep_none hshort fault hfails)

/-- A text that cannot be read has exactly one line that is to blame.  The fault names this line,
except where the first record is a header that lists fewer than two namespaces and does not stand on
the first line. -/
theorem blamed_of_read (h : read format text = .error fault) :
    ∃ line cause k, fault = .mapping line cause ∧ (∀ j, Blamed format text fault j ↔ j = k) ∧
      (line ≠ k ↔ format = .tsrg2 ∧ ∃ l rest, records text = l :: rest ∧ 1 < l.number ∧
        Tsrg2.IsShortHeader l) := by
  obtain ⟨k, l, s, hblamed, hl, hspeaks, hs, hfails⟩ := exists_blamed h
  have honly : ∀ j, Blamed format text fault j ↔ j = k + 1 :=
    fun j => ⟨fun hj => hj.unique hblamed, fun hj => hj ▸ hblamed⟩
  have hnumber := (number_of_numbered hl).1
  rcases number_or_shortHeader hl hspeaks hs hfails with
    ⟨cause, rfl⟩ | ⟨rfl, rfl, rest, hrecords, hshort⟩
  · refine ⟨k + 1, cause, k + 1, rfl, honly, fun hne => absurd rfl hne, ?_⟩
    rintro ⟨rfl, l', rest, hrecords, hlt, hshort⟩ -
    -- The fault is then the one of the header, so its line is the first one of the text.
    have hread : read .tsrg2 text = .error (.mapping 1 .fewNamespaces) :=
      Tsrg2.read_shortHeader hrecords hshort
    rw [h] at hread
    obtain ⟨hline, -⟩ := Fault.mapping.inj (Except.error.inj hread)
    obtain rfl : k = 0 := by omega
    obtain ⟨rest', hrecords'⟩ := exists_records_eq hl hspeaks (records_throughLine_zero text)
    obtain rfl : l' = l := (List.cons.inj (hrecords.symm.trans hrecords')).1
    omega
  · refine ⟨1, .fewNamespaces, k + 1, rfl, honly, fun hne => ?_, ?_⟩
    · exact ⟨rfl, l, rest, hrecords, by omega, hshort⟩
    · rintro ⟨-, l', rest', hrecords', hlt, -⟩
      obtain rfl : l' = l := (List.cons.inj (hrecords'.symm.trans hrecords)).1
      omega

namespace Sample

/-- The member on the fourth line has no new name. -/
def brokenMember : String := "# names\na net/Foo\n\n\tb\nc net/Bar\n"

/-- The header has one namespace and stands behind a comment. -/
def shortHeader : String := "# names\ntsrg2 obf\n"

end Sample

theorem blamed_of_read_brokenMember :
    read .tsrg Sample.brokenMember = .error (.mapping 4 (.unknownMember "b")) ∧
      ∀ j, Blamed .tsrg Sample.brokenMember (.mapping 4 (.unknownMember "b")) j ↔ j = 4 := by
  have hread : read .tsrg Sample.brokenMember = .error (.mapping 4 (.unknownMember "b")) := by
    decide +kernel
  obtain ⟨line, cause, k, hfault, honly, hline⟩ := blamed_of_read hread
  obtain ⟨rfl, rfl⟩ := Fault.mapping.inj hfault
  obtain rfl : 4 = k := by
    by_contra hne
    obtain ⟨hformat, -⟩ := hline.mp hne
    simp at hformat
  exact ⟨hread, honly⟩

/-- The fault is reported for the comment, which can be read, and not for the header. -/
theorem not_blamed_shortHeader :
    read .tsrg2 Sample.shortHeader = .error (.mapping 1 .fewNamespaces) ∧
      read .tsrg2 (throughLine 1 Sample.shortHeader) = .ok .empty ∧
      ¬∀ (format : Format) (text : String) (line : Nat) (cause : MappingFault),
        read format text = .error (.mapping line cause) →
        1 ≤ line ∧ line ≤ (lines text.toList).length ∧
          (∃ m, read format (throughLine (line - 1) text) = .ok m) ∧
          read format (throughLine line text) = .error (.mapping line cause) := by
  have hread : read .tsrg2 Sample.shortHeader = .error (.mapping 1 .fewNamespaces) := by
    decide +kernel
  have hcomment : read .tsrg2 (throughLine 1 Sample.shortHeader) = .ok .empty := by
    decide +kernel
  refine ⟨hread, hcomment, fun hall => ?_⟩
  obtain ⟨-, -, -, hfails⟩ := hall .tsrg2 Sample.shortHeader 1 .fewNamespaces hread
  rw [hcomment] at hfails
  simp at hfails

end Mapping
end ClassRelabel
