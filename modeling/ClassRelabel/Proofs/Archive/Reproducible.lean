/-
The canonical form does not depend on how an archive was written.

The order of the entries does not matter, and neither do the `Variation`s: spellings of paths, times,
and directories that are there anyway.  What matters is what is listed (`Listed`) and which files
collide.  The canonical form lists the same as the archive (`listed_canonical`), so it is its own
canonical form.
-/
import Mathlib.Logic.Relation
import ClassRelabel.Proofs.Archive.Canonical

namespace ClassRelabel
namespace Archive

open Std (ExtTreeMap)
open scoped List

variable {entries other out before after : List ArchiveEntry} {x y : ArchiveEntry}

/-! ## What decides the canonical form -/

theorem Listed.mono (h : ∀ e ∈ entries, e ∈ other) {p : String} {c : Content}
    (hlisted : Listed entries p c) : Listed other p c := by
  cases hlisted with
  | entry he hne => exact .entry (h _ he) hne
  | around he hencloses => exact .around (h _ he) hencloses

theorem arranged_congr (ha : FilesApart entries) (hb : FilesApart other)
    (hfree : entries.Pairwise fun a b => ¬Collide a b)
    (hfree' : other.Pairwise fun a b => ¬Collide a b)
    (hlisted : ∀ p c, Listed entries p c ↔ Listed other p c) :
    arranged (withParents (contents entries)) = arranged (withParents (contents other)) := by
  have htable : withParents (contents entries) = withParents (contents other) :=
    ExtTreeMap.ext_getElem? fun p => Option.ext fun c => by
      rw [withParents_eq_some ha hfree, withParents_eq_some hb hfree', hlisted]
  rw [htable]

/-- Archives that list the same have the same canonical form, if they have one. -/
theorem canonical_eq_of_listed (ha : FilesApart entries) (hb : FilesApart other)
    {out' : List ArchiveEntry} (hout : canonical entries = .ok out)
    (hout' : canonical other = .ok out')
    (hlisted : ∀ p c, Listed entries p c ↔ Listed other p c) : out = out' := by
  obtain ⟨hfree, rfl⟩ := (canonical_eq_ok ha).mp hout
  obtain ⟨hfree', rfl⟩ := (canonical_eq_ok hb).mp hout'
  exact arranged_congr ha hb hfree hfree' hlisted

theorem canonical_congr (ha : FilesApart entries) (hb : FilesApart other)
    (herror : ∀ fault, canonical entries = .error fault ↔ canonical other = .error fault)
    (hlisted : ∀ p c, Listed entries p c ↔ Listed other p c) :
    canonical entries = canonical other := by
  cases hother : canonical other with
  | error fault => exact (herror fault).mpr hother
  | ok out' =>
    cases hentries : canonical entries with
    | error fault =>
      have hfails := (herror fault).mp hentries
      rw [hother] at hfails
      simp at hfails
    | ok out => rw [canonical_eq_of_listed ha hb hentries hother hlisted]

/-! ## Order of the entries -/

theorem FilesApart.perm (h : FilesApart entries) (hperm : entries ~ other) : FilesApart other :=
  fun e he => h e (hperm.mem_iff.mpr he)

theorem canonical_perm (h : FilesApart entries) (hperm : entries ~ other) :
    (∃ p q, canonical entries = .error (.duplicateEntry p) ∧
        canonical other = .error (.duplicateEntry q)) ∨
      ∃ out, canonical entries = .ok out ∧ canonical other = .ok out := by
  have hfree : (entries.Pairwise fun a b => ¬Collide a b) ↔
      other.Pairwise fun a b => ¬Collide a b :=
    hperm.pairwise_iff fun hnot hcollide => hnot hcollide.symm
  cases hentries : canonical entries with
  | ok out =>
    have hother := (canonical_eq_ok (h.perm hperm)).mpr
      ⟨hfree.mp ((canonical_eq_ok h).mp hentries).1, rfl⟩
    have heq := canonical_eq_of_listed h (h.perm hperm) hentries hother fun p c =>
      ⟨.mono fun e => hperm.mem_iff.mp, .mono fun e => hperm.mem_iff.mpr⟩
    exact .inr ⟨out, rfl, heq ▸ hother⟩
  | error fault =>
    obtain ⟨p, rfl⟩ := canonical_error hentries
    cases hother : canonical other with
    | ok out =>
      have hok := (canonical_eq_ok h).mpr
        ⟨hfree.mpr ((canonical_eq_ok (h.perm hperm)).mp hother).1, rfl⟩
      rw [hentries] at hok
      simp at hok
    | error fault' =>
      obtain ⟨q, rfl⟩ := canonical_error hother
      exact .inl ⟨p, q, rfl, rfl⟩

/-! ## Directories that are there anyway -/

/-- Two tables have the same paths apart from those of directories. -/
def SameFiles (t u : Contents) : Prop :=
  ∀ p : String, p.toList.getLast? ≠ some '/' → (p ∈ t ↔ p ∈ u)

theorem SameFiles.blocked_iff {t u : Contents} (h : SameFiles t u)
    (hx : x.isDirectory = false → x.normal.toList.getLast? ≠ some '/') :
    Blocked t x ↔ Blocked u x :=
  ⟨fun hb => ⟨hb.file, hb.nonempty, (h _ (hx hb.file)).mp hb.taken⟩,
    fun hb => ⟨hb.file, hb.nonempty, (h _ (hx hb.file)).mpr hb.taken⟩⟩

theorem SameFiles.insertNormal {t u : Contents} (h : SameFiles t u) (e : ArchiveEntry) :
    SameFiles (insertNormal t e) (insertNormal u e) := by
  intro p hp
  rw [mem_insertNormal, mem_insertNormal, h p hp]

theorem sameFiles_insert_directory (t : Contents) (hdirectory : y.isDirectory = true) :
    SameFiles (Archive.insertNormal t y) t := by
  intro p hp
  rw [mem_insertNormal, or_iff_left]
  rintro ⟨rfl, hne⟩
  exact hp (getLast?_normal_directory hdirectory hne)

/-- Which file is refused depends on the files alone. -/
theorem SameFiles.foldlM_error_iff {t u : Contents} (h : SameFiles t u)
    (hapart : FilesApart entries) (fault : Fault) :
    entries.foldlM enter t = .error fault ↔ entries.foldlM enter u = .error fault := by
  -- The tables grow apart by no file, so every entry is refused by both or by neither.
  induction entries generalizing t u with
  | nil => simp [pure, Except.pure]
  | cons e entries ih =>
    obtain ⟨hhead, htail⟩ := List.forall_mem_cons.mp hapart
    rw [List.foldlM_cons, List.foldlM_cons]
    by_cases hblocked : Blocked t e
    · rw [enter_of_blocked hblocked, enter_of_blocked ((h.blocked_iff hhead).mp hblocked)]
    · rw [enter_of_not_blocked hblocked,
        enter_of_not_blocked (mt (h.blocked_iff hhead).mpr hblocked)]
      exact ih (h.insertNormal e) htail

theorem error_iff_of_directory (hdirectory : y.isDirectory = true)
    (h : FilesApart (before ++ after)) (fault : Fault) :
    canonical (before ++ y :: after) = .error fault ↔
      canonical (before ++ after) = .error fault := by
  rw [canonical_eq_error, canonical_eq_error, List.foldlM_append, List.foldlM_append]
  cases before.foldlM enter ∅ with
  | error fault' => rfl
  | ok t =>
    have hfree : ¬Blocked t y := fun hblocked => by
      simpa [hdirectory] using hblocked.file
    have hafter : FilesApart after := fun e he => h e (List.mem_append_right before he)
    -- From here on one table has the directory and the other has not.
    have henter : (y :: after).foldlM enter t = after.foldlM enter (insertNormal t y) := by
      rw [List.foldlM_cons, enter_of_not_blocked hfree]
      rfl
    show (y :: after).foldlM enter t = .error fault ↔ after.foldlM enter t = .error fault
    rw [henter]
    exact (sameFiles_insert_directory t hdirectory).foldlM_error_iff hafter fault

/-- A directory that is listed anyway lists nothing else. -/
theorem listed_insert_iff (hdirectory : y.isDirectory = true)
    (hy : y.normal ≠ "" → Listed (before ++ after) y.normal .directory) (p : String)
    (c : Content) : Listed (before ++ y :: after) p c ↔ Listed (before ++ after) p c := by
  have hmem : ∀ e, e ∈ before ++ y :: after ↔ e = y ∨ e ∈ before ++ after := fun e => by
    simp only [List.mem_append, List.mem_cons]
    tauto
  constructor
  · intro hlisted
    cases hlisted with
    | @entry e he hne =>
      rcases (hmem e).mp he with rfl | he'
      · rw [content_of_isDirectory hdirectory]
        exact hy hne
      · exact .entry he' hne
    | @around e _ he hencloses =>
      rcases (hmem e).mp he with rfl | he'
      · exact (hy hencloses.ne_empty).around_listed hencloses
      · exact .around he' hencloses
  · exact .mono fun e he => (hmem e).mpr (.inr he)

theorem filesApart_append_cons : FilesApart (before ++ y :: after) ↔
    (y.isDirectory = false → y.normal.toList.getLast? ≠ some '/') ∧
      FilesApart (before ++ after) := by
  simp only [FilesApart, List.forall_mem_append, List.forall_mem_cons]
  tauto

theorem filesApart_insert_iff (hdirectory : y.isDirectory = true) :
    FilesApart (before ++ y :: after) ↔ FilesApart (before ++ after) := by
  simp [filesApart_append_cons, hdirectory]

theorem canonical_insert (hdirectory : y.isDirectory = true)
    (hy : y.normal ≠ "" → Listed (before ++ after) y.normal .directory)
    (h : FilesApart (before ++ after)) :
    canonical (before ++ y :: after) = canonical (before ++ after) :=
  canonical_congr ((filesApart_insert_iff hdirectory).mpr h) h
    (error_iff_of_directory hdirectory h) (listed_insert_iff hdirectory hy)

/-! ## Variations -/

/-- Another way to write an archive down. -/
inductive Variation : List ArchiveEntry → List ArchiveEntry → Prop
  /-- An entry has another time, slashes in front of its path, and backslashes in it. -/
  | respelled {before after : List ArchiveEntry} {x y : ArchiveEntry} {slashes : Nat}
      {path : List Char} (hcontent : y.content = x.content)
      (hpath : y.path.toList = List.replicate slashes '/' ++ path)
      (hbackslashed : Backslashed x.path.toList path) :
      Variation (before ++ x :: after) (before ++ y :: after)
  /-- There is a directory twice. -/
  | repeated {before after : List ArchiveEntry} {x y : ArchiveEntry}
      (hx : x ∈ before ++ after) (hdirectory : x.isDirectory = true)
      (hcontent : y.content = .directory) (hnormal : y.normal = x.normal) :
      Variation (before ++ after) (before ++ y :: after)
  /-- There is a directory around what is there. -/
  | enclosed {before after : List ArchiveEntry} {x y : ArchiveEntry}
      (hx : x ∈ before ++ after) (hcontent : y.content = .directory)
      (hencloses : Encloses y.normal.toList x.normal.toList) :
      Variation (before ++ after) (before ++ y :: after)

theorem normal_respelled {slashes : Nat} {path : List Char} (hcontent : y.content = x.content)
    (hpath : y.path.toList = List.replicate slashes '/' ++ path)
    (hbackslashed : Backslashed x.path.toList path) : y.normal = x.normal := by
  have hdirectory : y.isDirectory = x.isDirectory := congrArg Content.isDirectory hcontent
  have hfile : normalChars y.path.toList false = normalChars x.path.toList false := by
    rw [hpath, normalChars_slashes, normalChars_backslashed hbackslashed]
  rw [← String.toList_inj, toList_normal, toList_normal, hdirectory]
  exact normalChars_congr hfile _

theorem Variation.filesApart_iff (h : Variation entries other) :
    FilesApart entries ↔ FilesApart other := by
  cases h with
  | @respelled before after x y _ _ hcontent hpath hbackslashed =>
    have hdirectory : y.isDirectory = x.isDirectory := congrArg Content.isDirectory hcontent
    have hnormal := normal_respelled hcontent hpath hbackslashed
    rw [filesApart_append_cons, filesApart_append_cons, hdirectory, hnormal]
  | repeated _ _ hcontent _ => exact (filesApart_insert_iff (isDirectory_of_content hcontent)).symm
  | enclosed _ hcontent _ => exact (filesApart_insert_iff (isDirectory_of_content hcontent)).symm

theorem Variation.canonical_eq (h : Variation entries other) (hapart : FilesApart entries) :
    canonical entries = canonical other := by
  cases h with
  | @respelled before after x y _ _ hcontent hpath hbackslashed =>
    -- The entry goes into the table as before, so nothing has to be said about what is listed.
    have hnormal := normal_respelled hcontent hpath hbackslashed
    have hfold : (before ++ y :: after).foldlM enter ∅ = (before ++ x :: after).foldlM enter ∅ := by
      simp only [List.foldlM_append, List.foldlM_cons, enter_congr _ hnormal hcontent]
    unfold canonical
    rw [hfold]
  | @repeated before after x y hx hdirectory hcontent hnormal =>
    refine (canonical_insert (isDirectory_of_content hcontent) (fun hne => ?_) hapart).symm
    have hlisted : Listed (before ++ after) x.normal x.content := .entry hx (hnormal ▸ hne)
    rwa [← hnormal, content_of_isDirectory hdirectory] at hlisted
  | enclosed hx hcontent hencloses =>
    exact (canonical_insert (isDirectory_of_content hcontent) (fun _ => .around hx hencloses)
      hapart).symm

/-- Any number of variations, taken back or not. -/
theorem canonical_eq_of_eqvGen (h : Relation.EqvGen Variation entries other) :
    (FilesApart entries ↔ FilesApart other) ∧
      (FilesApart entries → canonical entries = canonical other) := by
  induction h with
  | rel _ _ h => exact ⟨h.filesApart_iff, h.canonical_eq⟩
  | refl _ => exact ⟨.rfl, fun _ => rfl⟩
  | symm _ _ _ ih => exact ⟨ih.1.symm, fun hapart => (ih.2 (ih.1.mpr hapart)).symm⟩
  | trans _ _ _ _ _ ih ih' =>
    exact ⟨ih.1.trans ih'.1, fun hapart => (ih.2 hapart).trans (ih'.2 (ih.1.mp hapart))⟩

/-! ## The canonical form again -/

/-- An entry under its canonical path. -/
theorem normal_eq_of_path (hcontent : y.content = x.content) (hpath : y.path = x.normal) :
    y.normal = x.normal := by
  have hdirectory : y.isDirectory = x.isDirectory := congrArg Content.isDirectory hcontent
  rw [← String.toList_inj, toList_normal, hpath, hdirectory, toList_normal,
    normalChars_normalChars]

/-- Slashes that follow each other collapse at the end of a directory, but what is left is listed
too. -/
theorem Listed.normal (h : Listed entries x.path x.content) :
    Listed entries x.normal x.content := by
  generalize hp : x.path = p at h
  generalize hc : x.content = c at h
  cases h with
  | @entry e he hne =>
    rw [normal_eq_of_path hc hp]
    exact .entry he hne
  | @around e _ he hencloses =>
    refine .around he ?_
    rw [toList_normal, isDirectory_of_content hc, hp]
    exact hencloses.normalChars (clean_normal e)

/-- A file is listed as it is. -/
theorem Listed.file (h : Listed entries x.path x.content) (hfile : x.isDirectory = false) :
    ∃ e ∈ entries, e.isDirectory = false ∧ x.path = e.normal ∧ x.normal = e.normal := by
  generalize hp : x.path = p at h
  generalize hc : x.content = c at h
  cases h with
  | @entry e he _ =>
    exact ⟨e, he, (congrArg Content.isDirectory hc).symm.trans hfile, rfl,
      normal_eq_of_path hc hp⟩
  | around _ _ =>
    rw [isDirectory_of_content hc] at hfile
    simp at hfile

variable (h : FilesApart entries) (hout : canonical entries = .ok out)
include h hout

theorem listed_canonical (p : String) (c : Content) :
    Listed out p c ↔ Listed entries p c := by
  have hmem : ∀ e ∈ out, Listed entries e.path e.content :=
    fun e he => ((mem_canonical h hout).mp he).2
  constructor
  · intro hlisted
    cases hlisted with
    | entry he _ => exact (hmem _ he).normal
    | around he hencloses => exact (hmem _ he).normal.around_listed hencloses
  · have hentry : ∀ e ∈ entries, e.normal ≠ "" →
        ∃ a ∈ out, a.normal = e.normal ∧ a.content = e.content := by
      intro e he hne
      let a : ArchiveEntry := ⟨e.normal, e.content, some canonicalTime⟩
      exact ⟨a, (mem_canonical h hout).mpr ⟨rfl, .entry he hne⟩, normal_eq_of_path rfl rfl, rfl⟩
    intro hlisted
    cases hlisted with
    | entry he hne =>
      obtain ⟨a, ha, hnormal, hcontent⟩ := hentry _ he hne
      rw [← hnormal, ← hcontent]
      exact .entry ha (hnormal ▸ hne)
    | around he hencloses =>
      obtain ⟨a, ha, hnormal, -⟩ := hentry _ he hencloses.ne_empty
      exact .around ha (hnormal ▸ hencloses)

theorem filesApart_canonical : FilesApart out := by
  intro x hx hfile
  obtain ⟨e, he, hdirectory, -, hnormal⟩ := ((mem_canonical h hout).mp hx).2.file hfile
  rw [hnormal]
  exact h e he hdirectory

theorem apart_canonical : out.Pairwise fun a b => ¬Collide a b := by
  have hnodup := (isCanonical_of_canonical h hout).nodup
  refine (List.pairwise_map.mp hnodup).imp_of_mem fun {a b} ha hb hne hcollide => hne ?_
  obtain ⟨_, _, _, hpath, hnormal⟩ := ((mem_canonical h hout).mp ha).2.file hcollide.left
  obtain ⟨_, _, _, hpath', hnormal'⟩ := ((mem_canonical h hout).mp hb).2.file hcollide.right
  rw [hpath, hpath', ← hnormal, ← hnormal', hcollide.normal]

theorem canonical_canonical : canonical out = .ok out := by
  obtain ⟨hfree, heq⟩ := (canonical_eq_ok h).mp hout
  have hapart := filesApart_canonical h hout
  have hfree' := apart_canonical h hout
  refine (canonical_eq_ok hapart).mpr ⟨hfree', ?_⟩
  rw [arranged_congr hapart h hfree' hfree (listed_canonical h hout)]
  exact heq

omit h hout

/-- An archive has the same canonical form in every order and under every variation, and the
canonical form has itself. -/
theorem canonical_reproducible (h : FilesNamed entries) :
    (∀ other, entries ~ other →
      (∃ p q, canonical entries = .error (.duplicateEntry p) ∧
          canonical other = .error (.duplicateEntry q)) ∨
        ∃ out, canonical entries = .ok out ∧ canonical other = .ok out) ∧
    (∀ other, Relation.EqvGen Variation entries other → canonical other = canonical entries) ∧
    ∀ out, canonical entries = .ok out → canonical out = .ok out :=
  ⟨fun _ hperm => canonical_perm h.apart hperm,
    fun _ hvariation => ((canonical_eq_of_eqvGen hvariation).2 h.apart).symm,
    fun _ hout => canonical_canonical h.apart hout⟩

/-! ## The archive with mixed separators again

One of its files has another path and time here, the directory around the manifest is there, and the
other directory is there twice. -/

def varied : List ArchiveEntry :=
  [⟨"META-INF\\MANIFEST.MF", .file [1], none⟩, ⟨"/META-INF", .directory, none⟩,
    ⟨"/a\\/b", .file [2], some canonicalTime⟩, ⟨"/a\\", .directory, none⟩,
    ⟨"a//", .directory, none⟩, ⟨"a", .file [3], none⟩]

theorem varied_of_mixed : Relation.EqvGen Variation mixed varied := by
  have hbackslashed : Backslashed "a//b".toList ['a', '\\', '/', 'b'] := by
    unfold Backslashed
    simp
  have hrespelled := @Variation.respelled [⟨"META-INF\\MANIFEST.MF", .file [1], none⟩]
    [⟨"/a\\", .directory, none⟩, ⟨"a", .file [3], none⟩] ⟨"a//b", .file [2], none⟩
    ⟨"/a\\/b", .file [2], some canonicalTime⟩ 1 _ rfl rfl hbackslashed
  have henclosed := @Variation.enclosed [⟨"META-INF\\MANIFEST.MF", .file [1], none⟩]
    [⟨"/a\\/b", .file [2], some canonicalTime⟩, ⟨"/a\\", .directory, none⟩,
      ⟨"a", .file [3], none⟩] _ ⟨"/META-INF", .directory, none⟩ List.mem_cons_self rfl
    ⟨by decide +kernel, by decide +kernel⟩
  have hrepeated := @Variation.repeated
    [⟨"META-INF\\MANIFEST.MF", .file [1], none⟩, ⟨"/META-INF", .directory, none⟩,
      ⟨"/a\\/b", .file [2], some canonicalTime⟩, ⟨"/a\\", .directory, none⟩]
    [⟨"a", .file [3], none⟩] ⟨"/a\\", .directory, none⟩ ⟨"a//", .directory, none⟩
    (by simp) rfl rfl (by decide +kernel)
  exact .trans _ _ _ (.rel _ _ hrespelled) (.trans _ _ _ (.rel _ _ henclosed) (.rel _ _ hrepeated))

theorem canonical_reproducible_mixed : FilesNamed mixed ∧ ∃ out, canonical mixed = .ok out ∧
    canonical mixed.reverse = .ok out ∧ canonical varied = .ok out ∧ canonical out = .ok out := by
  have hnamed : FilesNamed mixed := by decide +kernel
  have hapart : mixed.Pairwise fun a b => ¬Collide a b := by decide +kernel
  obtain ⟨out, hout⟩ : ∃ out, canonical mixed = .ok out :=
    ⟨_, (canonical_eq_ok hnamed.apart).mpr ⟨hapart, rfl⟩⟩
  obtain ⟨hperm, hvaried, hagain⟩ := canonical_reproducible hnamed
  refine ⟨hnamed, out, hout, ?_, ?_, hagain out hout⟩
  · rcases hperm mixed.reverse (List.reverse_perm mixed).symm with
      ⟨_, _, hfails, -⟩ | ⟨out', hout', hreverse⟩
    · rw [hout] at hfails
      simp at hfails
    · rw [hreverse, ← hout', hout]
  · rw [hvaried varied varied_of_mixed, hout]

end Archive
end ClassRelabel
