/-
What stands in a canonical archive.

Entries go into a table one by one, and a file whose path is taken is refused (`Blocked`).
`foldlM_enter_eq_ok` says when a list of entries gets in and what the table is then.  `Listed` says
which paths a canonical archive has, and what is at each: the entries under their canonical paths,
and the directories around them.  That is what the table holds in the end (`withParents_eq_some`),
with no regard to the order of the entries.

A file and a directory may get the same path only if the path of the file ends with a slash, which
`FilesApart` excludes.
-/
import Mathlib.Data.List.Pairwise
import ClassRelabel.Proofs.Archive.Path
import ClassRelabel.Proofs.Effect
import ClassRelabel.Proofs.TreeMap

namespace ClassRelabel

open Std (ExtTreeMap)

/-- The canonical path of an entry, which is empty for the root. -/
def ArchiveEntry.normal (e : ArchiveEntry) : String :=
  Archive.normalPath e.path e.isDirectory

namespace Archive

/-! ## Canonical paths of entries -/

theorem toList_normal (e : ArchiveEntry) :
    e.normal.toList = normalChars e.path.toList e.isDirectory := by
  rw [ArchiveEntry.normal, normalPath, String.toList_ofList]

theorem clean_normal (e : ArchiveEntry) : Clean e.normal.toList := by
  rw [toList_normal]
  exact clean_normalChars _ _

theorem content_of_isDirectory {e : ArchiveEntry} (h : e.isDirectory = true) :
    e.content = .directory := by
  unfold ArchiveEntry.isDirectory Content.isDirectory at h
  split at h
  · assumption
  · simp at h

theorem isDirectory_of_content {e : ArchiveEntry} (h : e.content = .directory) :
    e.isDirectory = true := by
  rw [ArchiveEntry.isDirectory, h]
  rfl

/-- The canonical path of no file ends with a slash. -/
def FilesApart (entries : List ArchiveEntry) : Prop :=
  ∀ e ∈ entries, e.isDirectory = false → e.normal.toList.getLast? ≠ some '/'

theorem getLast?_normal_directory {e : ArchiveEntry} (h : e.isDirectory = true)
    (hne : e.normal ≠ "") : e.normal.toList.getLast? = some '/' := by
  rw [toList_normal, h]
  refine getLast?_normalChars_directory fun hnil => hne ?_
  rw [← String.toList_inj, toList_normal, h, hnil]
  rfl

/-- Two entries with the same path are both files or both directories. -/
theorem FilesApart.isDirectory_eq {entries : List ArchiveEntry} (h : FilesApart entries)
    {a b : ArchiveEntry} (ha : a ∈ entries) (hb : b ∈ entries) (hnormal : a.normal = b.normal)
    (hne : b.normal ≠ "") : a.isDirectory = b.isDirectory := by
  cases hda : a.isDirectory <;> cases hdb : b.isDirectory
  · rfl
  · exact absurd (hnormal ▸ getLast?_normal_directory hdb hne) (h a ha hda)
  · exact absurd (hnormal ▸ getLast?_normal_directory hda (hnormal ▸ hne)) (h b hb hdb)
  · rfl

/-- Two files with the same path. -/
structure Collide (a b : ArchiveEntry) : Prop where
  left : a.isDirectory = false
  right : b.isDirectory = false
  normal : a.normal = b.normal
  nonempty : b.normal ≠ ""

instance (a b : ArchiveEntry) : Decidable (Collide a b) :=
  decidable_of_iff
    (a.isDirectory = false ∧ b.isDirectory = false ∧ a.normal = b.normal ∧ b.normal ≠ "")
    ⟨fun h => ⟨h.1, h.2.1, h.2.2.1, h.2.2.2⟩, fun h => ⟨h.left, h.right, h.normal, h.nonempty⟩⟩

theorem Collide.symm {a b : ArchiveEntry} (h : Collide a b) : Collide b a :=
  ⟨h.right, h.left, h.normal.symm, h.normal ▸ h.nonempty⟩

instance : Std.Symm fun a b => ¬Collide a b :=
  ⟨fun _ _ hnot hcollide => hnot hcollide.symm⟩

/-! ## Entering entries -/

/-- The path of a file is taken. -/
structure Blocked (t : Contents) (e : ArchiveEntry) : Prop where
  file : e.isDirectory = false
  nonempty : e.normal ≠ ""
  taken : e.normal ∈ t

/-- Enters an entry where its path is free. -/
def insertNormal (t : Contents) (e : ArchiveEntry) : Contents :=
  if e.normal = "" then t else t.insertIfNew e.normal e.content

theorem insert_eq_insertIfNew {t : Contents} {p : String} (h : p ∉ t) (c : Content) :
    t.insert p c = t.insertIfNew p c := by
  refine ExtTreeMap.ext_getElem? fun k => ?_
  rw [getElem?_insertIfNew, ExtTreeMap.getElem?_insert]
  simp only [Std.LawfulEqCmp.compare_eq_iff_eq]
  by_cases hk : p = k
  · subst hk
    rw [if_pos rfl, if_pos rfl, ExtTreeMap.getElem?_eq_none h, Option.none_or]
  · rw [if_neg hk, if_neg hk, Option.or_none]

theorem enter_eq (t : Contents) (e : ArchiveEntry) :
    enter t e = if e.normal.isEmpty then .ok t else match e.content with
      | .directory => .ok (t.insertIfNew e.normal .directory)
      | .file bytes => if t.contains e.normal then .error (.duplicateEntry e.normal)
        else .ok (t.insert e.normal (.file bytes)) := rfl

theorem enter_congr (t : Contents) {a b : ArchiveEntry} (hnormal : a.normal = b.normal)
    (hcontent : a.content = b.content) : enter t a = enter t b := by
  rw [enter_eq, enter_eq, hnormal, hcontent]

theorem enter_file {t : Contents} {e : ArchiveEntry} {bytes : Bytes}
    (h : e.content = .file bytes) (hne : e.normal ≠ "") :
    enter t e = if e.normal ∈ t then .error (.duplicateEntry e.normal)
      else .ok (t.insertIfNew e.normal e.content) := by
  rw [enter_eq, if_neg (by rwa [String.isEmpty_iff]), h]
  simp only [ExtTreeMap.contains_iff_mem]
  split
  · rfl
  · rename_i hfree
    rw [insert_eq_insertIfNew hfree]

/-- A file whose path is taken is refused. -/
theorem enter_of_blocked {t : Contents} {e : ArchiveEntry} (h : Blocked t e) :
    enter t e = .error (.duplicateEntry e.normal) := by
  cases hcontent : e.content with
  | directory =>
    have hfile := h.file
    rw [ArchiveEntry.isDirectory, hcontent] at hfile
    simp [Content.isDirectory] at hfile
  | file bytes => rw [enter_file hcontent h.nonempty, if_pos h.taken]

theorem enter_of_not_blocked {t : Contents} {e : ArchiveEntry} (h : ¬Blocked t e) :
    enter t e = .ok (insertNormal t e) := by
  unfold insertNormal
  by_cases hne : e.normal = ""
  · rw [enter_eq, if_pos hne, if_pos (String.isEmpty_iff.mpr hne)]
  · rw [if_neg hne]
    cases hcontent : e.content with
    | directory => rw [enter_eq, if_neg (by rwa [String.isEmpty_iff]), hcontent]
    | file bytes =>
      have hfree : e.normal ∉ t := fun htaken =>
        h ⟨by simp [ArchiveEntry.isDirectory, Content.isDirectory, hcontent], hne, htaken⟩
      rw [enter_file hcontent hne, if_neg hfree, hcontent]

theorem getElem?_insertNormal (t : Contents) (e : ArchiveEntry) (p : String) :
    (insertNormal t e)[p]? =
      t[p]?.or (if e.normal = p ∧ p ≠ "" then some e.content else none) := by
  unfold insertNormal
  split
  · rename_i hempty
    rw [if_neg, Option.or_none]
    rintro ⟨rfl, hne⟩
    exact hne hempty
  · rename_i hne
    rw [getElem?_insertIfNew]
    by_cases hp : e.normal = p
    · subst hp
      simp [hne]
    · simp [hp]

theorem mem_insertNormal {t : Contents} {e : ArchiveEntry} {p : String} :
    p ∈ insertNormal t e ↔ p ∈ t ∨ e.normal = p ∧ p ≠ "" := by
  rw [ExtTreeMap.mem_iff_isSome_getElem?, ExtTreeMap.mem_iff_isSome_getElem?,
    getElem?_insertNormal, Option.isSome_or]
  by_cases h : e.normal = p ∧ p ≠ "" <;> simp [h]

/-! ## Entering a list of entries -/

/-- A file with the path of an entry before it. -/
structure Clash (a b : ArchiveEntry) : Prop where
  file : b.isDirectory = false
  normal : a.normal = b.normal
  nonempty : b.normal ≠ ""

theorem blocked_insertNormal {t : Contents} {a b : ArchiveEntry} :
    Blocked (insertNormal t a) b ↔ Blocked t b ∨ Clash a b := by
  constructor
  · intro h
    rcases mem_insertNormal.mp h.taken with htaken | ⟨hnormal, -⟩
    · exact .inl ⟨h.file, h.nonempty, htaken⟩
    · exact .inr ⟨h.file, hnormal, h.nonempty⟩
  · rintro (h | h)
    · exact ⟨h.file, h.nonempty, mem_insertNormal.mpr (.inl h.taken)⟩
    · exact ⟨h.file, h.nonempty, mem_insertNormal.mpr (.inr ⟨h.normal, h.nonempty⟩)⟩

/-- Entries are entered if the paths of the files among them are not taken, neither before nor by
an entry in front. -/
theorem foldlM_enter_eq_ok {entries : List ArchiveEntry} {t u : Contents} :
    entries.foldlM enter t = .ok u ↔
      ((∀ e ∈ entries, ¬Blocked t e) ∧ entries.Pairwise fun a b => ¬Clash a b) ∧
        u = entries.foldl insertNormal t := by
  induction entries generalizing t with
  | nil =>
    rw [List.foldlM_nil, Except.pure_eq_ok]
    simp [eq_comm]
  | cons e entries ih =>
    rw [List.foldlM_cons, List.forall_mem_cons, List.pairwise_cons, List.foldl_cons]
    by_cases hblocked : Blocked t e
    · rw [enter_of_blocked hblocked]
      constructor
      · intro h
        obtain ⟨_, h, -⟩ := Except.bind_eq_ok.mp h
        simp at h
      · rintro ⟨⟨⟨hnot, -⟩, -⟩, -⟩
        exact absurd hblocked hnot
    · have hbind : (enter t e >>= fun t => entries.foldlM enter t) =
          entries.foldlM enter (insertNormal t e) := by
        rw [enter_of_not_blocked hblocked]
        rfl
      rw [hbind, ih]
      simp only [blocked_insertNormal, not_or, imp_and, forall_and, hblocked, not_false_eq_true,
        true_and, and_assoc]

/-- Nothing else goes wrong. -/
theorem foldlM_enter_error {entries : List ArchiveEntry} {t : Contents} {fault : Fault}
    (h : entries.foldlM enter t = .error fault) : ∃ p, fault = .duplicateEntry p := by
  induction entries generalizing t with
  | nil => simp [pure, Except.pure] at h
  | cons e entries ih =>
    rw [List.foldlM_cons] at h
    by_cases hblocked : Blocked t e
    · rw [enter_of_blocked hblocked] at h
      exact ⟨e.normal, (Except.error.inj h).symm⟩
    · rw [enter_of_not_blocked hblocked] at h
      exact ih h

/-- Of the entries with one path the first is found. -/
theorem getElem?_foldl_insertNormal (entries : List ArchiveEntry) (t : Contents) (p : String) :
    (entries.foldl insertNormal t)[p]? =
      t[p]?.or ((entries.find? fun e => e.normal = p ∧ p ≠ "").map ArchiveEntry.content) := by
  induction entries generalizing t with
  | nil => simp
  | cons e entries ih =>
    rw [List.foldl_cons, ih, getElem?_insertNormal, Option.or_assoc, List.find?_cons]
    by_cases hp : e.normal = p ∧ p ≠ ""
    · simp [hp]
    · simp [hp]

/-! ## What is listed -/

/-- What stands where in the canonical archive: the entries, and the directories around them. -/
inductive Listed (entries : List ArchiveEntry) : String → Content → Prop
  | entry {e : ArchiveEntry} (he : e ∈ entries) (hne : e.normal ≠ "") :
      Listed entries e.normal e.content
  | around {e : ArchiveEntry} {d : String} (he : e ∈ entries)
      (h : Encloses d.toList e.normal.toList) : Listed entries d .directory

variable {entries other : List ArchiveEntry}

theorem FilesApart.clash_iff (h : FilesApart entries) {a b : ArchiveEntry} (ha : a ∈ entries)
    (hb : b ∈ entries) : Clash a b ↔ Collide a b := by
  constructor
  · intro hclash
    have hsame := h.isDirectory_eq ha hb hclash.normal hclash.nonempty
    exact ⟨hsame.trans hclash.file, hclash.file, hclash.normal, hclash.nonempty⟩
  · intro hcollide
    exact ⟨hcollide.right, hcollide.normal, hcollide.nonempty⟩

theorem FilesApart.pairwise_iff (h : FilesApart entries) :
    (entries.Pairwise fun a b => ¬Clash a b) ↔ entries.Pairwise fun a b => ¬Collide a b :=
  List.Pairwise.iff_of_mem fun ha hb => not_congr (h.clash_iff ha hb)

/-- Entries with the same path have the same content, unless two files collide. -/
theorem FilesApart.content_eq (h : FilesApart entries)
    (hfree : entries.Pairwise fun a b => ¬Collide a b) {a b : ArchiveEntry} (ha : a ∈ entries)
    (hb : b ∈ entries) (hnormal : a.normal = b.normal) (hne : b.normal ≠ "") :
    a.content = b.content := by
  have hsame := h.isDirectory_eq ha hb hnormal hne
  cases hdirectory : b.isDirectory with
  | true =>
    rw [content_of_isDirectory (hsame.trans hdirectory), content_of_isDirectory hdirectory]
  | false =>
    by_cases heq : a = b
    · rw [heq]
    · have hcollide : Collide a b := ⟨hsame.trans hdirectory, hdirectory, hnormal, hne⟩
      exact absurd hcollide (hfree.forall ha hb heq)

/-- The table after all entries were entered. -/
def contents (entries : List ArchiveEntry) : Contents := entries.foldl insertNormal ∅

theorem contents_eq_some (h : FilesApart entries)
    (hfree : entries.Pairwise fun a b => ¬Collide a b) {p : String} {c : Content} :
    (contents entries)[p]? = some c ↔
      p ≠ "" ∧ ∃ e ∈ entries, e.normal = p ∧ e.content = c := by
  rw [contents, getElem?_foldl_insertNormal, ExtTreeMap.getElem?_empty, Option.none_or,
    Option.map_eq_some_iff]
  constructor
  · rintro ⟨e, hfind, rfl⟩
    have hp := List.find?_some hfind
    simp only [decide_eq_true_eq] at hp
    exact ⟨hp.2, e, List.mem_of_find?_eq_some hfind, hp.1, rfl⟩
  · rintro ⟨hne, e, he, rfl, rfl⟩
    have hfound : (entries.find? fun a => a.normal = e.normal ∧ e.normal ≠ "").isSome := by
      rw [List.find?_isSome]
      exact ⟨e, he, by simpa using hne⟩
    obtain ⟨a, ha⟩ := Option.isSome_iff_exists.mp hfound
    have hnormal := List.find?_some ha
    simp only [decide_eq_true_eq] at hnormal
    exact ⟨a, ha, h.content_eq hfree (List.mem_of_find?_eq_some ha) he hnormal.1 hne⟩

/-- The directories around the paths of a table are added to it. -/
theorem getElem?_withParents (t : Contents) (p : String) :
    (withParents t)[p]? =
      t[p]?.or (if p ∈ t.keys.flatMap parents then some .directory else none) := by
  have hfold : withParents t = ((t.keys.flatMap parents).map fun d => (d, Content.directory)).foldl
      (fun t f => t.insertIfNew f.1 f.2) t := by
    rw [List.foldl_map]
    rfl
  rw [hfold, getElem?_foldl_insertIfNew, List.find?_map, Option.map_map]
  congr 1
  split
  · rename_i hmem
    have hfound : ((t.keys.flatMap parents).find? fun d => decide (d = p)).isSome := by
      rw [List.find?_isSome]
      exact ⟨p, hmem, by simp⟩
    obtain ⟨d, hd⟩ := Option.isSome_iff_exists.mp hfound
    exact Option.map_eq_some_iff.mpr ⟨d, hd, rfl⟩
  · rename_i hmem
    rw [Option.map_eq_none_iff, List.find?_eq_none]
    intro d hd hdp
    exact hmem (of_decide_eq_true hdp ▸ hd)

theorem mem_around {t : Contents} {p : String} :
    p ∈ t.keys.flatMap parents ↔ ∃ q ∈ t, Encloses p.toList q.toList := by
  simp only [List.mem_flatMap, ExtTreeMap.mem_keys, mem_parents]

theorem Encloses.ne_empty {d p : String} (h : Encloses d.toList p.toList) : p ≠ "" := by
  rintro rfl
  obtain ⟨hslash, hbegins⟩ := h
  rw [List.prefix_nil.mp hbegins] at hslash
  simp at hslash

/-- The table with all directories holds what is listed. -/
theorem withParents_eq_some (h : FilesApart entries)
    (hfree : entries.Pairwise fun a b => ¬Collide a b) {p : String} {c : Content} :
    (withParents (contents entries))[p]? = some c ↔ Listed entries p c := by
  have hentered : ∀ q, q ∈ contents entries ↔ q ≠ "" ∧ ∃ e ∈ entries, e.normal = q := by
    intro q
    rw [ExtTreeMap.mem_iff_isSome_getElem?, Option.isSome_iff_exists]
    simp only [contents_eq_some h hfree]
    exact ⟨fun ⟨_, hne, e, he, hq, _⟩ => ⟨hne, e, he, hq⟩,
      fun ⟨hne, e, he, hq⟩ => ⟨_, hne, e, he, hq, rfl⟩⟩
  rw [getElem?_withParents, Option.or_eq_some_iff, contents_eq_some h hfree]
  constructor
  · rintro (⟨hne, e, he, rfl, rfl⟩ | ⟨-, haround⟩)
    · exact .entry he hne
    · split at haround
      · rename_i hmem
        obtain ⟨q, hq, hencloses⟩ := mem_around.mp hmem
        obtain ⟨-, e, he, rfl⟩ := (hentered q).mp hq
        rw [← Option.some.inj haround]
        exact .around he hencloses
      · simp at haround
  · intro hlisted
    cases hlisted with
    | entry he hne => exact .inl ⟨hne, _, he, rfl, rfl⟩
    | @around e _ he hencloses =>
      have hmem : p ∈ (contents entries).keys.flatMap parents :=
        mem_around.mpr ⟨_, (hentered _).mpr ⟨hencloses.ne_empty, e, he, rfl⟩, hencloses⟩
      by_cases htaken : p ∈ contents entries
      · -- What is there already ends with a slash, so it is a directory.
        obtain ⟨hne, a, ha, rfl⟩ := (hentered p).mp htaken
        have hdirectory : a.isDirectory = true := by
          rw [← Bool.not_eq_false]
          exact fun hfile => h a ha hfile hencloses.slash
        exact .inl ⟨hne, a, ha, rfl, content_of_isDirectory hdirectory⟩
      · exact .inr ⟨ExtTreeMap.getElem?_eq_none htaken, by rw [if_pos hmem]⟩

end Archive
end ClassRelabel
