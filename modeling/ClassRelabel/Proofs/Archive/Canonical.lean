/-
The canonical layout.

`IsCanonical entries out` says what the canonical form `out` of an archive is: which paths it has and
what is at each, and in which order they stand.  `canonical_layout` is the theorem this file exists
for: an archive has a canonical form unless two of its files get the same path.
-/
import ClassRelabel.Proofs.Archive.Contents
import ClassRelabel.Proofs.Archive.Order

namespace ClassRelabel
namespace Archive

open scoped List

variable {entries out : List ArchiveEntry}

/-- No path of a file ends with a separator. -/
def FilesNamed (entries : List ArchiveEntry) : Prop :=
  ∀ e ∈ entries, e.isDirectory = false → ∀ c ∈ e.path.toList.getLast?, c ≠ '/' ∧ c ≠ '\\'

instance (entries : List ArchiveEntry) : Decidable (FilesNamed entries) :=
  decidable_of_iff (∀ e ∈ entries, e.isDirectory = false →
      e.path.toList.getLast?.all (fun c => c != '/' && c != '\\') = true) <| by
    simp [FilesNamed, Option.all_eq_true]

theorem FilesNamed.apart (h : FilesNamed entries) : FilesApart entries := by
  intro e he hfile
  rw [toList_normal, hfile]
  exact getLast?_normalChars_file (h e he hfile)

/-! ## What is listed -/

theorem Listed.slash {p : String} {c : Content} (h : Listed entries p c) (hc : c = .directory) :
    p.toList.getLast? = some '/' := by
  cases h with
  | entry _ hne => exact getLast?_normal_directory (isDirectory_of_content hc) hne
  | around _ h => exact h.slash

/-- The directories around what is listed are listed too. -/
theorem Listed.around_listed {p d : String} {c : Content} (h : Listed entries p c)
    (hd : Encloses d.toList p.toList) : Listed entries d .directory := by
  cases h with
  | entry he _ => exact .around he hd
  | around he h => exact .around he (hd.trans h)

/-! ## The canonical form -/

theorem canonical_eq_bind (entries : List ArchiveEntry) :
    canonical entries =
      entries.foldlM enter ∅ >>= fun t => pure (arranged (withParents t)) := rfl

theorem canonical_eq_ok (h : FilesApart entries) :
    canonical entries = .ok out ↔ (entries.Pairwise fun a b => ¬Collide a b) ∧
      out = arranged (withParents (contents entries)) := by
  have hempty : ∀ e ∈ entries, ¬Blocked ∅ e := fun e _ hblocked => by
    simpa using hblocked.taken
  rw [canonical_eq_bind, Except.bind_eq_ok, ← h.pairwise_iff]
  constructor
  · rintro ⟨t, ht, hout⟩
    obtain ⟨⟨-, hfree⟩, rfl⟩ := foldlM_enter_eq_ok.mp ht
    exact ⟨hfree, (Except.pure_eq_ok.mp hout).symm⟩
  · rintro ⟨hfree, rfl⟩
    exact ⟨_, foldlM_enter_eq_ok.mpr ⟨⟨hempty, hfree⟩, rfl⟩, rfl⟩

theorem canonical_eq_error {fault : Fault} :
    canonical entries = .error fault ↔ entries.foldlM enter ∅ = .error fault := by
  rw [canonical_eq_bind]
  cases entries.foldlM enter ∅ <;> simp [bind, Except.bind, pure, Except.pure]

theorem canonical_error {fault : Fault} (h : canonical entries = .error fault) :
    ∃ p, fault = .duplicateEntry p :=
  foldlM_enter_error (canonical_eq_error.mp h)

theorem mem_canonical (h : FilesApart entries) (hout : canonical entries = .ok out)
    {e : ArchiveEntry} :
    e ∈ out ↔ e.modified = some canonicalTime ∧ Listed entries e.path e.content := by
  obtain ⟨hfree, rfl⟩ := (canonical_eq_ok h).mp hout
  rw [mem_arranged, withParents_eq_some h hfree]

/-- The canonical form `out` of the archive `entries`. -/
structure IsCanonical (entries out : List ArchiveEntry) : Prop where
  nodup : (out.map ArchiveEntry.path).Nodup
  mem : ∀ e, e ∈ out ↔ e.modified = some canonicalTime ∧ Listed entries e.path e.content
  /-- The manifest and its directory come last, and the others by their paths without the slashes
  at the end. -/
  sorted : ∃ front last, out = front ++ last ∧
    (∀ e ∈ front, e.path ≠ "META-INF/" ∧ e.path ≠ "META-INF/MANIFEST.MF") ∧
    (front.Pairwise fun a b => (compare (sortKey a.path) (sortKey b.path)).isLE = true) ∧
    (last.map ArchiveEntry.path = [] ∨ last.map ArchiveEntry.path = ["META-INF/"] ∨
      last.map ArchiveEntry.path = ["META-INF/", "META-INF/MANIFEST.MF"])
  below : ∀ d ∈ out, ∀ e ∈ out, d.isDirectory = true → d.path ≠ "META-INF/" →
    d.path.toList <+: e.path.toList → d.path ≠ e.path → [d, e] <+ out

theorem rank_eq_zero {path : String} :
    rank path = 0 ↔ path ≠ "META-INF/" ∧ path ≠ "META-INF/MANIFEST.MF" := by
  have hlt := rank_lt_three path
  rw [ne_eq, ne_eq, ← rank_eq_one, ← rank_eq_two]
  omega

theorem isCanonical_of_canonical (h : FilesApart entries) (hout : canonical entries = .ok out) :
    IsCanonical entries out := by
  have hmem : ∀ e, e ∈ out ↔ e.modified = some canonicalTime ∧ Listed entries e.path e.content :=
    fun _ => mem_canonical h hout
  obtain ⟨-, rfl⟩ := (canonical_eq_ok h).mp hout
  have hslash : ∀ d ∈ arranged (withParents (contents entries)), d.isDirectory = true →
      d.path.toList.getLast? = some '/' := by
    intro d hd hdirectory
    exact ((hmem d).mp hd).2.slash (content_of_isDirectory hdirectory)
  refine ⟨nodup_arranged, hmem, ?_, ?_⟩
  · obtain ⟨front, last, heq, hfront, hlast⟩ := exists_ending pairwise_arranged nodup_arranged <| by
      rintro ⟨m, hm, hmanifest⟩
      have hlisted := ((hmem m).mp hm).2
      rw [hmanifest] at hlisted
      have haround := hlisted.around_listed (d := "META-INF/") ⟨by decide, by decide⟩
      exact ⟨⟨"META-INF/", .directory, some canonicalTime⟩, (hmem _).mpr ⟨rfl, haround⟩, rfl⟩
    refine ⟨front, last, heq, fun e he => rank_eq_zero.mp (hfront e he), ?_, hlast⟩
    have hsorted : front.Pairwise fun a b => precedes a.path b.path = true :=
      (List.pairwise_append.mp (heq ▸ pairwise_arranged)).1
    refine hsorted.imp_of_mem fun {a b} ha hb hprecedes => ?_
    rcases precedes_iff.mp hprecedes with hlt | ⟨-, hkey⟩
    · rw [hfront a ha, hfront b hb] at hlt
      exact absurd hlt (Nat.lt_irrefl 0)
    · exact hkey
  · intro d hd e he hdirectory hne hbegins hdiffer
    have hmanifest : d.path ≠ "META-INF/MANIFEST.MF" := by
      intro hpath
      have hlast := hslash d hd hdirectory
      rw [hpath] at hlast
      exact absurd hlast (by decide)
    exact before_arranged hd he hbegins hdiffer (rank_eq_zero.mpr ⟨hne, hmanifest⟩)

theorem pairwise_collide_iff :
    (entries.Pairwise fun a b => ¬Collide a b) ↔ ¬∃ a b, [a, b] <+ entries ∧ Collide a b := by
  rw [List.pairwise_iff_forall_sublist]
  exact ⟨fun h ⟨a, b, hsub, hcollide⟩ => h hsub hcollide,
    fun h a b hsub hcollide => h ⟨a, b, hsub, hcollide⟩⟩

/-- An archive has no canonical form exactly if two of its files have the same path in it.
Otherwise the form holds what is listed, in order. -/
theorem canonical_layout (h : FilesNamed entries) :
    ((∃ p, canonical entries = .error (.duplicateEntry p)) ↔
      ∃ a b, [a, b] <+ entries ∧ Collide a b) ∧
    ((¬∃ a b, [a, b] <+ entries ∧ Collide a b) →
      ∃ out, canonical entries = .ok out ∧ IsCanonical entries out) := by
  have hok : (¬∃ a b, [a, b] <+ entries ∧ Collide a b) → ∃ out, canonical entries = .ok out :=
    fun hfree => ⟨_, (canonical_eq_ok h.apart).mpr ⟨pairwise_collide_iff.mpr hfree, rfl⟩⟩
  refine ⟨⟨?_, ?_⟩, ?_⟩
  · rintro ⟨p, hp⟩
    by_contra hfree
    obtain ⟨out, hout⟩ := hok hfree
    rw [hp] at hout
    simp at hout
  · intro hcollide
    cases hcanonical : canonical entries with
    | ok out =>
      have hfree := ((canonical_eq_ok h.apart).mp hcanonical).1
      exact absurd hcollide (pairwise_collide_iff.mp hfree)
    | error fault =>
      obtain ⟨p, rfl⟩ := canonical_error hcanonical
      exact ⟨p, rfl⟩
  · intro hfree
    obtain ⟨out, hout⟩ := hok hfree
    exact ⟨out, hout, isCanonical_of_canonical h.apart hout⟩

/-! ## An archive with mixed separators

A file `a` and a directory `a/` have different paths, and slashes inside a path stay as they are.
In the other archive one file is spelled in two ways. -/

def mixed : List ArchiveEntry :=
  [⟨"META-INF\\MANIFEST.MF", .file [1], none⟩, ⟨"a//b", .file [2], none⟩,
    ⟨"/a\\", .directory, none⟩, ⟨"a", .file [3], none⟩]

def doubled : List ArchiveEntry := [⟨"a/x", .file [1], none⟩, ⟨"/a\\x", .file [2], none⟩]

theorem canonical_layout_mixed :
    (FilesNamed mixed ∧ ∃ out, canonical mixed = .ok out ∧ IsCanonical mixed out) ∧
      FilesNamed doubled ∧ ∃ p, canonical doubled = .error (.duplicateEntry p) := by
  have hmixed : FilesNamed mixed := by decide +kernel
  have hdoubled : FilesNamed doubled := by decide +kernel
  have hapart : mixed.Pairwise fun a b => ¬Collide a b := by decide +kernel
  have hcollide : ∃ a b, [a, b] <+ doubled ∧ Collide a b :=
    ⟨_, _, List.Sublist.refl _, by decide +kernel⟩
  exact ⟨⟨hmixed, (canonical_layout hmixed).2 (pairwise_collide_iff.mp hapart)⟩, hdoubled,
    (canonical_layout hdoubled).1.mpr hcollide⟩

end Archive
end ClassRelabel
