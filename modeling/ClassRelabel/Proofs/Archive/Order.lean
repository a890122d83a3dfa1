/-
The order of a canonical archive.

Entries are sorted by their paths without the slashes at the end, and the manifest and its directory
come last.  Different paths may be equal without these slashes, so `precedes` is no order but a total
preorder; entries that tie stay as the table has them, which sorts the paths as they are.  A
directory comes before what is below it by either of the two (`before_arranged`).
-/
import Mathlib.Data.List.Pairwise
import ClassRelabel.Proofs.Archive.Path

namespace List

variable {α : Type}

/-- A list in which all that `p` holds of stands in front. -/
theorem filter_append_filter_not {p : α → Bool} {l : List α}
    (h : l.Pairwise fun a b => p b = true → p a = true) :
    l.filter p ++ l.filter (fun a => !p a) = l := by
  induction l with
  | nil => rfl
  | cons a l ih =>
    obtain ⟨hhead, htail⟩ := pairwise_cons.mp h
    by_cases ha : p a = true
    · rw [filter_cons_of_pos ha, filter_cons_of_neg (by simp [ha]), cons_append, ih htail]
    · have hnone : ∀ b ∈ l, ¬p b = true := fun b hb hpb => ha (hhead b hb hpb)
      have hall : l.filter (fun a => !p a) = l := by
        rw [filter_eq_self]
        exact fun b hb => by simpa using hnone b hb
      rw [filter_cons_of_neg ha, filter_cons_of_pos (by simpa using ha),
        filter_eq_nil_iff.mpr hnone, hall, nil_append]

theorem pair_sublist_of_mem {l : List α} {a b : α} (ha : a ∈ l) (hb : b ∈ l) (hne : a ≠ b) :
    [a, b] <+ l ∨ [b, a] <+ l := by
  induction l with
  | nil => simp at ha
  | cons c l ih =>
    rcases mem_cons.mp ha with rfl | ha'
    · have hb' : b ∈ l := (mem_cons.mp hb).resolve_left (Ne.symm hne)
      exact .inl (cons_sublist_cons.mpr (singleton_sublist.mpr hb'))
    · rcases mem_cons.mp hb with rfl | hb'
      · exact .inr (cons_sublist_cons.mpr (singleton_sublist.mpr ha'))
      · exact (ih ha' hb').imp (.cons c) (.cons c)

/-- What stands in the order of the list. -/
theorem Pairwise.pair_sublist {R : α → α → Prop} {l : List α} (h : l.Pairwise R) {a b : α}
    (ha : a ∈ l) (hb : b ∈ l) (hne : a ≠ b) (hnot : ¬R b a) : [a, b] <+ l :=
  (pair_sublist_of_mem ha hb hne).resolve_right fun hsub =>
    hnot (pairwise_iff_forall_sublist.mp h hsub)

theorem lt_of_isPrefix {a b : List Char} (h : a <+: b) (hne : a ≠ b) : a < b := by
  induction a generalizing b with
  | nil =>
    cases b with
    | nil => exact absurd rfl hne
    | cons c b => exact nil_lt_cons c b
  | cons c a ih =>
    obtain ⟨rest, rfl⟩ := h
    rw [cons_append, cons_lt_cons_self]
    refine ih (prefix_append a rest) fun heq => hne ?_
    rw [cons_append, ← heq]

theorem isLE_compare_of_isPrefix {a b : List Char} (h : a <+: b) : (compare a b).isLE := by
  induction a generalizing b with
  | nil => exact List.isLE_compare_nil_left
  | cons c a ih =>
    obtain ⟨rest, rfl⟩ := h
    have hself : compare c c = .eq := Std.ReflOrd.compare_self
    rw [cons_append, List.compare_cons_cons, hself]
    exact ih (prefix_append a rest)

end List

namespace ClassRelabel
namespace Archive

open Std (ExtTreeMap)
open scoped List

/-! ## Paths in order -/

theorem precedes_iff {a b : String} : precedes a b = true ↔
    rank a < rank b ∨ rank a = rank b ∧ (compare (sortKey a) (sortKey b)).isLE = true := by
  simp [precedes]

theorem precedes_trans (a b c : String) (hab : precedes a b = true) (hbc : precedes b c = true) :
    precedes a c = true := by
  rw [precedes_iff] at *
  rcases hab with hab | ⟨hab, hkey⟩
  · exact .inl (by omega)
  · rcases hbc with hbc | ⟨hbc, hkey'⟩
    · exact .inl (by omega)
    · exact .inr ⟨hab.trans hbc, Std.TransOrd.isLE_trans hkey hkey'⟩

theorem precedes_total (a b : String) : (precedes a b || precedes b a) = true := by
  rw [Bool.or_eq_true, precedes_iff, precedes_iff]
  rcases Nat.lt_trichotomy (rank a) (rank b) with hlt | heq | hgt
  · exact .inl (.inl hlt)
  · have hswap : compare (sortKey b) (sortKey a) = (compare (sortKey a) (sortKey b)).swap :=
      Std.OrientedOrd.eq_swap
    rw [hswap]
    cases compare (sortKey a) (sortKey b) <;> simp [heq]
  · exact .inr (.inl hgt)

theorem rank_le_of_precedes {a b : String} (h : precedes a b = true) : rank a ≤ rank b := by
  rcases precedes_iff.mp h with hlt | ⟨heq, -⟩ <;> omega

theorem compare_of_isPrefix {a b : String} (h : a.toList <+: b.toList) (hne : a ≠ b) :
    compare a b = .lt := by
  have hlt : a < b := String.lt_iff.mpr
    (List.lt_of_isPrefix h fun heq => hne (String.toList_inj.mp heq))
  show compareOfLessAndEq a b = .lt
  rw [compareOfLessAndEq, if_pos hlt]

/-- A path may stand before the paths that begin with it, unless it is one of those that come
last. -/
theorem precedes_of_isPrefix {a b : String} (h : a.toList <+: b.toList) (ha : rank a = 0) :
    precedes a b = true := by
  rw [precedes_iff, ha]
  rcases Nat.eq_zero_or_pos (rank b) with hb | hb
  · exact .inr ⟨hb.symm, List.isLE_compare_of_isPrefix (withoutSlashesBehind_mono h)⟩
  · exact .inl hb

/-! ## Entries in order -/

/-- The entries of a table. -/
def listed (t : Contents) : List ArchiveEntry :=
  t.toList.map fun (path, content) => ⟨path, content, some canonicalTime⟩

def arranged (t : Contents) : List ArchiveEntry :=
  (listed t).mergeSort fun a b => precedes a.path b.path

variable {t : Contents} {d e : ArchiveEntry}

theorem mem_listed : e ∈ listed t ↔ e.modified = some canonicalTime ∧ t[e.path]? = some e.content := by
  rw [listed, List.mem_map]
  constructor
  · rintro ⟨⟨path, content⟩, hmem, rfl⟩
    exact ⟨rfl, ExtTreeMap.mem_toList_iff_getElem?_eq_some.mp hmem⟩
  · rintro ⟨htime, hcontent⟩
    refine ⟨(e.path, e.content), ExtTreeMap.mem_toList_iff_getElem?_eq_some.mpr hcontent, ?_⟩
    rw [← htime]

theorem mem_arranged :
    e ∈ arranged t ↔ e.modified = some canonicalTime ∧ t[e.path]? = some e.content := by
  rw [arranged, (List.mergeSort_perm _ _).mem_iff, mem_listed]

theorem pairwise_listed :
    (listed t).Pairwise fun a b => compare a.path b.path = .lt :=
  List.pairwise_map.mpr ExtTreeMap.ordered_keys_toList

theorem nodup_arranged : ((arranged t).map ArchiveEntry.path).Nodup := by
  have hlisted : ((listed t).map ArchiveEntry.path).Nodup :=
    List.pairwise_map.mpr (pairwise_listed.imp fun {a b} hlt heq => by
      rw [heq, Std.ReflOrd.compare_self] at hlt
      simp at hlt)
  exact ((List.mergeSort_perm _ _).map _).nodup_iff.mpr hlisted

theorem pairwise_arranged :
    (arranged t).Pairwise fun a b => precedes a.path b.path = true :=
  List.pairwise_mergeSort (fun a b c => precedes_trans a.path b.path c.path)
    (fun a b => precedes_total a.path b.path) _

/-- An entry whose path another path begins with comes before it. -/
theorem before_arranged (hd : d ∈ arranged t) (he : e ∈ arranged t)
    (hbegins : d.path.toList <+: e.path.toList) (hne : d.path ≠ e.path) (hrank : rank d.path = 0) :
    [d, e] <+ arranged t := by
  -- The two may tie without their slashes, so their order is that of the table, which sorting keeps.
  have hlt := compare_of_isPrefix hbegins hne
  have hnot : ¬compare e.path d.path = .lt := by
    rw [Std.OrientedOrd.eq_swap, hlt]
    simp
  have hsub : [d, e] <+ listed t := pairwise_listed.pair_sublist
    ((List.mergeSort_perm _ _).mem_iff.mp hd) ((List.mergeSort_perm _ _).mem_iff.mp he)
    (fun heq => hne (heq ▸ rfl)) hnot
  exact List.pair_sublist_mergeSort (fun a b c => precedes_trans a.path b.path c.path)
    (fun a b => precedes_total a.path b.path) (precedes_of_isPrefix hbegins hrank) hsub

/-! ## What comes last -/

theorem rank_eq_one {path : String} : rank path = 1 ↔ path = "META-INF/" := by
  unfold rank
  split
  · simp [*]
  · split <;> simp [*]

theorem rank_eq_two {path : String} : rank path = 2 ↔ path = "META-INF/MANIFEST.MF" := by
  unfold rank
  split
  · rename_i h
    simp [h]
  · split <;> simp [*]

theorem rank_lt_three (path : String) : rank path < 3 := by
  unfold rank
  split
  · decide
  · split <;> decide

/-- Distinct paths that come last. -/
theorem paths_of_last {last : List ArchiveEntry} (hrank : ∀ e ∈ last, rank e.path ≠ 0)
    (hsorted : last.Pairwise fun a b => rank a.path ≤ rank b.path)
    (hnodup : (last.map ArchiveEntry.path).Nodup)
    (hdirectory : (∃ m ∈ last, m.path = "META-INF/MANIFEST.MF") →
      ∃ d ∈ last, d.path = "META-INF/") :
    last.map ArchiveEntry.path = [] ∨ last.map ArchiveEntry.path = ["META-INF/"] ∨
      last.map ArchiveEntry.path = ["META-INF/", "META-INF/MANIFEST.MF"] := by
  have hpath : ∀ e ∈ last, e.path = "META-INF/" ∨ e.path = "META-INF/MANIFEST.MF" := by
    intro e he
    have hne := hrank e he
    have hlt := rank_lt_three e.path
    rw [← rank_eq_one, ← rank_eq_two]
    omega
  rcases last with _ | ⟨d, _ | ⟨m, _ | ⟨c, rest⟩⟩⟩
  · exact .inl rfl
  · rcases hpath d (by simp) with hd | hd
    · exact .inr (.inl (by rw [List.map_singleton, hd]))
    · -- The manifest is not alone.
      obtain ⟨e, he, hdirectory⟩ := hdirectory ⟨d, by simp, hd⟩
      rw [List.mem_singleton.mp he, hd] at hdirectory
      simp at hdirectory
  · have hne : d.path ≠ m.path := by simpa using hnodup
    have hle : rank d.path ≤ rank m.path := by simpa using hsorted
    rcases hpath d (by simp) with hd | hd <;> rcases hpath m (by simp) with hm | hm
    · exact absurd (hd.trans hm.symm) hne
    · exact .inr (.inr (by rw [List.map_cons, List.map_singleton, hd, hm]))
    · rw [hd, hm] at hle
      exact absurd hle (by decide)
    · exact absurd (hd.trans hm.symm) hne
  · -- Three paths that are one of two are not distinct.
    rcases hpath d (by simp) with hd | hd <;> rcases hpath m (by simp) with hm | hm <;>
      rcases hpath c (by simp) with hc | hc <;> simp [hd, hm, hc] at hnodup

/-- Sorted entries end with those that come last, the manifest after its directory. -/
theorem exists_ending {entries : List ArchiveEntry}
    (hsorted : entries.Pairwise fun a b => precedes a.path b.path = true)
    (hnodup : (entries.map ArchiveEntry.path).Nodup)
    (hdirectory : (∃ m ∈ entries, m.path = "META-INF/MANIFEST.MF") →
      ∃ d ∈ entries, d.path = "META-INF/") :
    ∃ front last, entries = front ++ last ∧ (∀ e ∈ front, rank e.path = 0) ∧
      (last.map ArchiveEntry.path = [] ∨ last.map ArchiveEntry.path = ["META-INF/"] ∨
        last.map ArchiveEntry.path = ["META-INF/", "META-INF/MANIFEST.MF"]) := by
  have hranks : entries.Pairwise fun a b => rank a.path ≤ rank b.path :=
    hsorted.imp rank_le_of_precedes
  have hsplit : entries.filter (fun e => rank e.path = 0) ++
      entries.filter (fun e => !decide (rank e.path = 0)) = entries := by
    refine List.filter_append_filter_not (hranks.imp fun hle hzero => ?_)
    simp only [decide_eq_true_eq] at hzero ⊢
    omega
  have hmem : ∀ e, e ∈ entries.filter (fun e => !decide (rank e.path = 0)) ↔
      e ∈ entries ∧ rank e.path ≠ 0 := fun e => by simp
  refine ⟨_, _, hsplit.symm, fun e he => by simpa using (List.mem_filter.mp he).2, ?_⟩
  refine paths_of_last (fun e he => ((hmem e).mp he).2) (hranks.filter _)
    (hnodup.sublist (List.filter_sublist.map _)) ?_
  rintro ⟨m, hm, hmanifest⟩
  obtain ⟨d, hd, hpath⟩ := hdirectory ⟨m, ((hmem m).mp hm).1, hmanifest⟩
  refine ⟨d, (hmem d).mpr ⟨hd, ?_⟩, hpath⟩
  rw [rank_eq_one.mpr hpath]
  decide

end Archive
end ClassRelabel
