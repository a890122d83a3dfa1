/-
Paths in canonical form.

A canonical path has slashes only and none in front (`Clean`).  That of a file is a clean path as it
is, and that of a directory ends with exactly one slash.  The directories around a path are its
beginnings that end with a slash (`Encloses`); they are clean as well, but may end with more than
one slash where slashes follow each other inside the path.
-/
import Mathlib.Data.List.DropRight
import ClassRelabel.Archive.Layout

namespace ClassRelabel
namespace Archive

/-! ## Slashes behind -/

theorem withoutSlashesBehind_eq (cs : List Char) :
    withoutSlashesBehind cs = cs.rdropWhile (· == '/') := rfl

theorem withoutSlashesBehind_isPrefix (cs : List Char) : withoutSlashesBehind cs <+: cs :=
  List.rdropWhile_prefix (· == '/') cs

theorem withoutSlashesBehind_of_getLast? {cs : List Char} (h : cs.getLast? ≠ some '/') :
    withoutSlashesBehind cs = cs := by
  rw [withoutSlashesBehind_eq, List.rdropWhile_eq_self_iff]
  intro hne hlast
  exact h (by rw [List.getLast?_eq_some_getLast hne, beq_iff_eq.mp hlast])

theorem getLast?_withoutSlashesBehind (cs : List Char) :
    (withoutSlashesBehind cs).getLast? ≠ some '/' := by
  intro h
  have hne : withoutSlashesBehind cs ≠ [] := by
    intro hnil
    simp [hnil] at h
  have hlast := List.rdropWhile_last_not (· == '/') cs hne
  rw [List.getLast?_eq_some_getLast hne, Option.some.injEq] at h
  exact hlast (beq_iff_eq.mpr h)

theorem withoutSlashesBehind_concat (cs : List Char) :
    withoutSlashesBehind (cs ++ ['/']) = withoutSlashesBehind cs :=
  List.rdropWhile_concat_pos _ _ _ rfl

theorem withoutSlashesBehind_mono {cs ds : List Char} (h : cs <+: ds) :
    withoutSlashesBehind cs <+: withoutSlashesBehind ds := by
  induction ds using List.reverseRecOn with
  | nil =>
    obtain rfl := List.prefix_nil.mp h
    exact List.prefix_rfl
  | append_singleton ds c ih =>
    rcases List.prefix_concat_iff.mp h with rfl | h
    · exact List.prefix_rfl
    · by_cases hc : c = '/'
      · rw [hc, withoutSlashesBehind_concat]
        exact ih h
      · have hlast : (ds ++ [c]).getLast? ≠ some '/' := by simpa using hc
        rw [withoutSlashesBehind_of_getLast? hlast]
        exact (withoutSlashesBehind_isPrefix cs).trans (h.trans (List.prefix_append ds [c]))

/-- Of the slashes behind a path the first one follows what is before them. -/
theorem withoutSlashesBehind_concat_isPrefix {cs : List Char} (h : cs.getLast? = some '/') :
    withoutSlashesBehind cs ++ ['/'] <+: cs := by
  induction cs using List.reverseRecOn with
  | nil => simp at h
  | append_singleton cs c ih =>
    obtain rfl : c = '/' := by simpa using h
    rw [withoutSlashesBehind_concat]
    by_cases hcs : cs.getLast? = some '/'
    · exact (ih hcs).trans (List.prefix_append cs _)
    · rewrite [withoutSlashesBehind_of_getLast? hcs]
      exact List.prefix_rfl

/-! ## Clean paths -/

/-- Slashes only, and none in front. -/
structure Clean (cs : List Char) : Prop where
  backslash : '\\' ∉ cs
  front : cs.head? ≠ some '/'

theorem clean_of_isPrefix {cs ds : List Char} (h : cs <+: ds) (hds : Clean ds) : Clean cs := by
  refine ⟨fun hmem => hds.backslash (h.subset hmem), fun hhead => hds.front ?_⟩
  obtain ⟨rest, rfl⟩ := h
  rw [List.head?_append, hhead, Option.some_or]

/-- A clean path that is not empty is not made of slashes alone. -/
theorem Clean.withoutSlashesBehind_ne_nil {cs : List Char} (h : Clean cs) (hne : cs ≠ []) :
    withoutSlashesBehind cs ≠ [] := by
  intro hnil
  rw [withoutSlashesBehind_eq, List.rdropWhile_eq_nil_iff] at hnil
  obtain ⟨c, rest, rfl⟩ := List.exists_cons_of_ne_nil hne
  have hc := hnil c List.mem_cons_self
  exact h.front (by rw [List.head?_cons, beq_iff_eq.mp hc])

/-- The character that a separator is written as. -/
def slashed (c : Char) : Char := if c == '\\' then '/' else c

theorem slashed_ne (c : Char) : slashed c ≠ '\\' := by
  unfold slashed
  split
  · decide
  · rename_i hc
    simpa using hc

theorem normalChars_file (cs : List Char) :
    normalChars cs false = (cs.map slashed).dropWhile (· == '/') := rfl

/-- The canonical path of a directory is made from that of a file. -/
theorem normalChars_directory (cs : List Char) :
    normalChars cs true = [] ∧ withoutSlashesBehind (normalChars cs false) = [] ∨
      normalChars cs true = withoutSlashesBehind (normalChars cs false) ++ ['/'] ∧
        withoutSlashesBehind (normalChars cs false) ≠ [] := by
  cases hbody : withoutSlashesBehind (normalChars cs false) with
  | nil =>
    simp only [normalChars, Bool.false_eq_true, if_false] at hbody
    exact .inl ⟨by simp only [normalChars, if_true, hbody], rfl⟩
  | cons c body =>
    simp only [normalChars, Bool.false_eq_true, if_false] at hbody
    exact .inr ⟨by simp only [normalChars, if_true, hbody], by simp⟩

theorem clean_normalChars_file (cs : List Char) : Clean (normalChars cs false) := by
  rw [normalChars_file]
  constructor
  · intro hmem
    obtain ⟨c, -, hc⟩ := List.mem_map.mp ((List.dropWhile_suffix _).subset hmem)
    exact slashed_ne c hc
  · intro hhead
    have hnot := List.head?_dropWhile_not (· == '/') (cs.map slashed)
    rw [hhead] at hnot
    simp at hnot

theorem clean_normalChars (cs : List Char) (isDirectory : Bool) :
    Clean (normalChars cs isDirectory) := by
  cases isDirectory with
  | false => exact clean_normalChars_file cs
  | true =>
    rcases normalChars_directory cs with ⟨hnil, -⟩ | ⟨hcons, hne⟩
    · rw [hnil]
      exact ⟨by simp, by simp⟩
    · have hbody := clean_of_isPrefix (withoutSlashesBehind_isPrefix _) (clean_normalChars_file cs)
      rw [hcons]
      refine ⟨by simpa using hbody.backslash, ?_⟩
      rw [List.head?_append_of_ne_nil _ hne]
      exact hbody.front

theorem Clean.normalChars_file {cs : List Char} (h : Clean cs) : normalChars cs false = cs := by
  have hmap : cs.map slashed = cs := by
    have hsame : cs.map slashed = cs.map id := List.map_congr_left fun c hc => by
      have hne : c ≠ '\\' := fun heq => h.backslash (heq ▸ hc)
      rw [slashed, if_neg (by simpa using hne), id]
    rw [hsame, List.map_id]
  rw [Archive.normalChars_file, hmap, List.dropWhile_eq_self_iff]
  intro hlen hhead
  refine h.front ?_
  rw [List.head?_eq_getElem?, List.getElem?_eq_getElem hlen, beq_iff_eq.mp hhead]

/-- The canonical path of a path depends on that of a file with this path. -/
theorem normalChars_congr {cs ds : List Char} (h : normalChars cs false = normalChars ds false)
    (isDirectory : Bool) : normalChars cs isDirectory = normalChars ds isDirectory := by
  cases isDirectory with
  | false => exact h
  | true =>
    rcases normalChars_directory cs with ⟨hcs, hbody⟩ | ⟨hcs, hbody⟩ <;>
      rcases normalChars_directory ds with ⟨hds, hbody'⟩ | ⟨hds, hbody'⟩
    · rw [hcs, hds]
    · exact absurd (h ▸ hbody) hbody'
    · exact absurd (h ▸ hbody') hbody
    · rw [hcs, hds, h]

/-- A canonical path has itself as its canonical path. -/
theorem normalChars_normalChars (cs : List Char) (isDirectory : Bool) :
    normalChars (normalChars cs isDirectory) isDirectory = normalChars cs isDirectory := by
  have hclean := (clean_normalChars cs isDirectory).normalChars_file
  cases isDirectory with
  | false => exact hclean
  | true =>
    have hlast := getLast?_withoutSlashesBehind (normalChars cs false)
    rcases normalChars_directory cs with ⟨hcs, -⟩ | ⟨hcs, hne⟩
    · rw [hcs]
      rfl
    · rw [hcs] at hclean ⊢
      rcases normalChars_directory (withoutSlashesBehind (normalChars cs false) ++ ['/']) with
        ⟨-, hnil⟩ | ⟨hagain, -⟩
      · rw [hclean, withoutSlashesBehind_concat, withoutSlashesBehind_of_getLast? hlast] at hnil
        exact absurd hnil hne
      · rw [hagain, hclean, withoutSlashesBehind_concat, withoutSlashesBehind_of_getLast? hlast]

theorem getLast?_normalChars_directory {cs : List Char} (hne : normalChars cs true ≠ []) :
    (normalChars cs true).getLast? = some '/' := by
  rcases normalChars_directory cs with ⟨hnil, -⟩ | ⟨hcs, -⟩
  · exact absurd hnil hne
  · rw [hcs, List.getLast?_concat]

/-- What ends a path also ends its canonical form. -/
theorem getLast?_normalChars_file {cs : List Char}
    (h : ∀ c ∈ cs.getLast?, c ≠ '/' ∧ c ≠ '\\') : (normalChars cs false).getLast? ≠ some '/' := by
  intro hlast
  obtain ⟨front, hfront⟩ := List.dropWhile_suffix (l := cs.map slashed) (· == '/')
  have hmap : (cs.map slashed).getLast? = some '/' := by
    rw [← hfront, List.getLast?_append, ← normalChars_file, hlast, Option.some_or]
  rw [List.getLast?_map, Option.map_eq_some_iff] at hmap
  obtain ⟨c, hc, hslash⟩ := hmap
  obtain ⟨hne, hne'⟩ := h c hc
  rw [slashed, if_neg (by simpa using hne')] at hslash
  exact hne hslash

/-! ## Spellings -/

theorem normalChars_slashes (n : Nat) (cs : List Char) :
    normalChars (List.replicate n '/' ++ cs) false = normalChars cs false := by
  induction n with
  | zero => rfl
  | succ n ih =>
    rw [List.replicate_succ, List.cons_append, ← ih]
    rfl

/-- One path with some of its slashes as backslashes. -/
def Backslashed (cs ds : List Char) : Prop :=
  List.Forall₂ (fun c d => d = c ∨ c = '/' ∧ d = '\\') cs ds

theorem normalChars_backslashed {cs ds : List Char} (h : Backslashed cs ds) :
    normalChars cs false = normalChars ds false := by
  have hmap : cs.map slashed = ds.map slashed := by
    induction h with
    | nil => rfl
    | cons hcd _ ih =>
      rw [List.map_cons, List.map_cons, ih]
      rcases hcd with rfl | ⟨rfl, rfl⟩ <;> rfl
  rw [normalChars_file, normalChars_file, hmap]

/-! ## Directories around a path -/

/-- The path `d` ends with a slash and is a beginning of `p` without the slashes behind it. -/
structure Encloses (d p : List Char) : Prop where
  slash : d.getLast? = some '/'
  begins : d <+: withoutSlashesBehind p

theorem mem_directoriesOf_cons {c : Char} {cs d : List Char} :
    d ∈ directoriesOf (c :: cs) ↔ (c = '/' ∧ d = ['/']) ∨ ∃ e ∈ directoriesOf cs, d = c :: e := by
  have hdeeper : d ∈ (directoriesOf cs).map (c :: ·) ↔ ∃ e ∈ directoriesOf cs, d = c :: e := by
    simp only [List.mem_map, eq_comm]
  simp only [directoriesOf]
  split
  · rename_i hc
    subst hc
    rw [List.mem_cons, hdeeper]
    simp
  · rename_i hc
    rw [hdeeper]
    simp [hc]

theorem mem_directoriesOf {cs d : List Char} :
    d ∈ directoriesOf cs ↔ d.getLast? = some '/' ∧ d <+: cs := by
  induction cs generalizing d with
  | nil =>
    simp only [directoriesOf, List.not_mem_nil, List.prefix_nil, false_iff, not_and]
    rintro hlast rfl
    simp at hlast
  | cons c cs ih =>
    rw [mem_directoriesOf_cons]
    constructor
    · rintro (⟨rfl, rfl⟩ | ⟨e, he, rfl⟩)
      · exact ⟨rfl, List.cons_prefix_cons.mpr ⟨rfl, List.nil_prefix⟩⟩
      · obtain ⟨hlast, hbegins⟩ := ih.mp he
        exact ⟨by rw [List.getLast?_cons, hlast]; rfl, List.cons_prefix_cons.mpr ⟨rfl, hbegins⟩⟩
    · rintro ⟨hlast, hbegins⟩
      cases d with
      | nil => simp at hlast
      | cons x d =>
        obtain ⟨rfl, hrest⟩ := List.cons_prefix_cons.mp hbegins
        by_cases hd : d = []
        · subst hd
          obtain rfl : x = '/' := by simpa using hlast
          exact .inl ⟨rfl, rfl⟩
        · rw [List.getLast?_cons_of_ne_nil hd] at hlast
          exact .inr ⟨d, ih.mpr ⟨hlast, hrest⟩, rfl⟩

theorem mem_parents {d p : String} : d ∈ parents p ↔ Encloses d.toList p.toList := by
  rw [parents, List.mem_map]
  constructor
  · rintro ⟨e, he, rfl⟩
    rw [String.toList_ofList]
    exact ⟨(mem_directoriesOf.mp he).1, (mem_directoriesOf.mp he).2⟩
  · intro h
    exact ⟨d.toList, mem_directoriesOf.mpr ⟨h.slash, h.begins⟩, String.ofList_toList⟩

namespace Encloses

variable {d p : List Char}

theorem trans {a b c : List Char} (h : Encloses a b) (h' : Encloses b c) : Encloses a c :=
  ⟨h.slash, h.begins.trans ((withoutSlashesBehind_isPrefix b).trans h'.begins)⟩

theorem clean (h : Encloses d p) (hp : Clean p) : Clean d :=
  clean_of_isPrefix (h.begins.trans (withoutSlashesBehind_isPrefix p)) hp

/-- The canonical path of a directory around a path is one around it too. -/
theorem normalChars (h : Encloses d p) (hp : Clean p) : Encloses (normalChars d true) p := by
  have hclean := h.clean hp
  have hne : d ≠ [] := by
    rintro rfl
    simpa using h.slash
  rcases normalChars_directory d with ⟨-, hnil⟩ | ⟨hd, -⟩
  · rw [hclean.normalChars_file] at hnil
    exact absurd hnil (hclean.withoutSlashesBehind_ne_nil hne)
  · rw [hd, hclean.normalChars_file]
    exact ⟨List.getLast?_concat, (withoutSlashesBehind_concat_isPrefix h.slash).trans h.begins⟩

end Encloses

end Archive
end ClassRelabel
