/-
Where the classes of a relabelled archive stand.

What a path has in front of the name of its class stays in front of the new name
(`renamedPath_append`), so a directory for another release is kept.  Nothing is kept of a path that
does not end with the name of its class (`renamedPath_of_ne`).  But the front is found by its
characters alone, and it need not end where a directory does: the name of a class can be the end of
a longer file name.  Where no front does that, whole directories are kept and nothing else
(`keepsDirectories_of_relabel`).
-/
import ClassRelabel.Proofs.Archive.Relabel
import ClassRelabel.Proofs.Hierarchy.Extension

namespace ClassRelabel

/-- The name that a class had, and the one that the mappings give it. -/
theorem ClassFile.names_of_relabel {c : ClassFile} {m : Mappings} {d : Option Dictionary}
    {new : RelabelledClass} (h : c.relabel m d = .ok new) :
    c.name = .ok new.formerName ∧ new.name = m.renameClass new.formerName := by
  obtain ⟨owner, howner, h⟩ := Except.bind_eq_ok.mp h
  obtain ⟨_, -, h⟩ := Except.bind_eq_ok.mp h
  obtain ⟨_, -, h⟩ := Except.bind_eq_ok.mp h
  rw [← Except.pure_eq_ok.mp h]
  exact ⟨howner, rfl⟩

namespace Archive

variable {m : Mappings} {d : Option Dictionary} {lists : Bool}
  {input libraries out : List ArchiveEntry} {front front' path former name : String}

/-! ## Paths -/

/-- The front of a path that ends with a directory, or nothing. -/
def IsWhole (front : String) : Prop := front = "" ∨ front.toList.getLast? = some '/'

instance (front : String) : Decidable (IsWhole front) :=
  inferInstanceAs (Decidable (_ ∨ _))

theorem append_class_inj :
    front ++ name ++ ".class" = front' ++ name ++ ".class" ↔ front = front' := by
  simp [← String.toList_inj]

theorem renamedPath_append (front former name : String) :
    renamedPath (front ++ former ++ ".class") former name = front ++ name ++ ".class" := by
  have hsuffix : (former ++ ".class").toList.isSuffixOf (front ++ former ++ ".class").toList := by
    rw [List.isSuffixOf_iff_suffix]
    exact ⟨front.toList, by simp⟩
  have hfront : (front ++ former ++ ".class").toList.take
      ((front ++ former ++ ".class").toList.length - (former ++ ".class").toList.length) =
        front.toList := by
    rw [String.append_assoc, String.toList_append, List.length_append, Nat.add_sub_cancel,
      List.take_left]
  rw [renamedPath]
  simp only [hsuffix, if_true, hfront, String.ofList_toList]

theorem renamedPath_of_ne (h : ∀ front, path ≠ front ++ former ++ ".class") :
    renamedPath path former name = name ++ ".class" := by
  have hsuffix : ¬(former ++ ".class").toList.isSuffixOf path.toList := by
    rw [List.isSuffixOf_iff_suffix]
    rintro ⟨front, hfront⟩
    refine h (String.ofList front) ?_
    rw [← String.toList_inj, String.append_assoc, String.toList_append, String.toList_ofList,
      hfront]
  rw [renamedPath]
  simp only [hsuffix]
  rfl

/-- The new path has whole directories in front exactly if the path had nothing else there. -/
theorem keepsDirectories_iff :
    (∃ front, IsWhole front ∧ front.toList <+: path.toList ∧
      renamedPath path former name = front ++ name ++ ".class") ↔
      ∀ front, path = front ++ former ++ ".class" → IsWhole front := by
  constructor
  · rintro ⟨front, hwhole, -, hrenamed⟩ front' rfl
    rw [renamedPath_append] at hrenamed
    rwa [append_class_inj.mp hrenamed]
  · intro hall
    by_cases hfront : ∃ front, path = front ++ former ++ ".class"
    · obtain ⟨front, rfl⟩ := hfront
      refine ⟨front, hall front rfl, ?_, renamedPath_append front former name⟩
      rw [String.append_assoc, String.toList_append]
      exact List.prefix_append _ _
    · refine ⟨"", .inl rfl, List.nil_prefix, ?_⟩
      rw [renamedPath_of_ne fun front heq => hfront ⟨front, heq⟩, String.empty_append]

/-! ## Whole archives -/

theorem renameClass_completed (m : Mappings) (input libraries : List ArchiveEntry)
    (name : String) : (completed m input libraries).renameClass name = m.renameClass name :=
  Mappings.renameClass_congr (Mappings.extends_complete _ m _).className name

/-- The path that a class ends up with. -/
theorem exists_renamedPath (h : relabel m d lists input libraries = .ok out) {i : Nat}
    {e : ArchiveEntry} (he : input[i]? = some e) (hclass : e.isClass = true) :
    ∃ c n r, Holds e c ∧ c.name = .ok n ∧ out[i]? = some r ∧
      r.path = renamedPath e.path n (m.renameClass n) := by
  obtain ⟨-, new, listing, hnew, -, rfl, -⟩ := relabel_eq_ok.mp h
  obtain ⟨hi, hget⟩ := List.getElem?_eq_some_iff.mp he
  have hi' : i < new.length := by rwa [← hnew.length_eq]
  have hbecomes := hnew.get hi hi'
  rw [List.get_eq_getElem, List.get_eq_getElem, hget] at hbecomes
  have hplace : (new.map Prod.fst ++ listing)[i]? = some new[i].1 := by
    rw [List.getElem?_append_left (by rwa [List.length_map]), List.getElem?_map,
      List.getElem?_eq_getElem hi', Option.map_some]
  cases hr : new[i] with
  | mk r reports =>
    rw [hr] at hbecomes hplace
    cases hbecomes with
    | same hother => simp [hclass] at hother
    | @relabelled c made hc hrelabel =>
      obtain ⟨hname, hnew⟩ := ClassFile.names_of_relabel hrelabel
      refine ⟨c, made.formerName, _, hc, hname, hplace, ?_⟩
      rw [hnew, renameClass_completed]

/-- In a relabelled archive every class stands in its place under its new name.  If its path ended
with its name, all that was in front stays in front, so a directory there is kept as it is, and
otherwise nothing is kept.  What is kept is whole directories of the path, or nothing, exactly if
the path had no other front. -/
theorem keepsDirectories_of_relabel (h : relabel m d lists input libraries = .ok out) {i : Nat}
    {e : ArchiveEntry} (he : input[i]? = some e) (hclass : e.isClass = true) :
    ∃ c n r, Holds e c ∧ c.name = .ok n ∧ out[i]? = some r ∧
      (∀ front, e.path = front ++ n ++ ".class" → r.path = front ++ m.renameClass n ++ ".class") ∧
      ((∀ front, e.path ≠ front ++ n ++ ".class") → r.path = m.renameClass n ++ ".class") ∧
      ((∃ front, IsWhole front ∧ front.toList <+: e.path.toList ∧
          r.path = front ++ m.renameClass n ++ ".class") ↔
        ∀ front, e.path = front ++ n ++ ".class" → IsWhole front) := by
  obtain ⟨c, n, r, hc, hname, hr, hpath⟩ := exists_renamedPath h he hclass
  refine ⟨c, n, r, hc, hname, hr, fun front hfront => ?_, fun hnone => ?_, ?_⟩
  · rw [hpath, hfront, renamedPath_append]
  · rw [hpath, renamedPath_of_ne hnone]
  · rw [hpath]
    exact keepsDirectories_iff

/-! ### A class for a later release, and a longer file name -/

namespace Releases

/-- The class `a`. -/
def bytes : Bytes :=
  [0xCA, 0xFE, 0xBA, 0xBE, 0, 0, 0, 52, 0, 3, 1, 0, 1, 97, 7, 0, 1, 0, 0, 0, 2, 0, 0, 0, 0, 0, 0,
    0, 0, 0, 0]

/-- The class `net/Foo`. -/
def newBytes : Bytes :=
  [0xCA, 0xFE, 0xBA, 0xBE, 0, 0, 0, 52, 0, 4, 1, 0, 1, 97, 7, 0, 3, 1, 0, 7, 110, 101, 116, 47, 70,
    111, 111, 0, 0, 0, 2, 0, 0, 0, 0, 0, 0, 0, 0, 0, 0]

def mappings : Mappings := Mappings.empty.nameClass "a" "net/Foo"

/-- The class at a path, and what becomes of it. -/
def entry (path : String) : ArchiveEntry := ⟨path, .file bytes, none⟩

def newEntry (path : String) : ArchiveEntry := ⟨path, .file newBytes, none⟩

theorem relabel_release :
    relabel mappings none false [entry "META-INF/versions/9/a.class"] [] =
      .ok [newEntry "META-INF/versions/9/net/Foo.class"] := by decide +kernel

theorem relabel_longFileName : relabel mappings none false [entry "xa.class"] [] =
    .ok [newEntry "xnet/Foo.class"] := by decide +kernel

theorem name_eq {path n : String} {c : ClassFile} (hc : Holds (entry path) c)
    (hn : c.name = .ok n) : n = "a" := by
  obtain ⟨-, _, ⟨⟩, hparse⟩ := hc
  have hname : (ClassFile.parse bytes >>= ClassFile.name) = .ok "a" := by decide +kernel
  rw [hparse] at hname
  exact Except.ok.inj (hn.symm.trans hname)

end Releases

theorem keepsDirectories_of_relabel_release :
    relabel Releases.mappings none false [Releases.entry "META-INF/versions/9/a.class"] [] =
        .ok [Releases.newEntry "META-INF/versions/9/net/Foo.class"] ∧
      (Releases.entry "META-INF/versions/9/a.class").isClass = true ∧
      ∃ front, IsWhole front ∧ front.toList <+: "META-INF/versions/9/a.class".toList ∧
        "META-INF/versions/9/net/Foo.class" =
          front ++ Releases.mappings.renameClass "a" ++ ".class" := by
  have hclass : (Releases.entry "META-INF/versions/9/a.class").isClass = true := by decide +kernel
  obtain ⟨c, n, r, hc, hn, hr, -, -, hwhole⟩ :=
    keepsDirectories_of_relabel (i := 0) Releases.relabel_release rfl hclass
  obtain rfl := Releases.name_eq hc hn
  obtain rfl := Option.some.inj hr
  refine ⟨Releases.relabel_release, hclass, hwhole.mpr fun front hfront => ?_⟩
  have hsame : "META-INF/versions/9/" ++ "a" ++ ".class" = front ++ "a" ++ ".class" := hfront
  obtain rfl := append_class_inj.mp hsame
  decide

/-- A part of a file name is kept, and the class stands where no name leads to. -/
theorem not_keepsDirectories_longFileName :
    relabel Releases.mappings none false [Releases.entry "xa.class"] [] =
        .ok [Releases.newEntry "xnet/Foo.class"] ∧
      ¬∀ (m : Mappings) (d : Option Dictionary) (lists : Bool)
        (input libraries out : List ArchiveEntry),
        relabel m d lists input libraries = .ok out →
        ∀ (i : Nat) (e : ArchiveEntry) (c : ClassFile) (n : String), input[i]? = some e →
          Holds e c → c.name = .ok n → ∃ r front, out[i]? = some r ∧ IsWhole front ∧
            front.toList <+: e.path.toList ∧ r.path = front ++ m.renameClass n ++ ".class" := by
  refine ⟨Releases.relabel_longFileName, fun hall => ?_⟩
  obtain ⟨c, n, -, hc, hn, -⟩ := exists_renamedPath (i := 0) Releases.relabel_longFileName rfl
    (by decide +kernel)
  obtain ⟨r, front, hr, hwhole, -, hpath⟩ := hall _ _ _ _ _ _ Releases.relabel_longFileName 0 _ c n
    rfl hc hn
  obtain rfl := Option.some.inj hr
  obtain rfl := Releases.name_eq hc hn
  have hname : Releases.mappings.renameClass "a" = "net/Foo" := by decide +kernel
  rw [hname] at hpath
  have hsame : "x" ++ "net/Foo" ++ ".class" = front ++ "net/Foo" ++ ".class" := hpath
  obtain rfl := append_class_inj.mp hsame
  exact absurd hwhole (by decide)

end Archive
end ClassRelabel
