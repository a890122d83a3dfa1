/-
What an archive holds after relabelling.

Every entry stays in its place (`Becomes`): a class becomes its relabelled form under the completed
mappings, and any other entry stays as it is.  The names to list follow in one file in order
(`Listing`).  The mappings are completed against the classes that are known from the archive and
then from its libraries (`known`).

`relabel_eq_ok` says exactly when a run succeeds and with what: every class can be read and
relabelled, and no two files end up with one path.
-/
import ClassRelabel.Archive.Relabel
import ClassRelabel.Proofs.Effect
import ClassRelabel.Proofs.TreeMap

namespace ClassRelabel

open Std (ExtTreeSet)
open scoped List

/-! ## What reading says of an entry -/

namespace ClassShape

theorem name_of_ofClass {c : ClassFile} {shape : ClassShape} (h : ofClass c = .ok shape) :
    c.name = .ok shape.name := by
  obtain ⟨name, hname, h⟩ := Except.bind_eq_ok.mp h
  obtain ⟨_, -, h⟩ := Except.bind_eq_ok.mp h
  obtain ⟨_, -, h⟩ := Except.bind_eq_ok.mp h
  obtain ⟨_, -, h⟩ := Except.bind_eq_ok.mp h
  obtain ⟨_, -, h⟩ := Except.bind_eq_ok.mp h
  rw [← Except.pure_eq_ok.mp h]
  exact hname

end ClassShape

namespace Archive

variable {m : Mappings} {d : Option Dictionary} {e : ArchiveEntry} {c : ClassFile}

/-- The entry is a class file that can be parsed, and this is the class. -/
def Holds (e : ArchiveEntry) (c : ClassFile) : Prop :=
  e.isClass = true ∧ ∃ bytes, e.content = .file bytes ∧ ClassFile.parse bytes = .ok c

theorem Holds.unique {c' : ClassFile} (h : Holds e c) (h' : Holds e c') : c = c' := by
  obtain ⟨-, bytes, hcontent, hparse⟩ := h
  obtain ⟨-, bytes', hcontent', hparse'⟩ := h'
  obtain rfl := Content.file.inj (hcontent.symm.trans hcontent')
  exact Except.ok.inj (hparse.symm.trans hparse')

theorem exists_content_of_isClass (h : e.isClass = true) : ∃ bytes, e.content = .file bytes := by
  cases hcontent : e.content with
  | file bytes => exact ⟨bytes, rfl⟩
  | directory => simp [ArchiveEntry.isClass, ArchiveEntry.isDirectory, hcontent,
      Content.isDirectory] at h

theorem classOf?_of_other (h : e.isClass = false) : classOf? e = .ok none := by
  rw [classOf?]
  cases e.content with
  | directory => rfl
  | file bytes => simp [h]

theorem classOf?_of_holds (h : Holds e c) :
    classOf? e = c.name >>= fun name => pure (some (name, c)) := by
  obtain ⟨hclass, bytes, hcontent, hparse⟩ := h
  simp only [classOf?, hcontent, hclass, if_true, hparse]

theorem classOf?_of_broken (h : e.isClass = true) (hnot : ∀ c, ¬Holds e c) :
    ∃ cause, classOf? e = .error (.inClass e.path cause) := by
  obtain ⟨bytes, hcontent⟩ := exists_content_of_isClass h
  cases hparse : ClassFile.parse bytes with
  | ok c => exact absurd ⟨h, bytes, hcontent, hparse⟩ (hnot c)
  | error cause => exact ⟨cause, by simp only [classOf?, hcontent, h, if_true, hparse]⟩

theorem classOf?_eq_ok {o : Option (String × ClassFile)} :
    classOf? e = .ok o ↔ (e.isClass = false ∧ o = none) ∨
      ∃ c name, Holds e c ∧ c.name = .ok name ∧ o = some (name, c) := by
  constructor
  · intro ho
    by_cases hclass : e.isClass = true
    · by_cases hholds : ∃ c, Holds e c
      · obtain ⟨c, hc⟩ := hholds
        rw [classOf?_of_holds hc] at ho
        obtain ⟨name, hname, ho⟩ := Except.bind_eq_ok.mp ho
        exact .inr ⟨c, name, hc, hname, (Except.pure_eq_ok.mp ho).symm⟩
      · obtain ⟨cause, hcause⟩ := classOf?_of_broken hclass fun c hc => hholds ⟨c, hc⟩
        rw [hcause] at ho
        simp at ho
    · rw [Bool.not_eq_true] at hclass
      rw [classOf?_of_other hclass] at ho
      exact .inl ⟨hclass, (Except.ok.inj ho).symm⟩
  · rintro (⟨hclass, rfl⟩ | ⟨c, name, hc, hname, rfl⟩)
    · exact classOf?_of_other hclass
    · rw [classOf?_of_holds hc, hname]
      rfl

/-! ## What is known from classes -/

/-- A class that can be parsed and says what it extends and what members it has. -/
def Readable (e : ArchiveEntry) : Prop :=
  e.isClass = true → ∃ c shape, Holds e c ∧ ClassShape.ofClass c = .ok shape

/-- What the classes of an archive say about themselves, as far as they can be read. -/
def shapes (entries : List ArchiveEntry) : List ClassShape := entries.filterMap shapeOf?

/-- The classes that are known from an archive and its libraries.  The first of a name counts. -/
def known (input libraries : List ArchiveEntry) : Hierarchy :=
  (shapes input ++ shapes libraries).foldl Hierarchy.insert .empty

/-- The mappings that an archive is relabelled under. -/
def completed (m : Mappings) (input libraries : List ArchiveEntry) : Mappings :=
  m.complete (known input libraries) ((shapes input).map ClassShape.name)

theorem shapeOf?_of_other (h : e.isClass = false) : shapeOf? e = none := by
  rw [shapeOf?, classOf?_of_other h]

theorem shapeOf?_of_holds {shape : ClassShape} (hc : Holds e c)
    (hshape : ClassShape.ofClass c = .ok shape) : shapeOf? e = some shape := by
  rw [shapeOf?, classOf?_of_holds hc, ClassShape.name_of_ofClass hshape]
  show (ClassShape.ofClass c).toOption = some shape
  rw [hshape]
  rfl

theorem shapes_cons_of_other (h : e.isClass = false) (entries : List ArchiveEntry) :
    shapes (e :: entries) = shapes entries := by
  rw [shapes, List.filterMap_cons, shapeOf?_of_other h]
  rfl

theorem shapes_cons_of_holds {shape : ClassShape} (hc : Holds e c)
    (hshape : ClassShape.ofClass c = .ok shape) (entries : List ArchiveEntry) :
    shapes (e :: entries) = shape :: shapes entries := by
  rw [shapes, List.filterMap_cons, shapeOf?_of_holds hc hshape]
  rfl

theorem exists_classes {input : List ArchiveEntry} (hall : ∀ e ∈ input, Readable e) :
    ∃ classes, List.Forall₂ (fun e o => classOf? e = .ok o) input classes := by
  induction input with
  | nil => exact ⟨[], .nil⟩
  | cons e input ih =>
    obtain ⟨hreadable, hall⟩ := List.forall_mem_cons.mp hall
    obtain ⟨classes, hclasses⟩ := ih hall
    by_cases hclass : e.isClass = true
    · obtain ⟨c, shape, hc, hshape⟩ := hreadable hclass
      have hsome := classOf?_eq_ok.mpr
        (.inr ⟨c, shape.name, hc, ClassShape.name_of_ofClass hshape, rfl⟩)
      exact ⟨_, .cons hsome hclasses⟩
    · exact ⟨_, .cons (classOf?_of_other (by simpa using hclass)) hclasses⟩

/-- What the classes that a run goes on with say about themselves. -/
theorem mapM_ofClass_eq_ok {input : List ArchiveEntry}
    {classes : List (Option (String × ClassFile))}
    (hclasses : List.Forall₂ (fun e o => classOf? e = .ok o) input classes)
    {found : List ClassShape} :
    ((classes.filterMap id).map Prod.snd).mapM ClassShape.ofClass = .ok found ↔
      (∀ e ∈ input, Readable e) ∧ found = shapes input := by
  induction hclasses generalizing found with
  | nil =>
    show (pure [] : Except Fault (List ClassShape)) = .ok found ↔ _
    rw [Except.pure_eq_ok]
    simp [shapes, eq_comm]
  | @cons e o input classes he _ ih =>
    rw [List.forall_mem_cons]
    rcases classOf?_eq_ok.mp he with ⟨hclass, rfl⟩ | ⟨c, name, hc, hname, rfl⟩
    · have hreadable : Readable e := fun h => by simp [hclass] at h
      rw [List.filterMap_cons, id, ih, shapes_cons_of_other hclass, and_iff_right hreadable]
    · rw [List.filterMap_cons, id, List.map_cons, List.mapM_cons, Except.bind_eq_ok]
      constructor
      · rintro ⟨shape, hshape, h⟩
        obtain ⟨rest, hrest, h⟩ := Except.bind_eq_ok.mp h
        obtain ⟨hall, rfl⟩ := ih.mp hrest
        refine ⟨⟨fun _ => ⟨c, shape, hc, hshape⟩, hall⟩, ?_⟩
        rw [← Except.pure_eq_ok.mp h, shapes_cons_of_holds hc hshape]
      · rintro ⟨⟨hreadable, hall⟩, rfl⟩
        obtain ⟨c', shape, hc', hshape⟩ := hreadable hc.1
        obtain rfl := hc.unique hc'
        refine ⟨shape, hshape, Except.bind_eq_ok.mpr ⟨_, ih.mpr ⟨hall, rfl⟩, ?_⟩⟩
        rw [shapes_cons_of_holds hc hshape]
        rfl

theorem names_eq {input : List ArchiveEntry} {classes : List (Option (String × ClassFile))}
    (hclasses : List.Forall₂ (fun e o => classOf? e = .ok o) input classes)
    (hall : ∀ e ∈ input, Readable e) :
    (classes.filterMap id).map Prod.fst = (shapes input).map ClassShape.name := by
  induction hclasses with
  | nil => rfl
  | @cons e o input classes he _ ih =>
    obtain ⟨hreadable, hall⟩ := List.forall_mem_cons.mp hall
    rcases classOf?_eq_ok.mp he with ⟨hclass, rfl⟩ | ⟨c, name, hc, hname, rfl⟩
    · rw [List.filterMap_cons, id, ih hall, shapes_cons_of_other hclass]
    · obtain ⟨c', shape, hc', hshape⟩ := hreadable hc.1
      obtain rfl := hc.unique hc'
      have hsame := Except.ok.inj (hname.symm.trans (ClassShape.name_of_ofClass hshape))
      rw [List.filterMap_cons, id, List.map_cons, ih hall, shapes_cons_of_holds hc hshape,
        List.map_cons, hsame]

theorem hierarchy_eq_ok {classes : List ClassFile} {libraries : List ArchiveEntry}
    {h : Hierarchy} : hierarchy classes libraries = .ok h ↔
      ∃ found, classes.mapM ClassShape.ofClass = .ok found ∧
        h = (found ++ shapes libraries).foldl Hierarchy.insert .empty := by
  rw [hierarchy, Except.bind_eq_ok]
  refine exists_congr fun found => and_congr_right fun _ => ?_
  rw [Except.pure_eq_ok, eq_comm]
  rfl

/-! ## What becomes of the entries -/

/-- What an entry becomes, and the names to list with it. -/
inductive Becomes (m : Mappings) (d : Option Dictionary) :
    ArchiveEntry → ArchiveEntry × List ParameterNames → Prop
  | same {e : ArchiveEntry} (other : e.isClass = false) : Becomes m d e (e, [])
  | relabelled {e : ArchiveEntry} {c : ClassFile} {new : RelabelledClass} (holds : Holds e c)
      (relabel : c.relabel m d = .ok new) :
      Becomes m d e (⟨renamedPath e.path new.formerName new.name, .file new.bytes, e.modified⟩,
        new.parameterNames)

theorem relabelEntry_eq_ok {o : Option (String × ClassFile)} (ho : classOf? e = .ok o)
    {r : ArchiveEntry × List ParameterNames} :
    relabelEntry m d (e, o) = .ok r ↔ Becomes m d e r := by
  rcases classOf?_eq_ok.mp ho with ⟨hclass, rfl⟩ | ⟨c, name, hc, hname, rfl⟩
  · rw [relabelEntry, Except.ok.injEq]
    constructor
    · rintro rfl
      exact .same hclass
    · rintro (_ | ⟨hc, _⟩)
      · rfl
      · rw [hc.1] at hclass
        simp at hclass
  · rw [relabelEntry]
    constructor
    · intro h
      cases hrelabel : c.relabel m d with
      | error cause => simp [hrelabel] at h
      | ok new =>
        rw [hrelabel] at h
        rw [← Except.ok.inj h]
        exact .relabelled hc hrelabel
    · rintro (hother | ⟨hc', hrelabel⟩)
      · rw [hc.1] at hother
        simp at hother
      · obtain rfl := hc.unique hc'
        rw [hrelabel]

theorem mapM_relabelEntry_eq_ok {input : List ArchiveEntry}
    {classes : List (Option (String × ClassFile))}
    (hclasses : List.Forall₂ (fun e o => classOf? e = .ok o) input classes)
    {new : List (ArchiveEntry × List ParameterNames)} :
    (input.zip classes).mapM (relabelEntry m d) = .ok new ↔
      List.Forall₂ (Becomes m d) input new := by
  rw [Except.mapM_eq_ok]
  induction hclasses generalizing new with
  | nil => simp
  | cons he _ ih =>
    rw [List.zip_cons_cons]
    constructor
    · rintro (_ | ⟨hr, hrest⟩)
      exact .cons ((relabelEntry_eq_ok he).mp hr) (ih.mp hrest)
    · rintro (_ | ⟨hr, hrest⟩)
      exact .cons ((relabelEntry_eq_ok he).mpr hr) (ih.mpr hrest)

/-- An entry becomes one thing only. -/
theorem Becomes.unique {r r' : ArchiveEntry × List ParameterNames} (h : Becomes m d e r)
    (h' : Becomes m d e r') : r = r' := by
  cases h with
  | same hother =>
    cases h' with
    | same _ => rfl
    | relabelled hc _ => simp [hc.1] at hother
  | relabelled hc hrelabel =>
    cases h' with
    | same hother => simp [hc.1] at hother
    | relabelled hc' hrelabel' =>
      obtain rfl := hc.unique hc'
      rw [Except.ok.inj (hrelabel.symm.trans hrelabel')]

/-! ## Paths -/

/-- The paths of the files. -/
def filePaths (entries : List ArchiveEntry) : List String :=
  (entries.filter fun e => !e.isDirectory).map ArchiveEntry.path

theorem checkPaths_eq_ok {seen : ExtTreeSet String compare} {entries : List ArchiveEntry} :
    checkPaths seen entries = .ok () ↔
      (filePaths entries).Nodup ∧ ∀ p ∈ filePaths entries, p ∉ seen := by
  -- The paths seen before are those of the files passed.
  induction entries generalizing seen with
  | nil => simp [checkPaths, filePaths]
  | cons e entries ih =>
    rw [checkPaths]
    cases hdirectory : e.isDirectory with
    | true =>
      have hpaths : filePaths (e :: entries) = filePaths entries := by
        simp [filePaths, hdirectory]
      rw [if_pos rfl, ih, hpaths]
    | false =>
      have hpaths : filePaths (e :: entries) = e.path :: filePaths entries := by
        simp [filePaths, hdirectory]
      rw [hpaths, List.nodup_cons, List.forall_mem_cons]
      by_cases hseen : e.path ∈ seen
      · simp [ExtTreeSet.contains_iff_mem, hseen]
      · rw [if_neg (by simp), if_neg (by simpa [ExtTreeSet.contains_iff_mem] using hseen), ih]
        simp only [ExtTreeSet.mem_insert, Std.LawfulEqCmp.compare_eq_iff_eq, not_or]
        constructor
        · rintro ⟨hnodup, hfresh⟩
          exact ⟨⟨fun hmem => (hfresh _ hmem).1 rfl, hnodup⟩, hseen,
            fun p hp => (hfresh p hp).2⟩
        · rintro ⟨⟨hnew, hnodup⟩, -, hfresh⟩
          exact ⟨hnodup, fun p hp => ⟨fun heq => hnew (heq ▸ hp), hfresh p hp⟩⟩

theorem checkPaths_error {seen : ExtTreeSet String compare} {entries : List ArchiveEntry}
    {fault : Fault} (h : checkPaths seen entries = .error fault) :
    ∃ p, fault = .duplicateEntry p := by
  induction entries generalizing seen with
  | nil => simp [checkPaths] at h
  | cons e entries ih =>
    rw [checkPaths] at h
    split at h
    · exact ih h
    · split at h
      · exact ⟨e.path, (Except.error.inj h).symm⟩
      · exact ih h

/-! ## The listing -/

/-- The entries that follow the others: a file with one line for each of the names, in order, if
they are to be listed and there are any. -/
inductive Listing (lists : Bool) (names : List ParameterNames) : List ArchiveEntry → Prop
  | none (h : lists = false ∨ names = []) : Listing lists names []
  | file {listed : List ParameterNames} (h : lists = true) (nonempty : names ≠ [])
      (perm : listed ~ names)
      (sorted : listed.Pairwise fun a b => (compare (listingKey a) (listingKey b)).isLE = true) :
      Listing lists names
        [⟨listingPath, .file (Utf8.encode (String.join (listed.map fun p => p.line ++ "\n"))),
          none⟩]

theorem listingKey_injective {a b : ParameterNames} (h : listingKey a = listingKey b) : a = b := by
  simp only [listingKey, List.cons.injEq] at h
  obtain ⟨howner, hname, hdescriptor, hnames⟩ := h
  obtain ⟨⟨owner, name, descriptor⟩, names⟩ := a
  obtain ⟨⟨owner', name', descriptor'⟩, names'⟩ := b
  simp only at howner hname hdescriptor hnames
  rw [howner, hname, hdescriptor, hnames]

/-- Names have one order only. -/
theorem eq_of_listed {names names' : List ParameterNames} (hperm : names ~ names')
    (h : names.Pairwise fun a b => (compare (listingKey a) (listingKey b)).isLE = true)
    (h' : names'.Pairwise fun a b => (compare (listingKey a) (listingKey b)).isLE = true) :
    names = names' := by
  refine List.Perm.eq_of_pairwise (fun a b _ _ hab hba => ?_) h h' hperm
  exact listingKey_injective (Std.LawfulEqOrd.eq_of_compare (Std.OrientedCmp.isLE_antisymm hab hba))

theorem pairwise_mergeSort_listingKey (names : List ParameterNames) :
    (names.mergeSort fun a b => (compare (listingKey a) (listingKey b)).isLE).Pairwise
      fun a b => (compare (listingKey a) (listingKey b)).isLE = true := by
  refine List.pairwise_mergeSort (fun a b c hab hbc => ?_) (fun a b => ?_) names
  · have htrans : (compare (listingKey a) (listingKey c)).isLE = true :=
      Std.TransCmp.isLE_trans hab hbc
    exact htrans
  · have hswap : compare (listingKey b) (listingKey a) =
        (compare (listingKey a) (listingKey b)).swap := Std.OrientedCmp.eq_swap
    rw [hswap]
    cases compare (listingKey a) (listingKey b) <;> rfl

theorem listing_iff {lists : Bool} {names : List ParameterNames} {listing : List ArchiveEntry} :
    Listing lists names listing ↔
      listing = (if lists then listing? names else none).toList := by
  have hfile : names ≠ [] → listing? names = some ⟨listingPath, .file (Utf8.encode (String.join
      ((names.mergeSort fun a b => (compare (listingKey a) (listingKey b)).isLE).map
        fun p => p.line ++ "\n"))), none⟩ := fun hne => by
    rw [listing?, if_neg (by simpa using hne)]
  constructor
  · rintro (hnone | ⟨hlists, hne, hperm, hsorted⟩)
    · rcases hnone with hlists | hempty
      · rw [if_neg (by simp [hlists])]
        rfl
      · rw [hempty]
        cases lists <;> rfl
    · rw [if_pos hlists, hfile hne]
      rw [eq_of_listed (hperm.trans (List.mergeSort_perm _ _).symm) hsorted
        (pairwise_mergeSort_listingKey names)]
      rfl
  · rintro rfl
    by_cases hlists : lists = true
    · rw [if_pos hlists]
      by_cases hempty : names = []
      · rw [hempty]
        exact .none (.inr rfl)
      · rw [hfile hempty]
        exact .file hlists hempty (List.mergeSort_perm _ _) (pairwise_mergeSort_listingKey names)
    · rw [if_neg hlists]
      exact .none (.inl (by simpa using hlists))

/-! ## The whole archive -/

variable {lists : Bool} {input libraries out : List ArchiveEntry}

theorem relabel_eq (m : Mappings) (d : Option Dictionary) (lists : Bool)
    (input libraries : List ArchiveEntry) : relabel m d lists input libraries =
      input.mapM classOf? >>= fun classes =>
      hierarchy ((classes.filterMap id).map Prod.snd) libraries >>= fun h =>
      (input.zip classes).mapM
        (relabelEntry (m.complete h ((classes.filterMap id).map Prod.fst)) d) >>= fun new =>
      checkPaths ∅ (new.map Prod.fst ++
        (if lists then listing? (new.flatMap Prod.snd) else none).toList) >>= fun _ =>
      pure (new.map Prod.fst ++
        (if lists then listing? (new.flatMap Prod.snd) else none).toList) := rfl

/-- Once every class is read and relabelled, only the paths can still be refused. -/
theorem relabel_of_becomes {new : List (ArchiveEntry × List ParameterNames)}
    {listing : List ArchiveEntry} (hall : ∀ e ∈ input, Readable e)
    (hnew : List.Forall₂ (Becomes (completed m input libraries) d) input new)
    (hlisting : Listing lists (new.flatMap Prod.snd) listing) :
    relabel m d lists input libraries =
      checkPaths ∅ (new.map Prod.fst ++ listing) >>= fun _ =>
        pure (new.map Prod.fst ++ listing) := by
  obtain ⟨classes, hclasses⟩ := exists_classes hall
  have hfound := (mapM_ofClass_eq_ok hclasses).mpr ⟨hall, rfl⟩
  obtain rfl := listing_iff.mp hlisting
  rw [← mapM_relabelEntry_eq_ok hclasses] at hnew
  rw [relabel_eq, Except.mapM_eq_ok.mpr hclasses]
  show hierarchy ((classes.filterMap id).map Prod.snd) libraries >>= _ = _
  rw [hierarchy_eq_ok.mpr ⟨_, hfound, rfl⟩, names_eq hclasses hall]
  show (input.zip classes).mapM (relabelEntry (completed m input libraries) d) >>= _ = _
  rw [hnew]
  rfl

/-- A run succeeds exactly if every class can be read and relabelled and no path is there twice. -/
theorem relabel_eq_ok : relabel m d lists input libraries = .ok out ↔
    (∀ e ∈ input, Readable e) ∧ ∃ new listing,
      List.Forall₂ (Becomes (completed m input libraries) d) input new ∧
      Listing lists (new.flatMap Prod.snd) listing ∧ out = new.map Prod.fst ++ listing ∧
      (filePaths out).Nodup := by
  constructor
  · intro h
    rw [relabel_eq] at h
    obtain ⟨classes, hclasses, h⟩ := Except.bind_eq_ok.mp h
    obtain ⟨hierarchy, hhierarchy, h⟩ := Except.bind_eq_ok.mp h
    obtain ⟨new, hnew, h⟩ := Except.bind_eq_ok.mp h
    obtain ⟨⟨⟩, hpaths, h⟩ := Except.bind_eq_ok.mp h
    obtain rfl := Except.pure_eq_ok.mp h
    have hclasses := Except.mapM_eq_ok.mp hclasses
    obtain ⟨found, hfound, rfl⟩ := hierarchy_eq_ok.mp hhierarchy
    obtain ⟨hall, rfl⟩ := (mapM_ofClass_eq_ok hclasses).mp hfound
    rw [names_eq hclasses hall] at hnew
    exact ⟨hall, new, _, (mapM_relabelEntry_eq_ok hclasses).mp hnew, listing_iff.mpr rfl, rfl,
      (checkPaths_eq_ok.mp hpaths).1⟩
  · rintro ⟨hall, new, listing, hnew, hlisting, rfl, hpaths⟩
    rw [relabel_of_becomes hall hnew hlisting, checkPaths_eq_ok.mpr ⟨hpaths, by simp⟩]
    rfl

theorem exists_error (h : ∀ out, relabel m d lists input libraries ≠ .ok out) :
    ∃ fault, relabel m d lists input libraries = .error fault := by
  cases hrun : relabel m d lists input libraries with
  | error fault => exact ⟨fault, rfl⟩
  | ok out => exact absurd hrun (h out)

/-- A relabelled archive has the entries in their places, each as what it becomes under the
completed mappings, and behind them the listing; no two of its files have the same path.  There is
no such archive if a class cannot be read or relabelled or if two files would have the same path. -/
theorem entries_of_relabel (m : Mappings) (d : Option Dictionary) (lists : Bool)
    (input libraries : List ArchiveEntry) :
    (∀ out, relabel m d lists input libraries = .ok out ↔
      (∀ e ∈ input, Readable e) ∧ ∃ new listing,
        List.Forall₂ (Becomes (completed m input libraries) d) input new ∧
        Listing lists (new.flatMap Prod.snd) listing ∧ out = new.map Prod.fst ++ listing ∧
        (filePaths out).Nodup) ∧
    (∀ e ∈ input, e.isClass = true → (∀ c, ¬Holds e c) →
      ∃ fault, relabel m d lists input libraries = .error fault) ∧
    (∀ e ∈ input, ∀ c cause, Holds e c →
      c.relabel (completed m input libraries) d = .error cause →
      ∃ fault, relabel m d lists input libraries = .error fault) ∧
    (∀ new listing, List.Forall₂ (Becomes (completed m input libraries) d) input new →
      Listing lists (new.flatMap Prod.snd) listing →
      ¬(filePaths (new.map Prod.fst ++ listing)).Nodup →
      ∃ fault, relabel m d lists input libraries = .error fault ∧
        ((∀ e ∈ input, Readable e) → ∃ p, fault = .duplicateEntry p)) := by
  refine ⟨fun out => relabel_eq_ok, fun e he hclass hnot => ?_, fun e he c cause hc hcause => ?_,
    fun new listing hnew hlisting hpaths => ?_⟩
  · refine exists_error fun out hout => ?_
    obtain ⟨c, -, hc, -⟩ := (relabel_eq_ok.mp hout).1 e he hclass
    exact hnot c hc
  · refine exists_error fun out hout => ?_
    obtain ⟨-, new, -, hnew, -⟩ := relabel_eq_ok.mp hout
    obtain ⟨r, -, hr⟩ := hnew.exists_of_mem_left he
    cases hr with
    | same hother => simp [hc.1] at hother
    | relabelled hc' hrelabel =>
      rw [hc.unique hc', hrelabel] at hcause
      simp at hcause
  · by_cases hall : ∀ e ∈ input, Readable e
    · rw [relabel_of_becomes hall hnew hlisting]
      cases hcheck : checkPaths ∅ (new.map Prod.fst ++ listing) with
      | ok => exact absurd (checkPaths_eq_ok.mp hcheck).1 hpaths
      | error fault => exact ⟨fault, rfl, fun _ => checkPaths_error hcheck⟩
    · have hfails : ∀ out, relabel m d lists input libraries ≠ .ok out := fun out hout =>
        hall (relabel_eq_ok.mp hout).1
      obtain ⟨fault, hfault⟩ := exists_error hfails
      exact ⟨fault, hfault, fun hreadable => absurd hreadable hall⟩

end Archive
end ClassRelabel
