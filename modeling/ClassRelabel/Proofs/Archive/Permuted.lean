/-
Relabelling does not look at the order of the entries.

The order could show in three places: in which class is known under a name, in how the mappings are
completed, and in the listing.  Where names are distinct and no class is its own supertype it shows
in none of them: the same classes are known (`known_perm`), so the mappings are completed alike
(`completed_perm`), and the listing is in order anyway (`Listing.perm`).  Every entry then becomes
the same wherever it stands, and the archive follows the order of its input.
-/
import Mathlib.Data.Fin.VecNotation
import Mathlib.Data.List.FinRange
import ClassRelabel.Proofs.Archive.Relabel
import ClassRelabel.Proofs.Archive.Reproducible
import ClassRelabel.Proofs.Hierarchy.Result

namespace ClassRelabel

open scoped List

/-! ## The classes that are known -/

namespace Hierarchy

/-- Of the shapes that are given for a name, the first is known, unless one was known before. -/
theorem class?_foldl_insert (found : List ClassShape) (h : Hierarchy) (n : String) :
    (found.foldl insert h).class? n = (h.class? n).or (found.find? (·.name = n)) := by
  induction found generalizing h with
  | nil => simp
  | cons c found ih =>
    have hinsert : (h.insert c).class? n = (h.class? n).or (if c.name = n then some c else none) :=
      getElem?_insertIfNew h.classes c.name n c
    rw [List.foldl_cons, ih, hinsert, Option.or_assoc, List.find?_cons]
    by_cases hname : c.name = n
    · simp [hname]
    · simp [hname]

theorem ext_class? {h h' : Hierarchy} (hsame : ∀ n, h.class? n = h'.class? n) : h = h' := by
  have hclasses : h.classes = h'.classes := Std.ExtTreeMap.ext_getElem? hsame
  cases h
  cases h'
  exact congrArg Hierarchy.mk hclasses

end Hierarchy

namespace ClassShape

variable {found found' : List ClassShape}

theorem find?_name_eq_some (hnames : (found.map name).Nodup) {n : String} {c : ClassShape} :
    found.find? (·.name = n) = some c ↔ c ∈ found ∧ c.name = n := by
  constructor
  · intro hfind
    exact ⟨List.mem_of_find?_eq_some hfind, by simpa using List.find?_some hfind⟩
  · rintro ⟨hc, rfl⟩
    have hsome : (found.find? (·.name = c.name)).isSome := by
      rw [List.find?_isSome]
      exact ⟨c, hc, by simp⟩
    obtain ⟨c', hfind⟩ := Option.isSome_iff_exists.mp hsome
    have hname : c'.name = c.name := by simpa using List.find?_some hfind
    rw [hfind, List.inj_on_of_nodup_map hnames (List.mem_of_find?_eq_some hfind) hc hname]

/-- Where every name is there once, the first of a name is the one of that name. -/
theorem find?_name_perm (hperm : found ~ found') (hnames : (found.map name).Nodup) (n : String) :
    found'.find? (·.name = n) = found.find? (·.name = n) := by
  have hnames' : (found'.map name).Nodup := (hperm.map name).nodup_iff.mp hnames
  refine Option.ext fun c => ?_
  rw [find?_name_eq_some hnames, find?_name_eq_some hnames', hperm.mem_iff]

end ClassShape

namespace Archive

variable {m : Mappings} {d : Option Dictionary} {lists : Bool}
variable {input input' libraries out : List ArchiveEntry}

theorem known_perm (hperm : input ~ input')
    (hnames : ((shapes input).map ClassShape.name).Nodup) :
    known input' libraries = known input libraries := by
  have hshapes : shapes input ~ shapes input' := hperm.filterMap shapeOf?
  refine Hierarchy.ext_class? fun n => ?_
  rw [known, known, Hierarchy.class?_foldl_insert, Hierarchy.class?_foldl_insert,
    List.find?_append, List.find?_append, ClassShape.find?_name_perm hshapes hnames]

theorem completed_perm (hperm : input ~ input')
    (hnames : ((shapes input).map ClassShape.name).Nodup) (hac : (known input libraries).Acyclic) :
    completed m input' libraries = completed m input libraries := by
  have hshapes : shapes input ~ shapes input' := hperm.filterMap shapeOf?
  rw [completed, completed, known_perm hperm hnames]
  exact Mappings.complete_congr hac fun n => (hshapes.map ClassShape.name).symm.mem_iff

/-! ## What comes out -/

/-- The listing has the names in order, whatever order they come in. -/
theorem Listing.perm {names names' : List ParameterNames} {listing : List ArchiveEntry}
    (h : Listing lists names listing) (hperm : names ~ names') : Listing lists names' listing := by
  cases h with
  | none h => exact .none (h.imp_right fun hempty => (hempty ▸ hperm).nil_eq.symm)
  | file h hne hlisted hsorted =>
    refine .file h (fun hempty => hne ?_) (hlisted.trans hperm) hsorted
    exact (hempty ▸ hperm).eq_nil

theorem exists_becomes {M : Mappings} {new : List (ArchiveEntry × List ParameterNames)}
    (hnew : List.Forall₂ (Becomes M d) input new) :
    ∃ f : ArchiveEntry → ArchiveEntry × List ParameterNames,
      (∀ e ∈ input, Becomes M d e (f e)) ∧ new = input.map f := by
  classical
  have hsome : ∀ e ∈ input, ∃ r, Becomes M d e r := fun e he => by
    obtain ⟨r, -, hr⟩ := hnew.exists_of_mem_left he
    exact ⟨r, hr⟩
  choose! f hf using hsome
  refine ⟨f, hf, ?_⟩
  induction hnew with
  | nil => rfl
  | cons hr _ ih =>
    obtain ⟨hhead, htail⟩ := List.forall_mem_cons.mp hf
    rw [List.map_cons, hr.unique hhead, ih htail]

theorem filePaths_perm {entries other : List ArchiveEntry} (hperm : entries ~ other) :
    filePaths entries ~ filePaths other :=
  (hperm.filter _).map _

/-- One rule for every order: what each entry becomes, and the listing. -/
theorem relabel_perm (hnames : ((shapes input).map ClassShape.name).Nodup)
    (hac : (known input libraries).Acyclic) (hout : relabel m d lists input libraries = .ok out) :
    ∃ (f : ArchiveEntry → ArchiveEntry × List ParameterNames) (names : List ParameterNames)
      (listing : List ArchiveEntry), Listing lists names listing ∧
      (∀ e ∈ input, Becomes (completed m input libraries) d e (f e)) ∧
      ∀ input', input ~ input' →
        relabel m d lists input' libraries = .ok (input'.map (fun e => (f e).1) ++ listing) := by
  obtain ⟨hall, new, listing, hnew, hlisting, rfl, hpaths⟩ := relabel_eq_ok.mp hout
  obtain ⟨f, hf, rfl⟩ := exists_becomes hnew
  refine ⟨f, _, listing, hlisting, hf, fun input' hperm => relabel_eq_ok.mpr ?_⟩
  have hentries := (hperm.map f).map Prod.fst
  refine ⟨fun e he => hall e (hperm.mem_iff.mpr he), input'.map f, listing, ?_, ?_, ?_, ?_⟩
  · rw [completed_perm hperm hnames hac, List.forall₂_map_right_iff, List.forall₂_same]
    exact fun e he => hf e (hperm.mem_iff.mpr he)
  · exact hlisting.perm ((hperm.map f).flatMap_right Prod.snd)
  · rw [List.map_map]
    rfl
  · rw [← Function.comp_def Prod.fst f, ← List.map_map]
    exact (filePaths_perm (hentries.append_right listing)).nodup_iff.mp hpaths

/-! ## The canonical form of what comes out -/

/-- A class has no path that ends in a separator, whatever its name. -/
theorem getLast?_renamedPath (path formerName name : String) :
    (renamedPath path formerName name).toList.getLast? = some 's' := by
  rw [renamedPath, String.toList_append]
  exact List.getLast?_append_of_ne_nil _ (by decide)

theorem Becomes.eq_or_getLast? {M : Mappings} {e : ArchiveEntry}
    {r : ArchiveEntry × List ParameterNames} (h : Becomes M d e r) (hr : r.1.isDirectory = false) :
    r.1 = e ∧ e.isDirectory = false ∨ r.1.path.toList.getLast? = some 's' := by
  cases h with
  | same _ => exact .inl ⟨rfl, hr⟩
  | relabelled _ _ => exact .inr (getLast?_renamedPath _ _ _)

theorem Listing.path_eq {names : List ParameterNames} {listing : List ArchiveEntry}
    (h : Listing lists names listing) : ∀ e ∈ listing, e.path = listingPath := by
  cases h with
  | none _ => simp
  | file _ _ _ _ => simp

theorem filesNamed_relabel {M : Mappings} {f : ArchiveEntry → ArchiveEntry × List ParameterNames}
    {names : List ParameterNames} {listing : List ArchiveEntry}
    (hlisting : Listing lists names listing) (hf : ∀ e ∈ input, Becomes M d e (f e))
    (hnamed : FilesNamed input) : FilesNamed (input.map (fun e => (f e).1) ++ listing) := by
  intro r hr hfile c hc
  rcases List.mem_append.mp hr with hr | hr
  · obtain ⟨e, he, rfl⟩ := List.mem_map.mp hr
    rcases (hf e he).eq_or_getLast? hfile with ⟨heq, hfile⟩ | hlast
    · exact hnamed e he hfile c (by rwa [← heq])
    · obtain rfl := Option.some.inj (hlast.symm.trans hc)
      decide
  · rw [hlisting.path_eq r hr] at hc
    obtain rfl : 't' = c := Option.some.inj hc
    decide

/-! ## The whole archive -/

/-- Where every known name is there once and no class is its own supertype, an archive is relabelled
in every order or in none.  The result follows the order of the input, with the same listing behind
it, and in every order it has the same canonical form, if it has one. -/
theorem relabel_permuted (m : Mappings) (d : Option Dictionary) (lists : Bool)
    (libraries : List ArchiveEntry) {n : Nat} (a : Fin n → ArchiveEntry)
    (hnames : ((shapes (List.ofFn a)).map ClassShape.name).Nodup)
    (hac : (known (List.ofFn a) libraries).Acyclic) (σ : Equiv.Perm (Fin n)) :
    (∃ (b : Fin n → ArchiveEntry) (names : List ParameterNames) (listing : List ArchiveEntry),
      Listing lists names listing ∧
      relabel m d lists (List.ofFn a) libraries = .ok (List.ofFn b ++ listing) ∧
      relabel m d lists (List.ofFn (a ∘ σ)) libraries = .ok (List.ofFn (b ∘ σ) ++ listing) ∧
      (FilesNamed (List.ofFn a) →
        (∃ p q, canonical (List.ofFn b ++ listing) = .error (.duplicateEntry p) ∧
          canonical (List.ofFn (b ∘ σ) ++ listing) = .error (.duplicateEntry q)) ∨
        ∃ out, canonical (List.ofFn b ++ listing) = .ok out ∧
          canonical (List.ofFn (b ∘ σ) ++ listing) = .ok out)) ∨
    ∃ fault fault', relabel m d lists (List.ofFn a) libraries = .error fault ∧
      relabel m d lists (List.ofFn (a ∘ σ)) libraries = .error fault' := by
  have hperm : List.ofFn (a ∘ σ) ~ List.ofFn a := Equiv.Perm.ofFn_comp_perm σ a
  cases hrun : relabel m d lists (List.ofFn a) libraries with
  | ok out =>
    obtain ⟨f, names, listing, hlisting, hf, hall⟩ := relabel_perm hnames hac hrun
    have hentries : ∀ g : Fin n → ArchiveEntry,
        (List.ofFn g).map (fun e => (f e).1) = List.ofFn fun i => (f (g i)).1 :=
      fun _ => List.map_ofFn
    have hsame : .ok out = relabel m d lists (List.ofFn a) libraries := hrun.symm
    rw [hall _ (.refl _), hentries] at hsame
    refine .inl ⟨fun i => (f (a i)).1, names, listing, hlisting, hsame, ?_, fun hnamed => ?_⟩
    · rw [hall _ hperm.symm, hentries]
      rfl
    · have hnamed := filesNamed_relabel hlisting hf hnamed
      rw [hentries] at hnamed
      exact canonical_perm hnamed.apart
        ((Equiv.Perm.ofFn_comp_perm σ fun i => (f (a i)).1).symm.append_right listing)
  | error fault =>
    refine .inr ⟨fault, ?_⟩
    have hnames' : ((shapes (List.ofFn (a ∘ σ))).map ClassShape.name).Nodup :=
      ((hperm.filterMap shapeOf?).map ClassShape.name).nodup_iff.mpr hnames
    have hac' : (known (List.ofFn (a ∘ σ)) libraries).Acyclic := by
      rwa [known_perm hperm.symm hnames]
    -- If the other order succeeded, this one would too.
    have hfails : ∀ out, relabel m d lists (List.ofFn (a ∘ σ)) libraries ≠ .ok out := by
      intro out hout
      obtain ⟨_, _, _, _, _, hall⟩ := relabel_perm hnames' hac' hout
      rw [hall _ hperm] at hrun
      simp at hrun
    obtain ⟨fault', hfault'⟩ := exists_error hfails
    exact ⟨fault', rfl, hfault'⟩

/-! ## A class that stands before its supertype -/

namespace Supertype

/-- The class `z/Leaf` extends `a/Base`. -/
def leaf : Bytes :=
  [0xCA, 0xFE, 0xBA, 0xBE, 0, 0, 0, 52, 0, 5, 1, 0, 6, 122, 47, 76, 101, 97, 102, 7, 0, 1,
    1, 0, 6, 97, 47, 66, 97, 115, 101, 7, 0, 3, 0, 0, 0, 2, 0, 4, 0, 0, 0, 0, 0, 0, 0, 0]

def base : Bytes :=
  [0xCA, 0xFE, 0xBA, 0xBE, 0, 0, 0, 52, 0, 3, 1, 0, 6, 97, 47, 66, 97, 115, 101, 7, 0, 1,
    0, 0, 0, 2, 0, 0, 0, 0, 0, 0, 0, 0, 0, 0]

def entries : Fin 3 → ArchiveEntry :=
  ![⟨"z/Leaf.class", .file leaf, none⟩, ⟨"a/Base.class", .file base, none⟩,
    ⟨"a\\notes", .file [1], none⟩]

theorem nodup_names : ((shapes (List.ofFn entries)).map ClassShape.name).Nodup := by
  decide +kernel

theorem acyclic : (known (List.ofFn entries) []).Acyclic :=
  Chain.acyclic_of_rank (by decide +kernel)

end Supertype

theorem relabel_permuted_supertype : FilesNamed (List.ofFn Supertype.entries) ∧
    ((shapes (List.ofFn Supertype.entries)).map ClassShape.name).Nodup ∧
    (known (List.ofFn Supertype.entries) []).Acyclic ∧
    ∃ (b : Fin 3 → ArchiveEntry) (listing : List ArchiveEntry),
      relabel Chain.mappings none true (List.ofFn Supertype.entries) [] =
        .ok (List.ofFn b ++ listing) ∧
      relabel Chain.mappings none true (List.ofFn (Supertype.entries ∘ Equiv.swap 0 1)) [] =
        .ok (List.ofFn (b ∘ Equiv.swap 0 1) ++ listing) ∧
      ((∃ p q, canonical (List.ofFn b ++ listing) = .error (.duplicateEntry p) ∧
          canonical (List.ofFn (b ∘ Equiv.swap 0 1) ++ listing) = .error (.duplicateEntry q)) ∨
        ∃ out, canonical (List.ofFn b ++ listing) = .ok out ∧
          canonical (List.ofFn (b ∘ Equiv.swap 0 1) ++ listing) = .ok out) := by
  have hnamed : FilesNamed (List.ofFn Supertype.entries) := by decide +kernel
  have hsucceeds : (relabel Chain.mappings none true (List.ofFn Supertype.entries) []).isOk := by
    decide +kernel
  refine ⟨hnamed, Supertype.nodup_names, Supertype.acyclic, ?_⟩
  rcases relabel_permuted Chain.mappings none true [] Supertype.entries Supertype.nodup_names
    Supertype.acyclic (Equiv.swap 0 1) with
    ⟨b, _, listing, -, hrun, hswapped, hcanonical⟩ | ⟨fault, _, hfails, -⟩
  · exact ⟨b, listing, hrun, hswapped, hcanonical hnamed⟩
  · rw [hfails] at hsucceeds
    exact absurd hsucceeds (by simp [Except.isOk, Except.toBool])

/-! ## A backslash at the end of a file

The file and the directory have one canonical path.  The file is refused if the directory is there
first, and it hides the directory otherwise.  Two files with one canonical path are refused in every
order, though they are relabelled. -/

def backslashed : Fin 2 → ArchiveEntry := ![⟨"a\\", .file [1], none⟩, ⟨"a", .directory, none⟩]

/-- If only a slash is kept from the end of a file, one order can have a canonical form and the
other none.  If a backslash is kept from it too, there can still be none for both. -/
theorem not_canonical_permuted :
    (¬∀ (m : Mappings) (d : Option Dictionary) (lists : Bool) (libraries : List ArchiveEntry)
      (n : Nat) (a : Fin n → ArchiveEntry) (σ : Equiv.Perm (Fin n)),
      ((shapes (List.ofFn a)).map ClassShape.name).Nodup →
      (known (List.ofFn a) libraries).Acyclic →
      (∀ i, (a i).isDirectory = false → (a i).path.toList.getLast? ≠ some '/') →
      ∀ out out', relabel m d lists (List.ofFn a) libraries = .ok out →
        relabel m d lists (List.ofFn (a ∘ σ)) libraries = .ok out' →
        (∃ archive, canonical out = .ok archive ∧ canonical out' = .ok archive) ∨
          ∃ fault fault', canonical out = .error fault ∧ canonical out' = .error fault') ∧
    FilesNamed doubled ∧ relabel .empty none false doubled [] = .ok doubled ∧
      relabel .empty none false doubled.reverse [] = .ok doubled.reverse ∧
      canonical doubled = .error (.duplicateEntry "a/x") ∧
      canonical doubled.reverse = .error (.duplicateEntry "a/x") := by
  refine ⟨fun h => ?_, by decide +kernel, by decide +kernel, by decide +kernel, by decide +kernel,
    by decide +kernel⟩
  have hnames : ((shapes (List.ofFn backslashed)).map ClassShape.name).Nodup := by decide +kernel
  have hac : (known (List.ofFn backslashed) []).Acyclic :=
    Chain.acyclic_of_rank (by decide +kernel)
  have hends : ∀ i, (backslashed i).isDirectory = false →
      (backslashed i).path.toList.getLast? ≠ some '/' := by decide +kernel
  have hrun : relabel .empty none false (List.ofFn backslashed) [] =
      .ok (List.ofFn backslashed) := by decide +kernel
  have hswapped : relabel .empty none false (List.ofFn (backslashed ∘ Equiv.swap 0 1)) [] =
      .ok (List.ofFn (backslashed ∘ Equiv.swap 0 1)) := by decide +kernel
  have hok : (canonical (List.ofFn backslashed)).isOk = true := by decide +kernel
  have hfails : canonical (List.ofFn (backslashed ∘ Equiv.swap 0 1)) =
      .error (.duplicateEntry "a/") := by decide +kernel
  rcases h .empty none false [] 2 backslashed (Equiv.swap 0 1) hnames hac hends _ _ hrun hswapped
    with ⟨archive, -, hsame⟩ | ⟨fault, _, hfault, -⟩
  · rw [hfails] at hsame
    simp at hsame
  · rw [hfault] at hok
    simp [Except.isOk, Except.toBool] at hok

end Archive
end ClassRelabel
