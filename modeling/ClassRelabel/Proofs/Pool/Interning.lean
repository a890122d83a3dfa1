/-
Interning finds what it is asked for and moves nothing.

The tables of texts and of names with descriptors are sound when every index they give holds the
text or the pair it is given for.  Interning relies on that, keeps it, and only appends texts and
pairs behind what is there: `Grows` says so, and holds of every pool after against the pool
before.

The three tables are treated as one: `lookup?` is the index they give for a constant, and `intern`
the step that the three ways of interning share.
-/
import ClassRelabel.Proofs.Pool.Layout
import ClassRelabel.Proofs.Pool.Resolve
import ClassRelabel.Proofs.TreeMap

namespace ClassRelabel

open EStateM

/-- The constants that the tables of a pool find. -/
def Constant.isKey : Constant → Bool
  | utf8 _ | classRef _ | nameAndType _ _ => true
  | _ => false

namespace Pool

/-- Every index that the tables give holds what it is given for. -/
structure Sound (p : Pool) : Prop where
  texts : ∀ (s : String) (i : Index), p.texts[s]? = some i → p.slots[i.toNat]? = some (.utf8 s)
  pairs : ∀ (a b i : Index), p.pairs[(a, b)]? = some i →
    p.slots[i.toNat]? = some (.nameAndType a b)

structure WellFormed (p : Pool) : Prop extends WellLaid p, Sound p

/-- `q` is `p` with texts and names with descriptors behind it. -/
structure Grows (p q : Pool) : Prop where
  keeps : Extends p q
  adds : AddsNames p q
  wellFormed : p.WellFormed → q.WellFormed

theorem Grows.refl (p : Pool) : Grows p p := ⟨Extends.refl p, AddsNames.refl p, id⟩

theorem Grows.trans {p q r : Pool} (h : Grows p q) (h' : Grows q r) : Grows p r where
  keeps := h.keeps.trans h'.keeps
  adds := h.adds.trans h'.keeps.revises h'.adds
  wellFormed hp := h'.wellFormed (h.wellFormed hp)

instance : Std.Refl Grows := ⟨Grows.refl⟩

instance : IsTrans Pool Grows := ⟨fun _ _ _ => Grows.trans⟩

variable {c d : Constant} {p q : Pool} {i : Index}

/-! ## The tables as one -/

/-- The index that the tables give for a constant. -/
def lookup? (p : Pool) : Constant → Option Index
  | .utf8 s => p.texts[s]?
  | .classRef name => p.classes[name]?
  | .nameAndType a b => p.pairs[(a, b)]?
  | _ => none

theorem isKey_of_lookup? (h : p.lookup? c = some i) : c.isKey = true := by
  cases c <;> first | rfl | simp [lookup?] at h

theorem lookup?_recordReference (p : Pool) (i : Index) (c d : Constant) :
    (p.recordReference i c).lookup? d =
      (p.lookup? d).or (if d.isKey = true ∧ d.isText = false ∧ c = d then some i else none) := by
  cases c with
  | classRef name =>
    cases d <;> simp [recordReference, lookup?, getElem?_insertIfNew, Constant.isKey,
      Constant.isText]
  | nameAndType a b =>
    cases d <;> simp [recordReference, lookup?, getElem?_insertIfNew, Constant.isKey,
      Constant.isText]
  | _ => cases d <;> simp [recordReference, lookup?, Constant.isKey, Constant.isText]

theorem lookup?_record (p : Pool) (i : Index) (c d : Constant) :
    (p.record i c).lookup? d =
      (p.lookup? d).or (if d.isKey = true ∧ c = d then some i else none) := by
  cases c with
  | utf8 s => cases d <;> simp [record, lookup?, getElem?_insertIfNew, Constant.isKey]
  | _ =>
    show (p.recordReference i _).lookup? d = _
    rw [lookup?_recordReference]
    cases d <;> simp [Constant.isKey, Constant.isText]

theorem lookup?_push (h : push c p = .ok i q) (d : Constant) :
    q.lookup? d = (p.lookup? d).or (if d.isKey = true ∧ c = d then some i else none) := by
  obtain ⟨-, rfl, rfl⟩ := push_eq_ok.mp h
  rw [← lookup?_record]
  cases d <;> rfl

/-! ## Appending -/

theorem extends_push (h : push c p = .ok i q) : Extends p q := by
  intro j d hd
  rw [getElem?_push h, if_pos (lt_size_of_getElem? hd)]
  exact hd

theorem slot_push (h : push c p = .ok i q) : q.slots[i.toNat]? = some c := by
  rw [getElem?_push h, toNat_of_push h, if_neg (Nat.lt_irrefl _), if_pos rfl]

/-- A new entry of a table gives the new index. -/
theorem slot_of_lookup?_push {j : Index} (h : push c p = .ok i q) (hj : q.lookup? d = some j) :
    p.lookup? d = some j ∨ q.slots[j.toNat]? = some d := by
  rw [lookup?_push h] at hj
  rcases Option.or_eq_some_iff.mp hj with hold | ⟨-, hnew⟩
  · exact Or.inl hold
  · split at hnew
    · rename_i hkey
      obtain ⟨-, rfl⟩ := hkey
      obtain rfl := Option.some.inj hnew
      exact Or.inr (slot_push h)
    · simp at hnew

theorem sound_push (h : push c p = .ok i q) (hp : p.Sound) : q.Sound := by
  have hkeep := extends_push h
  constructor
  · intro s j hj
    have hlookup : q.lookup? (.utf8 s) = some j := hj
    rcases slot_of_lookup?_push h hlookup with hold | hnew
    · exact hkeep _ _ (hp.texts s j hold)
    · exact hnew
  · intro a b j hj
    have hlookup : q.lookup? (.nameAndType a b) = some j := hj
    rcases slot_of_lookup?_push h hlookup with hold | hnew
    · exact hkeep _ _ (hp.pairs a b j hold)
    · exact hnew

theorem wellFormed_push (h : push c p = .ok i q) (hc : c.Storable) (hp : p.WellFormed) :
    q.WellFormed :=
  ⟨wellLaid_push h hc hp.toWellLaid, sound_push h hp.toSound⟩

theorem grows_push (h : push c p = .ok i q) (hc : c.isName = true) : Grows p q where
  keeps := extends_push h
  adds j d hn hd := by
    have hw : c.isWide = false := by cases c <;> simp_all [Constant.isName, Constant.isWide]
    rw [getElem?_push h, hw] at hd
    split at hd
    · simp [hn] at hd
    · split at hd
      · rwa [← Option.some.inj hd]
      · simp at hd
  wellFormed := by
    refine wellFormed_push h ⟨?_, ?_⟩
    · rintro rfl
      simp [Constant.isName] at hc
    · rintro bs rfl
      simp [Constant.isName] at hc

theorem wellFormed_empty : WellFormed empty :=
  ⟨wellLaid_empty, ⟨by simp [empty], by simp [empty]⟩⟩

/-! ## Interning -/

/-- Gives the index of a constant from its table, or appends the constant. -/
def intern (c : Constant) : PoolM Index := do
  match (← get).lookup? c with
  | some i => return i
  | none => push c

theorem intern_of_lookup? (h : p.lookup? c = some i) : intern c p = .ok i p := by
  show (match p.lookup? c with
    | some i => pure i
    | none => push c : PoolM Index) p = .ok i p
  rw [h]
  rfl

theorem intern_of_lookup?_none (h : p.lookup? c = none) : intern c p = push c p := by
  show (match p.lookup? c with
    | some i => pure i
    | none => push c : PoolM Index) p = push c p
  rw [h]

theorem intern_eq_ok (h : intern c p = .ok i q) :
    (p.lookup? c = some i ∧ p = q) ∨ (p.lookup? c = none ∧ push c p = .ok i q) := by
  cases hlookup : p.lookup? c with
  | some j =>
    rw [intern_of_lookup? hlookup] at h
    obtain ⟨rfl, rfl⟩ := pure_eq_ok.mp h
    exact Or.inl ⟨rfl, rfl⟩
  | none =>
    rw [intern_of_lookup?_none hlookup] at h
    exact Or.inr ⟨rfl, h⟩

theorem internText_eq_intern (s : String) : internText s = intern (.utf8 s) := rfl

theorem steps_internClass {name : String} :
    internClass name p = .ok i q ↔
      ∃ n p₁, internText name p = .ok n p₁ ∧ intern (.classRef n) p₁ = .ok i q :=
  bind_eq_ok

theorem steps_internPair {name descriptor : String} :
    internPair name descriptor p = .ok i q ↔
      ∃ a p₁ b p₂, internText name p = .ok a p₁ ∧ internText descriptor p₁ = .ok b p₂ ∧
        intern (.nameAndType a b) p₂ = .ok i q := by
  constructor
  · intro h
    obtain ⟨a, p₁, hname, hrest⟩ := bind_eq_ok.mp h
    obtain ⟨b, p₂, hdescriptor, hpair⟩ := bind_eq_ok.mp hrest
    exact ⟨a, p₁, b, p₂, hname, hdescriptor, hpair⟩
  · rintro ⟨a, p₁, b, p₂, hname, hdescriptor, hpair⟩
    exact bind_eq_ok.mpr ⟨a, p₁, hname, bind_eq_ok.mpr ⟨b, p₂, hdescriptor, hpair⟩⟩

theorem keeps_intern (hc : c.isName = true) : Keeps Grows (intern c) := by
  intro p i q h
  rcases intern_eq_ok h with ⟨-, rfl⟩ | ⟨-, hpush⟩
  · exact Grows.refl p
  · exact grows_push hpush hc

theorem keeps_internText (s : String) : Keeps Grows (internText s) := by
  rw [internText_eq_intern]
  exact keeps_intern rfl

theorem keeps_internPair (name descriptor : String) :
    Keeps Grows (internPair name descriptor) := by
  intro p i q h
  obtain ⟨a, p₁, b, p₂, hname, hdescriptor, hpair⟩ := steps_internPair.mp h
  have hgrows := (keeps_internText name p a p₁ hname).trans
    (keeps_internText descriptor p₁ b p₂ hdescriptor)
  exact hgrows.trans (keeps_intern rfl p₂ i q hpair)

/-- The index given for a text holds the text. -/
theorem text_internText {s : String} (h : internText s p = .ok i q) (hp : p.Sound) :
    q.text i = .ok s := by
  rw [internText_eq_intern] at h
  rw [text_eq_ok]
  rcases intern_eq_ok h with ⟨hs, rfl⟩ | ⟨-, hpush⟩
  · exact hp.texts s i hs
  · exact slot_push hpush

/-- The index given for a name with a descriptor holds both. -/
theorem namedType_internPair {name descriptor : String} (h : internPair name descriptor p = .ok i q)
    (hp : p.WellFormed) : q.namedType i = .ok ⟨name, descriptor⟩ := by
  obtain ⟨a, p₁, b, p₂, ha, hb, hlast⟩ := steps_internPair.mp h
  have hp₁ := (keeps_internText name p a p₁ ha).wellFormed hp
  have hgrows := keeps_internText descriptor p₁ b p₂ hb
  have hp₂ := hgrows.wellFormed hp₁
  have hname : p₂.text a = .ok name := hgrows.keeps.text (text_internText ha hp.toSound)
  have hdescriptor : p₂.text b = .ok descriptor := text_internText hb hp₁.toSound
  rcases intern_eq_ok hlast with ⟨hab, rfl⟩ | ⟨-, hpush⟩
  · exact namedType_eq_ok.mpr ⟨a, b, hp₂.pairs a b i hab, hname, hdescriptor⟩
  · have hkeep := extends_push hpush
    exact namedType_eq_ok.mpr ⟨a, b, slot_push hpush, hkeep.text hname, hkeep.text hdescriptor⟩

end Pool
end ClassRelabel
