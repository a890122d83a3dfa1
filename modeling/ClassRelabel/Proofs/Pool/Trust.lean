/-
When the tables of a pool can be trusted.

A replacement enters the constant it puts in, but the entry of the constant it takes out stays where
it was.  Texts are never replaced, so the table of texts is right in every pool.  The other tables
are right except at the indices where a replacement took a class or a name with its descriptor away
(`Start.trusted`), and there interning may give an index that holds something else.
-/
import ClassRelabel.Proofs.Pool.Calls

namespace ClassRelabel

open EStateM

namespace Pool

variable {p q : Pool} {c d : Constant} {i j : Index} {call : Call} {stale : Index → Prop}

/-- What the tables give for a constant holds it, unless it is no text and the index is stale. -/
def Trusted (p : Pool) (stale : Index → Prop) : Prop :=
  ∀ c i, p.lookup? c = some i → c.isText = true ∨ ¬stale i → p.slots[i.toNat]? = some c

theorem Indexed.trusted (hp : p.Indexed) (stale : Index → Prop) : p.Trusted stale := by
  intro c i hlookup _
  exact ((indexed_iff.mp hp c i (isKey_of_lookup? hlookup)).mp hlookup).holds

theorem Trusted.mono {stale' : Index → Prop} (hp : p.Trusted stale)
    (h : ∀ i, stale i → stale' i) : p.Trusted stale' := by
  intro c i hlookup hc
  refine hp c i hlookup ?_
  rcases hc with hc | hc
  · exact Or.inl hc
  · exact Or.inr fun hstale => hc (h i hstale)

/-! ## Appending -/

/-- `q` is `p` with more behind it, and the new entries of its tables are right. -/
structure Appended (p q : Pool) : Prop where
  keeps : Extends p q
  adds : ∀ c i, q.lookup? c = some i → p.lookup? c = some i ∨ q.slots[i.toNat]? = some c

instance : Std.Refl Appended := ⟨fun p => ⟨Extends.refl p, fun _ _ h => Or.inl h⟩⟩

instance : IsTrans Pool Appended := by
  refine ⟨fun p q r h h' => ⟨h.keeps.trans h'.keeps, ?_⟩⟩
  intro c i hlookup
  rcases h'.adds c i hlookup with hold | hnew
  · rcases h.adds c i hold with hold | hnew
    · exact Or.inl hold
    · exact Or.inr (h'.keeps _ _ hnew)
  · exact Or.inr hnew

theorem appended_push (c : Constant) : Always Appended (push c) := by
  intro p
  cases hpush : push c p with
  | ok i q =>
    rw [after_of_ok hpush]
    refine ⟨extends_push hpush, ?_⟩
    intro d j hlookup
    exact slot_of_lookup?_push hpush hlookup
  | error e q =>
    rw [after_of_error hpush, push_eq_error hpush]
    exact Std.Refl.refl p

theorem appended_internText (s : String) : Always Appended (internText s) :=
  always_internText (appended_push _)

theorem Trusted.append (hp : p.Trusted stale) (h : Appended p q) : q.Trusted stale := by
  intro c i hlookup hc
  rcases h.adds c i hlookup with hold | hnew
  · exact h.keeps _ _ (hp c i hold hc)
  · exact hnew

/-! ## Replacing -/

/-- The call puts no unusable constant into a pool. -/
def Call.Usable : Call → Prop
  | push c | replace _ c => c ≠ .unusable
  | _ => True

/-- The call puts something else in the place of a constant that the tables may give. -/
def Call.Displaces (p : Pool) (i : Index) : Call → Prop
  | replace j d => j = i ∧ ∃ c q, c.isKey = true ∧ p.slots[i.toNat]? = some c ∧ c ≠ d ∧
      Pool.replace j d p = .ok () q
  | _ => False

theorem Trusted.replace (hp : p.Trusted stale) (h : Pool.replace j d p = .ok () q) :
    q.Trusted fun i => stale i ∨ (Call.replace j d).Displaces p i := by
  obtain ⟨old, hold, htext, hq⟩ := exists_of_replace h
  have hlookup : ∀ c, q.lookup? c = (p.recordReference j d).lookup? c := by
    intro c
    rw [← hq]
    cases c <;> rfl
  have hslots : q.slots = p.slots.setIfInBounds j.toNat d := by rw [← hq]
  have hnew : q.slots[j.toNat]? = some d := by
    rw [hslots, Array.getElem?_setIfInBounds_self_of_lt (lt_size_of_getElem? hold)]
  intro c i hi hc
  rw [hlookup, lookup?_recordReference] at hi
  rcases Option.or_eq_some_iff.mp hi with hbefore | ⟨-, hentered⟩
  · have hslot : p.slots[i.toNat]? = some c := by
      refine hp c i hbefore ?_
      rcases hc with hc | hc
      · exact Or.inl hc
      · exact Or.inr fun hstale => hc (Or.inl hstale)
    by_cases hij : j = i
    · subst hij
      -- The constant taken out is no text, so it may only have been put in again.
      rcases hc with hc | hc
      · rw [hold] at hslot
        rw [Option.some.inj hslot, hc] at htext
        simp at htext
      · have hsame : c = d := by
          by_contra hne
          exact hc (Or.inr ⟨rfl, c, q, isKey_of_lookup? hbefore, hslot, hne, h⟩)
        rw [hnew, hsame]
    · have hne : j.toNat ≠ i.toNat := fun heq => hij (UInt16.toNat_inj.mp heq)
      rw [hslots, Array.getElem?_setIfInBounds_ne hne]
      exact hslot
  · split at hentered
    · rename_i hkey
      obtain ⟨-, -, rfl⟩ := hkey
      obtain rfl := Option.some.inj hentered
      exact hnew
    · simp at hentered

/-! ## All calls -/

theorem Trusted.after_run (hp : p.Trusted stale) (call : Call) :
    (after call.run p).Trusted fun i => stale i ∨ call.Displaces p i := by
  have happend : Always Appended call.run →
      (after call.run p).Trusted fun i => stale i ∨ call.Displaces p i := by
    intro halways
    exact (hp.append (halways p)).mono fun i => Or.inl
  cases call with
  | push c => exact happend (always_map some (appended_push c))
  | internText s => exact happend (always_map some (appended_internText s))
  | internClass name =>
    refine happend (always_map some (always_internClass (appended_push _) fun n => ?_))
    exact appended_push _
  | internPair name descriptor =>
    refine happend (always_map some ?_)
    exact always_internPair (appended_push _) (appended_push _) fun a b => appended_push _
  | replace j d =>
    cases hrun : Pool.replace j d p with
    | ok u q =>
      have hafter : after (Call.replace j d).run p = q :=
        after_of_ok (map_eq_ok.mpr ⟨u, hrun, rfl⟩)
      rw [hafter]
      exact hp.replace hrun
    | error e q =>
      have hfail : (Call.replace j d).run p = .error e q := by
        show EStateM.map _ _ p = _
        rw [EStateM.map, hrun]
      rw [after_of_error hfail, replace_eq_error hrun]
      exact hp.mono fun i => Or.inl

/-- Some call of the list displaces a constant at the index. -/
def Displaced (p : Pool) (calls : List Call) (i : Index) : Prop :=
  ∃ before call rest, calls = before ++ call :: rest ∧ call.Displaces (p.afterCalls before) i

theorem displaced_cons_of_displaces {calls : List Call} (h : call.Displaces p i) :
    p.Displaced (call :: calls) i :=
  ⟨[], call, calls, rfl, h⟩

theorem displaced_cons {calls : List Call} (h : (after call.run p).Displaced calls i) :
    p.Displaced (call :: calls) i := by
  obtain ⟨before, later, rest, rfl, hlater⟩ := h
  exact ⟨call :: before, later, rest, rfl, hlater⟩

theorem Trusted.afterCalls (hp : p.Trusted stale) (calls : List Call) :
    (p.afterCalls calls).Trusted fun i => stale i ∨ p.Displaced calls i := by
  induction calls generalizing p stale with
  | nil => exact hp.mono fun i => Or.inl
  | cons call calls ih =>
    refine (ih (hp.after_run call)).mono fun i hstale => ?_
    rcases hstale with (hstale | hdisplaces) | hdisplaced
    · exact Or.inl hstale
    · exact Or.inr (displaced_cons_of_displaces hdisplaces)
    · exact Or.inr (displaced_cons hdisplaced)

/-- In a history, the tables are right wherever nothing was displaced. -/
theorem Start.trusted {start : Pool} (h : start.Start) (calls : List Call) :
    (start.afterCalls calls).Trusted (start.Displaced calls) := by
  have hstart : start.Trusted fun _ => False := h.regular.toIndexed.trusted _
  exact (hstart.afterCalls calls).mono fun i hstale => hstale.resolve_left id

/-- Only a replacement at the index displaces anything. -/
theorem replace_mem_of_displaced {calls : List Call} (h : p.Displaced calls i) :
    ∃ d, Call.replace i d ∈ calls := by
  obtain ⟨before, call, rest, rfl, hcall⟩ := h
  cases call with
  | replace j d =>
    obtain ⟨rfl, -⟩ := hcall
    exact ⟨d, List.mem_append_right before List.mem_cons_self⟩
  | _ => exact hcall.elim

/-! ## Interning -/

theorem Trusted.slot_intern (hp : p.Trusted stale) (hc : c.isText = true ∨ ¬stale i)
    (h : intern c p = .ok i q) : q.slots[i.toNat]? = some c := by
  rcases intern_eq_ok h with ⟨hlookup, rfl⟩ | ⟨-, hpush⟩
  · exact hp c i hlookup hc
  · exact slot_push hpush

theorem Trusted.text_intern {s : String} (hp : p.Trusted stale) (h : internText s p = .ok i q) :
    q.text i = .ok s :=
  text_eq_ok.mpr (hp.slot_intern (Or.inl rfl) h)

theorem Trusted.className_intern {name : String} (hp : p.Trusted stale) (hi : ¬stale i)
    (h : internClass name p = .ok i q) : q.className i = .ok name := by
  obtain ⟨n, p₁, hname, hclass⟩ := steps_internClass.mp h
  have hp₁ := hp.append ((appended_internText name).keeps p n p₁ hname)
  have hlast : Appended p₁ q := (always_intern (appended_push _)).keeps p₁ i q hclass
  refine className_eq_ok.mpr ⟨n, hp₁.slot_intern (Or.inr hi) hclass, ?_⟩
  exact hlast.keeps.text (hp.text_intern hname)

theorem Trusted.namedType_intern {name descriptor : String} (hp : p.Trusted stale) (hi : ¬stale i)
    (h : internPair name descriptor p = .ok i q) : q.namedType i = .ok ⟨name, descriptor⟩ := by
  obtain ⟨a, p₁, b, p₂, hname, hdescriptor, hpair⟩ := steps_internPair.mp h
  have hp₁ := hp.append ((appended_internText name).keeps p a p₁ hname)
  have hstep : Appended p₁ p₂ := (appended_internText descriptor).keeps p₁ b p₂ hdescriptor
  have hp₂ := hp₁.append hstep
  have hlast : Appended p₂ q := (always_intern (appended_push _)).keeps p₂ i q hpair
  refine namedType_eq_ok.mpr ⟨a, b, hp₂.slot_intern (Or.inr hi) hpair, ?_, ?_⟩
  · exact hlast.keeps.text (hstep.keeps.text (hp.text_intern hname))
  · exact hlast.keeps.text (hp₁.text_intern hdescriptor)

/-- What interning gives after any calls is what was asked for, unless it is a class or a name with
its descriptor at an index where a replacement took one away.  A text is always right. -/
theorem resolved_of_intern {start : Pool} (hstart : start.Start) (calls : List Call) :
    (∀ (s : String) (i : Index) (q : Pool),
      internText s (start.afterCalls calls) = .ok i q → q.text i = .ok s) ∧
    (∀ (name : String) (i : Index) (q : Pool),
      internClass name (start.afterCalls calls) = .ok i q → ¬start.Displaced calls i →
        q.className i = .ok name) ∧
    ∀ (name descriptor : String) (i : Index) (q : Pool),
      internPair name descriptor (start.afterCalls calls) = .ok i q → ¬start.Displaced calls i →
        q.namedType i = .ok ⟨name, descriptor⟩ := by
  have hp := hstart.trusted calls
  refine ⟨?_, ?_, ?_⟩
  · intro s i q h
    exact hp.text_intern h
  · intro name i q h hi
    exact hp.className_intern hi h
  · intro name descriptor i q h hi
    exact hp.namedType_intern hi h

/-- A class is interned and then replaced by the one that the text at index three names. -/
def replacedClass : List Call := [.internClass "a/A", .internText "b/B", .replace 2 (.classRef 3)]

theorem resolved_replacedClass :
    empty.Start ∧ ¬empty.Displaced replacedClass 4 ∧
      ∃ q, internPair "a/A" "b/B" (empty.afterCalls replacedClass) = .ok 4 q ∧
        q.namedType 4 = .ok ⟨"a/A", "b/B"⟩ := by
  have hstart : empty.Start := Or.inl rfl
  have hkept : ¬empty.Displaced replacedClass 4 := by
    intro hdisplaced
    obtain ⟨d, hd⟩ := replace_mem_of_displaced hdisplaced
    simp [replacedClass] at hd
  exact ⟨hstart, hkept, _, rfl, (resolved_of_intern hstart replacedClass).2.2 _ _ 4 _ rfl hkept⟩

/-- The table still gives the index of the class that was taken out. -/
theorem className_replacedClass :
    empty.Start ∧ (∀ call ∈ replacedClass, call.Usable) ∧
      ∃ q, internClass "a/A" (empty.afterCalls replacedClass) = .ok 2 q ∧
        q.className 2 = .ok "b/B" := by
  refine ⟨Or.inl rfl, ?_, _, rfl, by decide +kernel⟩
  intro call hcall
  simp only [replacedClass, List.mem_cons, List.not_mem_nil, or_false] at hcall
  rcases hcall with rfl | rfl | rfl
  · trivial
  · trivial
  · simp [Call.Usable]

end Pool
end ClassRelabel
