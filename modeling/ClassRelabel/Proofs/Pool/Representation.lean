/-
What holds of every pool that is built by appending.

The calls that append leave a regular pool regular, also where they fail half of the way, and never
touch what stands in it (`Continues`).  So whatever they are and however many, the tables give the
first index of everything in the pool, an index that was returned keeps its constant, and the pool
is written and read back as it is (`represented_of_reached`).
-/
import ClassRelabel.Proofs.Pool.Calls

namespace ClassRelabel

open EStateM Reader

namespace Pool

variable {p q : Pool} {c : Constant} {i : Index} {call : Call}

namespace Call

/-- The call appends, if it does anything, and only what can be written. -/
def Appends : Call → Prop
  | push c => c.Writable
  | replace _ _ => False
  | internText s => (Constant.utf8 s).Writable
  | internClass name => (Constant.utf8 name).Writable
  | internPair name descriptor =>
    (Constant.utf8 name).Writable ∧ (Constant.utf8 descriptor).Writable

/-- The index is an answer to the call.  What is pushed may stand at other indices as well, what is
interned stands at no index before. -/
def Answers (p : Pool) (i : Index) : Call → Prop
  | push c => p.slots[i.toNat]? = some c
  | replace _ _ => False
  | internText s => p.First (.utf8 s) i
  | internClass name => ∃ n, p.First (.utf8 name) n ∧ p.First (.classRef n) i
  | internPair name descriptor =>
    ∃ a b, p.First (.utf8 name) a ∧ p.First (.utf8 descriptor) b ∧ p.First (.nameAndType a b) i

/-- What the call interns stands in the pool.  Classes and names with descriptors are known by the
first indices of their texts. -/
def Present (p : Pool) : Call → Prop
  | push _ | replace _ _ => False
  | internText s => ∃ j : Nat, p.slots[j]? = some (.utf8 s)
  | internClass name => ∃ n, p.First (.utf8 name) n ∧ ∃ j : Nat, p.slots[j]? = some (.classRef n)
  | internPair name descriptor =>
    ∃ a b, p.First (.utf8 name) a ∧ p.First (.utf8 descriptor) b ∧
      ∃ j : Nat, p.slots[j]? = some (.nameAndType a b)

end Call

/-- A pool that appending calls make of a new one or of one that was read. -/
def Reached (p : Pool) : Prop :=
  ∃ start calls, Start start ∧ (∀ call ∈ calls, Call.Appends call) ∧ start.afterCalls calls = p

/-! ## One step -/

/-- `q` is `p` with more behind it, and as regular. -/
structure Continues (p q : Pool) : Prop where
  keeps : Extends p q
  regular : p.Regular → q.Regular

instance : Std.Refl Continues := ⟨fun p => ⟨Extends.refl p, id⟩⟩

instance : IsTrans Pool Continues :=
  ⟨fun _ _ _ h h' => ⟨h.keeps.trans h'.keeps, fun hp => h'.regular (h.regular hp)⟩⟩

theorem always_push (hc : c.Writable) : Always Continues (push c) := by
  intro p
  cases hpush : push c p with
  | ok i q =>
    rw [after_of_ok hpush]
    exact ⟨extends_push hpush, regular_push hpush hc⟩
  | error e q =>
    rw [after_of_error hpush, push_eq_error hpush]
    exact Std.Refl.refl p

theorem writable_classRef (n : Index) : (Constant.classRef n).Writable :=
  ⟨Constant.storable_of_ne (by simp) (by simp), by simp⟩

theorem writable_nameAndType (a b : Index) : (Constant.nameAndType a b).Writable :=
  ⟨Constant.storable_of_ne (by simp) (by simp), by simp⟩

theorem always_run (h : call.Appends) : Always Continues call.run := by
  cases call with
  | push c => exact always_map some (always_push h)
  | replace i c => exact h.elim
  | internText s => exact always_map some (always_internText (always_push h))
  | internClass name =>
    refine always_map some (always_internClass (always_push h) fun n => ?_)
    exact always_push (writable_classRef n)
  | internPair name descriptor =>
    refine always_map some (always_internPair (always_push h.1) (always_push h.2) fun a b => ?_)
    exact always_push (writable_nameAndType a b)

/-- The index that interning gives is the first one of the constant. -/
theorem first_intern (hp : p.Regular) (hc : c.isKey = true) (h : intern c p = .ok i q) :
    q.First c i := by
  have hindexed := indexed_iff.mp hp.toIndexed
  rcases intern_eq_ok h with ⟨hlookup, rfl⟩ | ⟨hlookup, hpush⟩
  · exact (hindexed c i hc).mp hlookup
  · have hu : c ≠ .unusable := by
      rintro rfl
      simp [Constant.isKey] at hc
    refine (first_push hpush hu).mpr (Or.inr ⟨rfl, rfl, ?_⟩)
    intro k hk
    obtain ⟨j, hj⟩ := exists_first hp.count_lt hk
    rw [(hindexed c j hc).mpr hj] at hlookup
    simp at hlookup

theorem intern_of_first (hp : p.Indexed) (hc : c.isKey = true) (h : p.First c i) :
    intern c p = .ok i p :=
  intern_of_lookup? ((indexed_iff.mp hp c i hc).mpr h)

theorem some_map_eq_ok {x : PoolM Index} : (some <$> x) p = .ok (some i) q ↔ x p = .ok i q := by
  rw [map_eq_ok]
  constructor
  · rintro ⟨j, hj, hi⟩
    rwa [← Option.some.inj hi]
  · intro hi
    exact ⟨i, hi, rfl⟩

/-- A call that gives an index gives an answer. -/
theorem answers_of_run (hp : p.Regular) (hcall : call.Appends)
    (h : call.run p = .ok (some i) q) : call.Answers q i := by
  cases call with
  | push c => exact slot_push (some_map_eq_ok.mp h)
  | replace j c => exact hcall.elim
  | internText s => exact first_intern hp rfl (some_map_eq_ok.mp h)
  | internClass name =>
    obtain ⟨n, p₁, hname, hclass⟩ := steps_internClass.mp (some_map_eq_ok.mp h)
    have hstep : Continues p p₁ := (always_internText (always_push hcall)).keeps p n p₁ hname
    have hn : p₁.First (.utf8 name) n := first_intern hp rfl hname
    have hlast : Continues p₁ q :=
      (always_intern (always_push (writable_classRef n))).keeps p₁ i q hclass
    exact ⟨n, hlast.keeps.first hn, first_intern (hstep.regular hp) rfl hclass⟩
  | internPair name descriptor =>
    obtain ⟨a, p₁, b, p₂, hname, hdescriptor, hpair⟩ :=
      steps_internPair.mp (some_map_eq_ok.mp h)
    have hstep : Continues p p₁ := (always_internText (always_push hcall.1)).keeps p a p₁ hname
    have hstep' : Continues p₁ p₂ :=
      (always_internText (always_push hcall.2)).keeps p₁ b p₂ hdescriptor
    have hlast : Continues p₂ q :=
      (always_intern (always_push (writable_nameAndType a b))).keeps p₂ i q hpair
    have hp₁ := hstep.regular hp
    have ha : p₁.First (.utf8 name) a := first_intern hp rfl hname
    have hb : p₂.First (.utf8 descriptor) b := first_intern hp₁ rfl hdescriptor
    exact ⟨a, b, hlast.keeps.first (hstep'.keeps.first ha), hlast.keeps.first hb,
      first_intern (hstep'.regular hp₁) rfl hpair⟩

/-- Interning what is there gives its first index and leaves the pool as it is. -/
theorem run_of_present (hp : p.Regular) (h : call.Present p) :
    ∃ i, call.Answers p i ∧ call.run p = .ok (some i) p := by
  have hrun : ∀ {c i}, c.isKey = true → p.First c i → intern c p = .ok i p := fun hc =>
    intern_of_first hp.toIndexed hc
  cases call with
  | push c => exact h.elim
  | replace j c => exact h.elim
  | internText s =>
    obtain ⟨j, hj⟩ := h
    obtain ⟨i, hi⟩ := exists_first hp.count_lt hj
    exact ⟨i, hi, some_map_eq_ok.mpr (hrun rfl hi)⟩
  | internClass name =>
    obtain ⟨n, hn, j, hj⟩ := h
    obtain ⟨i, hi⟩ := exists_first hp.count_lt hj
    refine ⟨i, ⟨n, hn, hi⟩, some_map_eq_ok.mpr ?_⟩
    exact steps_internClass.mpr ⟨n, p, hrun rfl hn, hrun rfl hi⟩
  | internPair name descriptor =>
    obtain ⟨a, b, ha, hb, j, hj⟩ := h
    obtain ⟨i, hi⟩ := exists_first hp.count_lt hj
    refine ⟨i, ⟨a, b, ha, hb, hi⟩, some_map_eq_ok.mpr ?_⟩
    exact steps_internPair.mpr ⟨a, p, b, p, hrun rfl ha, hrun rfl hb, hrun rfl hi⟩

/-- Answers stay answers. -/
theorem Extends.answers (h : Extends p q) (hi : call.Answers p i) : call.Answers q i := by
  cases call with
  | push c => exact h _ _ hi
  | replace j c => exact hi
  | internText s => exact h.first hi
  | internClass name =>
    obtain ⟨n, hn, hi⟩ := hi
    exact ⟨n, h.first hn, h.first hi⟩
  | internPair name descriptor =>
    obtain ⟨a, b, ha, hb, hi⟩ := hi
    exact ⟨a, b, h.first ha, h.first hb, h.first hi⟩

/-! ## All steps -/

theorem continues_afterCalls {calls : List Call} (h : ∀ call ∈ calls, call.Appends) (p : Pool) :
    Continues p (p.afterCalls calls) :=
  afterCalls_of_always (fun call hcall => always_run (h call hcall)) p

theorem Reached.regular (h : p.Reached) : p.Regular := by
  obtain ⟨start, calls, hstart, hcalls, rfl⟩ := h
  exact (continues_afterCalls hcalls start).regular hstart.regular

/-- Index zero and the indices behind wide constants are the ones that are not used. -/
theorem WellLaid.unusable_iff (hp : p.WellLaid) (j : Nat) :
    p.slots[j]? = some .unusable ↔
      j = 0 ∨ ∃ i c, j = i + 1 ∧ p.slots[i]? = some c ∧ c.isWide = true := by
  constructor
  · intro hj
    cases j with
    | zero => exact Or.inl rfl
    | succ i =>
      obtain ⟨c, hc, hwide⟩ := hp.usable i hj
      exact Or.inr ⟨i, c, rfl, hc, hwide⟩
  · rintro (rfl | ⟨i, c, rfl, hc, hwide⟩)
    · exact hp.zero
    · exact hp.wide i c hc hwide

/-- What holds of a pool that was built by appending calls, some of which may have failed. -/
structure Represented (p : Pool) : Prop where
  count_le : p.count ≤ 0xFFFF
  unusable : ∀ j : Nat, p.slots[j]? = some .unusable ↔
    j = 0 ∨ ∃ i c, j = i + 1 ∧ p.slots[i]? = some c ∧ c.isWide = true
  indexed : p.Indexed
  /-- A call that succeeds gives an answer, which no later calls take back. -/
  answers : ∀ (call : Call) (i : Index) (q : Pool), call.Appends → call.run p = .ok (some i) q →
    ∀ more : List Call, (∀ later ∈ more, later.Appends) → call.Answers (q.afterCalls more) i
  keeps : ∀ more : List Call, (∀ later ∈ more, later.Appends) → Extends p (p.afterCalls more)
  /-- Interning what is there gives its first index and changes nothing. -/
  present : ∀ call : Call, call.Present p →
    ∃ i, call.Answers p i ∧ call.run p = .ok (some i) p
  push_error : ∀ (c : Constant) (e : Fault) (q : Pool), push c p = .error e q → q = p
  /-- The pool is written and read back, tables and all. -/
  reads : ∃ bs, p.encode = .ok bs ∧ Reads read bs p

theorem represented_of_reached {p : Pool} (h : p.Reached) : p.Represented := by
  have hp : p.Regular := h.regular
  refine ⟨Nat.le_of_lt_succ hp.count_lt, hp.toWellLaid.unusable_iff, hp.toIndexed, ?_, ?_, ?_, ?_,
    hp.reads_encode⟩
  · intro call i q hcall hrun more hmore
    exact (continues_afterCalls hmore q).keeps.answers (answers_of_run hp hcall hrun)
  · intro more hmore
    exact (continues_afterCalls hmore p).keeps
  · intro call hpresent
    exact run_of_present hp hpresent
  · intro c e q hpush
    exact push_eq_error hpush

/-- A wide constant, and a class whose name is interned once more. -/
def wideThenClass : List Call := [.push (.long 7), .internClass "A", .internText "A"]

theorem represented_wideThenClass :
    (empty.afterCalls wideThenClass).slots =
      #[.unusable, .long 7, .unusable, .utf8 "A", .classRef 3] ∧
    (empty.afterCalls wideThenClass).Reached ∧ (empty.afterCalls wideThenClass).Represented := by
  have hlong : (Constant.long 7).Writable :=
    ⟨Constant.storable_of_ne (by simp) (by simp), by simp⟩
  have htext : (Constant.utf8 "A").Writable := by
    refine ⟨Constant.storable_of_ne (by simp) (by simp), ?_⟩
    rintro _ ⟨⟩
    decide +kernel
  have hreached : (empty.afterCalls wideThenClass).Reached := by
    refine ⟨empty, wideThenClass, Or.inl rfl, ?_, rfl⟩
    intro call hcall
    simp only [wideThenClass, List.mem_cons, List.not_mem_nil, or_false] at hcall
    rcases hcall with rfl | rfl | rfl
    · exact hlong
    · exact htext
    · exact htext
  exact ⟨by decide +kernel, hreached, represented_of_reached hreached⟩

end Pool
end ClassRelabel
