/-
When a reference resolves.

Each lookup succeeds exactly when the constants on its way have the right kind.  So it depends on
a few slots only: it survives every change that keeps slots (`Extends`), and lookups of texts and
of names with descriptors survive every change that keeps those (`Revises`).
-/
import ClassRelabel.Pool.Resolve
import ClassRelabel.Proofs.Effect
import ClassRelabel.Proofs.Pool.Layout

namespace ClassRelabel
namespace Constant

/-- A text, or a name with its descriptor: what other constants and attributes spell names by. -/
def isName : Constant → Bool
  | utf8 _ | nameAndType _ _ => true
  | _ => false

/-- The constant without the index by which it reaches the name it gives. -/
def frame : Constant → Constant
  | classRef _ => classRef 0
  | member kind owner _ => member kind owner 0
  | methodType _ => methodType 0
  | dynamic bootstrap _ => dynamic bootstrap 0
  | invokeDynamic bootstrap _ => invokeDynamic bootstrap 0
  | c => c

/-- A constant whose way to a name may be changed. -/
def isReference : Constant → Bool
  | classRef _ | member .. | methodType _ | dynamic .. | invokeDynamic .. => true
  | _ => false

theorem isReference_of_isName {c : Constant} (h : c.isName = true) : c.isReference = false := by
  cases c <;> first | rfl | contradiction

theorem isReference_frame (c : Constant) : c.frame.isReference = c.isReference := by
  cases c <;> rfl

theorem frame_eq_self {c : Constant} (h : c.isReference = false) : c.frame = c := by
  cases c <;> first | rfl | contradiction

/-- A constant that is no reference is its frame. -/
theorem eq_of_frame_eq {c d : Constant} (h : d.frame = c.frame) (hc : c.isReference = false) :
    d = c := by
  have hd : d.isReference = false := by rw [← isReference_frame, h, isReference_frame, hc]
  rwa [frame_eq_self hd, frame_eq_self hc] at h

theorem isWide_eq_of_frame_eq {c d : Constant} (h : d.frame = c.frame) :
    d.isWide = c.isWide := by
  have hframe : ∀ e : Constant, e.frame.isWide = e.isWide := fun e => by cases e <;> rfl
  rw [← hframe d, h, hframe c]

end Constant

namespace Pool

variable {p q : Pool} {c : Constant} {i : Index}

/-! ## Lookups by the slots on their way -/

theorem constant_eq_ok {c : Constant} :
    p.constant i = .ok c ↔ p.slots[i.toNat]? = some c ∧ c ≠ .unusable := by
  unfold constant
  split
  · rename_i h
    simp [h]
  · rename_i h
    rw [h]
    simp only [reduceCtorEq, Option.some.injEq, false_iff, not_and, not_not]
    exact fun hc => hc.symm
  · rename_i d hd h
    rw [h]
    constructor
    · intro hc
      rw [← Except.ok.inj hc]
      exact ⟨rfl, hd⟩
    · intro hc
      rw [Option.some.inj hc.1]

/-- A constant that is replaced was found and is no text. -/
theorem exists_of_replace {u : Unit} (h : replace i c p = .ok u q) :
    ∃ old, p.slots[i.toNat]? = some old ∧ old.isText = false ∧
      { p.recordReference i c with slots := p.slots.setIfInBounds i.toNat c } = q := by
  unfold replace at h
  split at h
  · simp at h
  · rename_i old hold
    split at h
    · simp at h
    · rename_i hkind
      simp only [EStateM.Result.ok.injEq, slots_recordReference, true_and] at h
      refine ⟨old, (constant_eq_ok.mp hold).1, ?_, h⟩
      cases htext : old.isText with
      | false => rfl
      | true => simp [htext] at hkind

theorem replace_eq_error {e : Fault} (h : replace i c p = .error e q) : q = p := by
  unfold replace at h
  split at h
  · exact ((EStateM.Result.error.inj h).2).symm
  · split at h
    · exact ((EStateM.Result.error.inj h).2).symm
    · simp at h

theorem text_eq_ok {s : String} : p.text i = .ok s ↔ p.slots[i.toNat]? = some (.utf8 s) := by
  simp only [text, Except.bind_eq_ok, constant_eq_ok]
  constructor
  · rintro ⟨c, ⟨hc, -⟩, h⟩
    cases c <;> simp at h
    rw [hc, h]
  · intro h
    exact ⟨_, ⟨h, by simp⟩, rfl⟩

theorem className_eq_ok {s : String} :
    p.className i = .ok s ↔ ∃ n, p.slots[i.toNat]? = some (.classRef n) ∧ p.text n = .ok s := by
  simp only [className, Except.bind_eq_ok, constant_eq_ok]
  constructor
  · rintro ⟨c, ⟨hc, -⟩, h⟩
    cases c <;> simp at h
    exact ⟨_, hc, h⟩
  · rintro ⟨n, hc, h⟩
    exact ⟨_, ⟨hc, by simp⟩, h⟩

theorem namedType_eq_ok {t : NamedType} :
    p.namedType i = .ok t ↔ ∃ a b, p.slots[i.toNat]? = some (.nameAndType a b) ∧
      p.text a = .ok t.name ∧ p.text b = .ok t.descriptor := by
  simp only [namedType, Except.bind_eq_ok, constant_eq_ok]
  constructor
  · rintro ⟨c, ⟨hc, -⟩, h⟩
    cases c <;> simp only [Except.bind_eq_ok, Except.pure_eq_ok, reduceCtorEq] at h
    obtain ⟨name, hname, descriptor, hdescriptor, rfl⟩ := h
    exact ⟨_, _, hc, hname, hdescriptor⟩
  · rintro ⟨a, b, hc, hname, hdescriptor⟩
    refine ⟨_, ⟨hc, by simp⟩, ?_⟩
    simp only [Except.bind_eq_ok, Except.pure_eq_ok]
    exact ⟨_, hname, _, hdescriptor, rfl⟩

theorem memberRef_eq_ok {m : MemberRef} :
    p.memberRef i = .ok m ↔ ∃ owner pair, p.slots[i.toNat]? = some (.member m.kind owner pair) ∧
      p.className owner = .ok m.owner ∧ p.namedType pair = .ok ⟨m.name, m.descriptor⟩ := by
  simp only [memberRef, Except.bind_eq_ok, constant_eq_ok]
  constructor
  · rintro ⟨c, ⟨hc, -⟩, h⟩
    cases c <;> simp only [Except.bind_eq_ok, Except.pure_eq_ok, reduceCtorEq] at h
    obtain ⟨named, hnamed, owner, howner, rfl⟩ := h
    exact ⟨_, _, hc, howner, hnamed⟩
  · rintro ⟨owner, pair, hc, howner, hnamed⟩
    refine ⟨_, ⟨hc, by simp⟩, ?_⟩
    simp only [Except.bind_eq_ok, Except.pure_eq_ok]
    exact ⟨_, hnamed, _, howner, rfl⟩

theorem methodType_eq_ok {s : String} :
    p.methodType i = .ok s ↔
      ∃ d, p.slots[i.toNat]? = some (.methodType d) ∧ p.text d = .ok s := by
  simp only [methodType, Except.bind_eq_ok, constant_eq_ok]
  constructor
  · rintro ⟨c, ⟨hc, -⟩, h⟩
    cases c <;> simp at h
    exact ⟨_, hc, h⟩
  · rintro ⟨d, hc, h⟩
    exact ⟨_, ⟨hc, by simp⟩, h⟩

/-! ## Changes that keep what resolves -/

/-- Every slot of `p` stands in `q` unchanged. -/
def Extends (p q : Pool) : Prop :=
  ∀ (j : Nat) (c : Constant), p.slots[j]? = some c → q.slots[j]? = some c

/-- Every slot of `p` stands in `q`, changed at most in the index by which it reaches a name. -/
def Revises (p q : Pool) : Prop :=
  ∀ (j : Nat) (c : Constant), p.slots[j]? = some c →
    ∃ d, q.slots[j]? = some d ∧ d.frame = c.frame

/-- Every slot of `q` beyond those of `p` holds a text or a name with its descriptor. -/
def AddsNames (p q : Pool) : Prop :=
  ∀ (j : Nat) (c : Constant), p.slots[j]? = none → q.slots[j]? = some c → c.isName = true

theorem Extends.refl (p : Pool) : Extends p p := fun _ _ h => h

theorem Extends.trans {r : Pool} (h : Extends p q) (h' : Extends q r) : Extends p r :=
  fun j c hc => h' j c (h j c hc)

theorem Extends.revises (h : Extends p q) : Revises p q := fun j c hc => ⟨c, h j c hc, rfl⟩

theorem Revises.refl (p : Pool) : Revises p p := (Extends.refl p).revises

theorem Revises.trans {r : Pool} (h : Revises p q) (h' : Revises q r) : Revises p r := by
  intro j c hc
  obtain ⟨d, hd, hframe⟩ := h j c hc
  obtain ⟨e, he, hframe'⟩ := h' j d hd
  exact ⟨e, he, hframe'.trans hframe⟩

theorem Revises.size_le (h : Revises p q) : p.slots.size ≤ q.slots.size := by
  cases hsize : p.slots.size with
  | zero => exact Nat.zero_le _
  | succ n =>
    obtain ⟨d, hd, -⟩ := h n _ (Array.getElem?_eq_getElem (by omega))
    exact lt_size_of_getElem? hd

theorem Revises.slot {c : Constant} {j : Nat} (h : Revises p q) (hc : p.slots[j]? = some c)
    (hkept : c.isReference = false) : q.slots[j]? = some c := by
  obtain ⟨d, hd, hframe⟩ := h j c hc
  rw [hd, Constant.eq_of_frame_eq hframe hkept]

theorem AddsNames.refl (p : Pool) : AddsNames p p := fun j c hn hc => by simp [hn] at hc

theorem AddsNames.trans {r : Pool} (h : AddsNames p q) (hrev : Revises q r)
    (h' : AddsNames q r) : AddsNames p r := by
  intro j c hn hc
  cases hq : q.slots[j]? with
  | none => exact h' j c hq hc
  | some d =>
    have hd := h j d hn hq
    rw [hrev.slot hq (Constant.isReference_of_isName hd)] at hc
    rwa [← Option.some.inj hc]

theorem Revises.text {s : String} (h : Revises p q) (hs : p.text i = .ok s) :
    q.text i = .ok s :=
  text_eq_ok.mpr (h.slot (text_eq_ok.mp hs) rfl)

theorem Revises.namedType {t : NamedType} (h : Revises p q) (ht : p.namedType i = .ok t) :
    q.namedType i = .ok t := by
  obtain ⟨a, b, hc, hname, hdescriptor⟩ := namedType_eq_ok.mp ht
  exact namedType_eq_ok.mpr ⟨a, b, h.slot hc rfl, h.text hname, h.text hdescriptor⟩

theorem Extends.text {s : String} (h : Extends p q) (hs : p.text i = .ok s) : q.text i = .ok s :=
  h.revises.text hs

end Pool
end ClassRelabel
