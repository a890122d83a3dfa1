/-
Runs that succeed.

A reader and a change to a pool are functions of a state that return a value with a new state or
fail.  `EStateM.bind_eq_ok` and its companions open such a run step by step.  `Keeps R x` says
that every successful run of `x` relates the state before to the state after by `R`; for a
reflexive and transitive `R` it passes from the steps to the whole, and along a list.  `Returns P x`
says the same of the value, and `Leaves a x` that the value is `a` and the state stays.
-/
import Mathlib.Data.List.Forall2
import ClassRelabel.Relabel.Basic

namespace Except

variable {ε α β : Type}

theorem bind_eq_ok {x : Except ε α} {f : α → Except ε β} {b : β} :
    (x >>= f) = .ok b ↔ ∃ a, x = .ok a ∧ f a = .ok b := by
  cases x with
  | ok a => simp [bind, Except.bind]
  | error e => simp [bind, Except.bind]

theorem pure_eq_ok {a b : α} :
    (pure a : Except ε α) = .ok b ↔ a = b := by
  simp [pure, Except.pure]

/-- The fault of a run, which can be compared where its value cannot. -/
def error? : Except ε α → Option ε
  | ok _ => none
  | error e => some e

theorem error?_eq_some {x : Except ε α} {e : ε} : x.error? = some e ↔ x = .error e := by
  cases x with
  | ok a => simp [error?]
  | error e' => simp [error?]

theorem toOption_eq_some {x : Except ε α} {a : α} : x.toOption = some a ↔ x = .ok a := by
  cases x with
  | ok a' => simp [Except.toOption]
  | error e => simp [Except.toOption]

/-- A traversal that succeeds gives the result of every step. -/
theorem mapM_eq_ok {f : α → Except ε β} {xs : List α} {ys : List β} :
    xs.mapM f = .ok ys ↔ List.Forall₂ (fun x y => f x = .ok y) xs ys := by
  induction xs generalizing ys with
  | nil => cases ys <;> simp [pure_eq_ok]
  | cons x xs ih =>
    rw [List.mapM_cons, bind_eq_ok]
    constructor
    · rintro ⟨y, hy, h⟩
      obtain ⟨zs, hzs, h⟩ := bind_eq_ok.mp h
      rw [← pure_eq_ok.mp h]
      exact .cons hy (ih.mp hzs)
    · rintro (_ | ⟨hy, hzs⟩)
      exact ⟨_, hy, bind_eq_ok.mpr ⟨_, ih.mpr hzs, pure_eq_ok.mpr rfl⟩⟩

/-- A traversal that fails does so at the first step that fails, and would have succeeded if it had
stopped before. -/
theorem mapM_eq_error {f : α → Except ε β} {xs : List α} {e : ε} (h : xs.mapM f = .error e) :
    ∃ k x, xs[k]? = some x ∧ f x = .error e ∧ (∀ j ≤ k, ∃ ys, (xs.take j).mapM f = .ok ys) ∧
      ∀ j, k < j → (xs.take j).mapM f = .error e := by
  induction xs with
  | nil => simp [pure, Except.pure] at h
  | cons x xs ih =>
    rw [List.mapM_cons] at h
    cases hx : f x with
    | error e' =>
      rw [hx] at h
      obtain rfl : e' = e := Except.error.inj h
      refine ⟨0, x, rfl, hx, fun j hj => ?_, fun j hj => ?_⟩
      · exact ⟨[], by rw [Nat.le_zero.mp hj]; rfl⟩
      · obtain ⟨j, rfl⟩ := Nat.exists_eq_add_one.mpr hj
        rw [List.take_succ_cons, List.mapM_cons, hx]
        rfl
    | ok y =>
      have hrest : xs.mapM f = .error e := by
        cases hxs : xs.mapM f with
        | error e' => simpa [hx, hxs, bind, Except.bind] using h
        | ok ys => simp [hx, hxs, bind, Except.bind, pure, Except.pure] at h
      obtain ⟨k, x', hk, hfails, hbefore, hafter⟩ := ih hrest
      refine ⟨k + 1, x', hk, hfails, fun j hj => ?_, fun j hj => ?_⟩
      · cases j with
        | zero => exact ⟨[], rfl⟩
        | succ j =>
          obtain ⟨ys, hys⟩ := hbefore j (Nat.le_of_succ_le_succ hj)
          exact ⟨y :: ys, by rw [List.take_succ_cons, List.mapM_cons, hx, hys]; rfl⟩
      · obtain ⟨j, rfl⟩ := Nat.exists_eq_add_one.mpr (Nat.zero_lt_of_lt hj)
        rw [List.take_succ_cons, List.mapM_cons, hx, hafter j (Nat.lt_of_succ_lt_succ hj)]
        rfl

/-- A fold that fails does so at the first step that fails, and would have succeeded if it had
stopped before. -/
theorem foldlM_eq_error {f : β → α → Except ε β} {b : β} {xs : List α} {e : ε}
    (h : xs.foldlM f b = .error e) : ∃ k x c, xs[k]? = some x ∧
      (xs.take k).foldlM f b = .ok c ∧ f c x = .error e ∧
      (∀ j ≤ k, ∃ c, (xs.take j).foldlM f b = .ok c) ∧
      ∀ j, k < j → (xs.take j).foldlM f b = .error e := by
  induction xs generalizing b with
  | nil => simp [pure, Except.pure] at h
  | cons x xs ih =>
    rw [List.foldlM_cons] at h
    cases hx : f b x with
    | error e' =>
      rw [hx] at h
      obtain rfl : e' = e := Except.error.inj h
      refine ⟨0, x, b, rfl, rfl, hx, fun j hj => ?_, fun j hj => ?_⟩
      · exact ⟨b, by rw [Nat.le_zero.mp hj]; rfl⟩
      · obtain ⟨j, rfl⟩ := Nat.exists_eq_add_one.mpr hj
        rw [List.take_succ_cons, List.foldlM_cons, hx]
        rfl
    | ok b' =>
      have hstep : ∀ j, (((x :: xs).take (j + 1)).foldlM f b) = (xs.take j).foldlM f b' := by
        intro j
        rw [List.take_succ_cons, List.foldlM_cons, hx]
        rfl
      have hrest : xs.foldlM f b' = .error e := by rwa [hx] at h
      obtain ⟨k, x', c, hk, hc, hfails, hbefore, hafter⟩ := ih hrest
      refine ⟨k + 1, x', c, hk, (hstep k).trans hc, hfails, fun j hj => ?_, fun j hj => ?_⟩
      · cases j with
        | zero => exact ⟨b, rfl⟩
        | succ j =>
          obtain ⟨c', hc'⟩ := hbefore j (Nat.le_of_succ_le_succ hj)
          exact ⟨c', (hstep j).trans hc'⟩
      · obtain ⟨j, rfl⟩ := Nat.exists_eq_add_one.mpr (Nat.zero_lt_of_lt hj)
        exact (hstep j).trans (hafter j (Nat.lt_of_succ_lt_succ hj))

theorem filterMapM_cons_eq_ok {f : α → Except ε (Option β)} {x : α} {xs : List α} {ys : List β} :
    (x :: xs).filterMapM f = .ok ys ↔
      ∃ y zs, f x = .ok y ∧ xs.filterMapM f = .ok zs ∧ ys = y.toList ++ zs := by
  rw [List.filterMapM_cons, bind_eq_ok]
  constructor
  · rintro ⟨_ | y, hy, h⟩
    · exact ⟨none, ys, hy, h, rfl⟩
    · obtain ⟨zs, hzs, h⟩ := bind_eq_ok.mp h
      exact ⟨some y, zs, hy, hzs, (pure_eq_ok.mp h).symm⟩
  · rintro ⟨_ | y, zs, hy, hzs, rfl⟩
    · exact ⟨none, hy, hzs⟩
    · exact ⟨some y, hy, bind_eq_ok.mpr ⟨zs, hzs, rfl⟩⟩

/-- What a traversal picks. -/
theorem mem_of_filterMapM {f : α → Except ε (Option β)} {xs : List α} {ys : List β}
    (h : xs.filterMapM f = .ok ys) {y : β} : y ∈ ys ↔ ∃ x ∈ xs, f x = .ok (some y) := by
  induction xs generalizing ys with
  | nil =>
    obtain rfl := pure_eq_ok.mp h
    simp
  | cons x xs ih =>
    obtain ⟨o, zs, hx, hzs, rfl⟩ := filterMapM_cons_eq_ok.mp h
    rw [List.mem_append, ih hzs, Option.mem_toList]
    simp [hx]

/-- A traversal that succeeds has succeeded at every step. -/
theorem exists_of_filterMapM {f : α → Except ε (Option β)} {xs : List α} {ys : List β}
    (h : xs.filterMapM f = .ok ys) {x : α} (hx : x ∈ xs) : ∃ y, f x = .ok y := by
  induction xs generalizing ys with
  | nil => simp at hx
  | cons x' xs ih =>
    obtain ⟨y, zs, hy, hzs, -⟩ := filterMapM_cons_eq_ok.mp h
    rcases List.mem_cons.mp hx with rfl | hx
    · exact ⟨y, hy⟩
    · exact ih hzs hx

/-- What a traversal picks comes in the order of the list. -/
theorem pairwise_of_filterMapM {R : α → α → Prop} {S : β → β → Prop}
    {f : α → Except ε (Option β)} {xs : List α} {ys : List β} (h : xs.filterMapM f = .ok ys)
    (hxs : xs.Pairwise R)
    (himp : ∀ a b y z, R a b → f a = .ok (some y) → f b = .ok (some z) → S y z) :
    ys.Pairwise S := by
  induction xs generalizing ys with
  | nil =>
    obtain rfl := pure_eq_ok.mp h
    exact .nil
  | cons x xs ih =>
    obtain ⟨o, zs, hx, hzs, rfl⟩ := filterMapM_cons_eq_ok.mp h
    obtain ⟨hhead, hxs⟩ := List.pairwise_cons.mp hxs
    cases o with
    | none => exact ih hzs hxs
    | some y =>
      refine List.pairwise_cons.mpr ⟨fun z hz => ?_, ih hzs hxs⟩
      obtain ⟨b, hb, hz⟩ := (mem_of_filterMapM hzs).mp hz
      exact himp x b y z (hhead b hb) hx hz

end Except

/-- Two traversals one after the other. -/
theorem List.forall₂_comp {α β γ : Type} {R : α → β → Prop} {S : β → γ → Prop} {xs : List α}
    {ys : List β} {zs : List γ} (h : Forall₂ R xs ys) (h' : Forall₂ S ys zs) :
    Forall₂ (fun x z => ∃ y, R x y ∧ S y z) xs zs := by
  induction h generalizing zs with
  | nil =>
    cases h'
    exact .nil
  | cons hxy _ ih =>
    cases h' with
    | cons hyz hrest => exact .cons ⟨_, hxy, hyz⟩ (ih hrest)

/-- The list between two traversals. -/
theorem List.Forall₂.exists_between {α β γ : Type} {R : α → β → Prop} {S : β → γ → Prop}
    {xs : List α} {zs : List γ} (h : Forall₂ (fun x z => ∃ y, R x y ∧ S y z) xs zs) :
    ∃ ys, Forall₂ R xs ys ∧ Forall₂ S ys zs := by
  induction h with
  | nil => exact ⟨[], .nil, .nil⟩
  | cons hfirst _ ih =>
    obtain ⟨y, hxy, hyz⟩ := hfirst
    obtain ⟨ys, hxs, hzs⟩ := ih
    exact ⟨y :: ys, .cons hxy hxs, .cons hyz hzs⟩

theorem List.Forall₂.exists_of_mem_left {α β : Type} {R : α → β → Prop} {xs : List α} {ys : List β}
    (h : Forall₂ R xs ys) {x : α} (hx : x ∈ xs) : ∃ y ∈ ys, R x y := by
  induction h with
  | nil => simp at hx
  | cons hfirst _ ih =>
    rcases List.mem_cons.mp hx with rfl | hx
    · exact ⟨_, List.mem_cons_self, hfirst⟩
    · obtain ⟨y, hy, hxy⟩ := ih hx
      exact ⟨y, List.mem_cons_of_mem _ hy, hxy⟩

theorem List.Forall₂.exists_of_mem_right {α β : Type} {R : α → β → Prop} {xs : List α}
    {ys : List β} (h : Forall₂ R xs ys) {y : β} (hy : y ∈ ys) : ∃ x ∈ xs, R x y :=
  h.flip.exists_of_mem_left hy

namespace EStateM

variable {ε σ α β : Type} {s t : σ}

theorem bind_eq_ok {x : EStateM ε σ α} {f : α → EStateM ε σ β} {b : β} :
    (x >>= f) s = .ok b t ↔ ∃ a u, x s = .ok a u ∧ f a u = .ok b t := by
  show EStateM.bind x f s = .ok b t ↔ _
  unfold EStateM.bind
  cases h : x s with
  | ok a u => simp
  | error e u => simp

theorem pure_eq_ok {a b : α} : (pure a : EStateM ε σ α) s = .ok b t ↔ a = b ∧ s = t := by
  simp [pure, EStateM.pure]

theorem map_eq_ok {x : EStateM ε σ α} {f : α → β} {b : β} :
    (f <$> x) s = .ok b t ↔ ∃ a, x s = .ok a t ∧ f a = b := by
  show EStateM.map f x s = .ok b t ↔ _
  unfold EStateM.map
  cases h : x s with
  | ok a u => simp [and_comm, eq_comm]
  | error e u => simp

/-- Runs on given states can be evaluated. -/
instance decidableEqResult [DecidableEq ε] [DecidableEq σ] [DecidableEq α] :
    DecidableEq (Result ε σ α)
  | .ok a s, .ok b t => decidable_of_iff (a = b ∧ s = t) (by rw [Result.ok.injEq])
  | .error a s, .error b t => decidable_of_iff (a = b ∧ s = t) (by rw [Result.error.injEq])
  | .ok .., .error .. => .isFalse fun h => by simp at h
  | .error .., .ok .. => .isFalse fun h => by simp at h

/-! ## What every successful run keeps -/

/-- Every successful run of `x` relates the state before to the state after. -/
def Keeps (R : σ → σ → Prop) (x : EStateM ε σ α) : Prop :=
  ∀ s a t, x s = .ok a t → R s t

theorem keeps_pure {R : σ → σ → Prop} [Std.Refl R] (a : α) :
    Keeps R (pure a : EStateM ε σ α) := by
  intro s b t h
  rw [(pure_eq_ok.mp h).2]
  exact Std.Refl.refl t

theorem keeps_bind {R : σ → σ → Prop} [IsTrans σ R] {x : EStateM ε σ α}
    {f : α → EStateM ε σ β} (hx : Keeps R x) (hf : ∀ a, Keeps R (f a)) : Keeps R (x >>= f) := by
  intro s b t h
  obtain ⟨a, u, hxs, hfu⟩ := bind_eq_ok.mp h
  exact IsTrans.trans s u t (hx s a u hxs) (hf a u b t hfu)

theorem keeps_mapM {R : σ → σ → Prop} [Std.Refl R] [IsTrans σ R] {f : α → EStateM ε σ β}
    (hf : ∀ a, Keeps R (f a)) (xs : List α) : Keeps R (xs.mapM f) := by
  induction xs with
  | nil => exact keeps_pure []
  | cons x xs ih =>
    rw [List.mapM_cons]
    exact keeps_bind (hf x) fun _ => keeps_bind ih fun _ => keeps_pure _

/-! ## What every run keeps -/

/-- The state that a run leaves, also one that fails. -/
def after (x : EStateM ε σ α) (s : σ) : σ :=
  match x s with
  | .ok _ t | .error _ t => t

theorem after_of_ok {x : EStateM ε σ α} {a : α} (h : x s = .ok a t) : after x s = t := by
  rw [after, h]

theorem after_of_error {x : EStateM ε σ α} {e : ε} (h : x s = .error e t) : after x s = t := by
  rw [after, h]

/-- Every run of `x` relates the state before to the state after, also one that fails. -/
def Always (R : σ → σ → Prop) (x : EStateM ε σ α) : Prop :=
  ∀ s, R s (after x s)

theorem Always.keeps {R : σ → σ → Prop} {x : EStateM ε σ α} (h : Always R x) : Keeps R x := by
  intro s a t hrun
  have hafter := h s
  rwa [after_of_ok hrun] at hafter

theorem always_pure {R : σ → σ → Prop} [Std.Refl R] (a : α) :
    Always R (pure a : EStateM ε σ α) :=
  fun s => Std.Refl.refl s

/-- A run that fails stops at the state where it does. -/
theorem always_bind {R : σ → σ → Prop} [IsTrans σ R] {x : EStateM ε σ α}
    {f : α → EStateM ε σ β} (hx : Always R x) (hf : ∀ a, Always R (f a)) : Always R (x >>= f) := by
  intro s
  have hrun : (x >>= f) s = EStateM.bind x f s := rfl
  unfold EStateM.bind at hrun
  cases hxs : x s with
  | ok a t =>
    rw [hxs] at hrun
    have hst := hx s
    rw [after_of_ok hxs] at hst
    have hafter : after (x >>= f) s = after (f a) t := by rw [after, after, hrun]
    rw [hafter]
    exact IsTrans.trans s t _ hst (hf a t)
  | error e t =>
    rw [hxs] at hrun
    have hst := hx s
    rw [after_of_error hxs] at hst
    rwa [after_of_error hrun]

theorem always_map {R : σ → σ → Prop} [Std.Refl R] [IsTrans σ R] {x : EStateM ε σ α} (f : α → β)
    (hx : Always R x) : Always R (f <$> x) := by
  have hmap : f <$> x = x >>= fun a => pure (f a) := by
    funext s
    show EStateM.map f x s = EStateM.bind x _ s
    unfold EStateM.map EStateM.bind
    cases x s <;> rfl
  rw [hmap]
  exact always_bind hx fun a => always_pure (f a)

/-! ## What every successful run returns -/

/-- Every successful run of `x` returns a value that `P` holds of. -/
def Returns (P : α → Prop) (x : EStateM ε σ α) : Prop :=
  ∀ s a t, x s = .ok a t → P a

theorem returns_pure {P : α → Prop} {a : α} (h : P a) : Returns P (pure a : EStateM ε σ α) := by
  intro s b t hrun
  rw [← (pure_eq_ok.mp hrun).1]
  exact h

theorem returns_bind {P : β → Prop} {Q : α → Prop} {x : EStateM ε σ α} {f : α → EStateM ε σ β}
    (hx : Returns Q x) (hf : ∀ a, Q a → Returns P (f a)) : Returns P (x >>= f) := by
  intro s b t h
  obtain ⟨a, u, hxs, hfu⟩ := bind_eq_ok.mp h
  exact hf a (hx s a u hxs) u b t hfu

theorem returns_any (x : EStateM ε σ α) : Returns (fun _ => True) x := fun _ _ _ _ => trivial

/-- The value of a step need not matter for what comes after. -/
theorem returns_then {P : β → Prop} {x : EStateM ε σ α} {f : α → EStateM ε σ β}
    (hf : ∀ a, Returns P (f a)) : Returns P (x >>= f) :=
  returns_bind (returns_any x) fun a _ => hf a

theorem returns_map {P : β → Prop} {Q : α → Prop} {x : EStateM ε σ α} {f : α → β}
    (hx : Returns Q x) (hf : ∀ a, Q a → P (f a)) : Returns P (f <$> x) := by
  intro s b t h
  obtain ⟨a, hxs, rfl⟩ := map_eq_ok.mp h
  exact hf a (hx s a t hxs)

theorem returns_error {P : α → Prop} (e : ε) : Returns P (throw e : EStateM ε σ α) := by
  intro s a t h
  change EStateM.Result.error e s = .ok a t at h
  contradiction

theorem returns_mapM {R : α → β → Prop} {f : α → EStateM ε σ β} (hf : ∀ a, Returns (R a) (f a))
    (xs : List α) : Returns (List.Forall₂ R xs) (xs.mapM f) := by
  induction xs with
  | nil => exact returns_pure .nil
  | cons x xs ih =>
    rw [List.mapM_cons]
    exact returns_bind (hf x) fun y hy => returns_bind ih fun ys hys => returns_pure (.cons hy hys)

theorem returns_imp {P Q : α → Prop} {x : EStateM ε σ α} (hP : Returns P x)
    (h : ∀ a, P a → Q a) : Returns Q x :=
  fun s a t hrun => h a (hP s a t hrun)

/-- A traversal of a list keeps `I`, and in the end `P` holds of every value and its result, if
each step establishes `P` for its own value and keeps it for the values before. -/
theorem mapM_forall₂ {I : σ → Prop} {P : α → β → σ → Prop} {f : α → EStateM ε σ β}
    (hstep : ∀ a s b t, I s → f a s = .ok b t → I t ∧ P a b t)
    (hkeep : ∀ a s b t, f a s = .ok b t → ∀ x y, P x y s → P x y t) {xs : List α}
    {ys : List β} (hs : I s) (h : xs.mapM f s = .ok ys t) :
    I t ∧ List.Forall₂ (P · · t) xs ys := by
  -- The step for the first value comes before the others, so `P` of it is carried along.
  suffices hall : ∀ ys, xs.mapM f s = .ok ys t →
      I t ∧ List.Forall₂ (P · · t) xs ys ∧ ∀ x y, P x y s → P x y t by
    obtain ⟨ht, hys, -⟩ := hall ys h
    exact ⟨ht, hys⟩
  clear h ys
  induction xs generalizing s with
  | nil =>
    intro ys h
    rw [List.mapM_nil, pure_eq_ok] at h
    obtain ⟨rfl, rfl⟩ := h
    exact ⟨hs, .nil, fun _ _ hp => hp⟩
  | cons x xs ih =>
    intro ys h
    rw [List.mapM_cons] at h
    obtain ⟨y, u, hy, h⟩ := bind_eq_ok.mp h
    obtain ⟨zs, v, hzs, h⟩ := bind_eq_ok.mp h
    obtain ⟨rfl, rfl⟩ := pure_eq_ok.mp h
    obtain ⟨hu, hxy⟩ := hstep x s y u hs hy
    obtain ⟨hv, hall, hcarry⟩ := ih hu zs hzs
    exact ⟨hv, .cons (hcarry x y hxy) hall, fun a b hp => hcarry a b (hkeep x s y u hy a b hp)⟩

/-! ## Runs that change nothing -/

/-- Every successful run of `x` returns `a` and leaves the state as it was. -/
structure Leaves (a : α) (x : EStateM ε σ α) : Prop where
  returns : Returns (· = a) x
  keeps : Keeps Eq x

theorem leaves_pure (a : α) : Leaves a (pure a : EStateM ε σ α) :=
  ⟨returns_pure rfl, keeps_pure a⟩

/-- A first step that changes nothing, and a second that changes nothing whatever the first may
return. -/
theorem leaves_then {P : α → Prop} {b : β} {x : EStateM ε σ α} {f : α → EStateM ε σ β}
    (hP : Returns P x) (hx : Keeps Eq x) (hf : ∀ a, P a → Leaves b (f a)) : Leaves b (x >>= f) := by
  refine ⟨returns_bind hP fun a ha => (hf a ha).returns, fun s c t h => ?_⟩
  obtain ⟨a, u, hxs, hfu⟩ := bind_eq_ok.mp h
  obtain rfl : s = u := hx s a u hxs
  exact (hf a (hP s a s hxs)).keeps s c t hfu

theorem leaves_bind {a : α} {b : β} {x : EStateM ε σ α} {f : α → EStateM ε σ β} (hx : Leaves a x)
    (hf : Leaves b (f a)) : Leaves b (x >>= f) := by
  refine leaves_then hx.returns hx.keeps ?_
  rintro _ rfl
  exact hf

/-- A traversal that makes a list of a list it is related to. -/
theorem leaves_mapM_of_forall₂ {f : β → EStateM ε σ α} {as : List α} {bs : List β}
    (h : List.Forall₂ (fun a b => Leaves a (f b)) as bs) : Leaves as (bs.mapM f) := by
  induction h with
  | nil => exact leaves_pure []
  | cons hfirst _ ih =>
    rw [List.mapM_cons]
    exact leaves_bind hfirst (leaves_bind ih (leaves_pure _))

theorem leaves_mapM {f : α → EStateM ε σ α} {as : List α} (h : ∀ a ∈ as, Leaves a (f a)) :
    Leaves as (as.mapM f) :=
  leaves_mapM_of_forall₂ (List.forall₂_same.mpr h)

theorem leaves_forM {f : α → EStateM ε σ PUnit} (h : ∀ a, Leaves ⟨⟩ (f a)) (as : List α) :
    Leaves ⟨⟩ (as.forM f) := by
  induction as with
  | nil => exact leaves_pure _
  | cons a as ih => exact leaves_bind (h a) ih

end EStateM

namespace ClassRelabel

variable {σ α β : Type}

/-- A step that only looks something up leaves the state as it is. -/
theorem lift_eq_ok {x : Except Fault α} {s t : σ} {a : α} :
    (liftM x : EStateM Fault σ α) s = .ok a t ↔ x = .ok a ∧ s = t := by
  cases x with
  | ok b => exact EStateM.pure_eq_ok.trans (by simp)
  | error e =>
    show (EStateM.Result.error e s : EStateM.Result Fault σ α) = .ok a t ↔ _
    simp only [reduceCtorEq, false_and]

theorem returns_lift (x : Except Fault α) :
    EStateM.Returns (fun a => x = .ok a) (liftM x : EStateM Fault σ α) :=
  fun _ _ _ h => (lift_eq_ok.mp h).1

theorem keeps_lift {R : σ → σ → Prop} [Std.Refl R] (x : Except Fault α) :
    EStateM.Keeps R (liftM x : EStateM Fault σ α) := by
  intro s a t h
  rw [(lift_eq_ok.mp h).2]
  exact Std.Refl.refl t

/-- A step that only looks something up, in front of one that changes nothing. -/
theorem leaves_lift {x : Except Fault α} {f : α → EStateM Fault σ β} {b : β}
    (hf : ∀ a, x = .ok a → EStateM.Leaves b (f a)) :
    EStateM.Leaves b ((liftM x : EStateM Fault σ α) >>= f) :=
  EStateM.leaves_then (returns_lift x) (keeps_lift x) hf

theorem leaves_look {x : Except Fault α} {a : α} (h : x = .ok a) :
    EStateM.Leaves a (liftM x : EStateM Fault σ α) := by
  subst h
  exact EStateM.leaves_pure a

end ClassRelabel
