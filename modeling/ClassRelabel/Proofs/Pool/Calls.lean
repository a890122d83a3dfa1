/-
Histories of a pool.

A pool starts empty or as it was read, and goes through a list of calls, each from the pool that the
call before it left, also if that one failed.  What every call keeps, the list keeps
(`afterCalls_of_always`).
-/
import ClassRelabel.Proofs.Pool.Regular

namespace ClassRelabel

open EStateM

namespace Pool

variable {p q : Pool} {c : Constant} {i : Index}

/-! ## Interning -/

section Always

variable {R : Pool → Pool → Prop}

/-- Interning changes a pool by a push at most. -/
theorem always_intern [Std.Refl R] (h : Always R (push c)) : Always R (intern c) := by
  intro p
  cases hlookup : p.lookup? c with
  | some i =>
    rw [after_of_ok (intern_of_lookup? hlookup)]
    exact Std.Refl.refl p
  | none =>
    have hafter : after (intern c) p = after (push c) p := by
      rw [after, after, intern_of_lookup?_none hlookup]
    rw [hafter]
    exact h p

theorem always_internText [Std.Refl R] {s : String} (h : Always R (push (.utf8 s))) :
    Always R (internText s) :=
  always_intern h

theorem always_internClass [Std.Refl R] [IsTrans Pool R] {name : String}
    (hname : Always R (push (.utf8 name))) (hclass : ∀ n, Always R (push (.classRef n))) :
    Always R (internClass name) :=
  always_bind (always_internText hname) fun n => always_intern (hclass n)

theorem always_internPair [Std.Refl R] [IsTrans Pool R] {name descriptor : String}
    (hname : Always R (push (.utf8 name))) (hdescriptor : Always R (push (.utf8 descriptor)))
    (hpair : ∀ a b, Always R (push (.nameAndType a b))) : Always R (internPair name descriptor) :=
  always_bind (always_internText hname) fun a =>
    always_bind (always_internText hdescriptor) fun b => always_intern (hpair a b)

end Always

/-! ## Calls -/

/-- A change to a pool. -/
inductive Call where
  | push (c : Constant)
  | replace (i : Index) (c : Constant)
  | internText (s : String)
  | internClass (name : String)
  | internPair (name descriptor : String)

/-- Makes a call.  A replacement gives no index. -/
def Call.run : Call → PoolM (Option Index)
  | push c => some <$> Pool.push c
  | replace i c => (fun _ => none) <$> Pool.replace i c
  | internText s => some <$> Pool.internText s
  | internClass name => some <$> Pool.internClass name
  | internPair name descriptor => some <$> Pool.internPair name descriptor

/-- The pool after the calls, some of which may have failed. -/
def afterCalls (p : Pool) (calls : List Call) : Pool :=
  calls.foldl (fun p call => after call.run p) p

/-- A new pool, or one that was read. -/
def Start (p : Pool) : Prop :=
  p = empty ∨ ∃ c c', read c = .ok p c'

theorem Start.regular (h : p.Start) : p.Regular := by
  rcases h with rfl | ⟨c, c', hread⟩
  · exact regular_empty
  · exact returns_regular_read c p c' hread

/-- What every call keeps, a list of calls keeps. -/
theorem afterCalls_of_always {R : Pool → Pool → Prop} [Std.Refl R] [IsTrans Pool R]
    {calls : List Call} (h : ∀ call ∈ calls, Always R call.run) (p : Pool) :
    R p (p.afterCalls calls) := by
  induction calls generalizing p with
  | nil => exact Std.Refl.refl p
  | cons call calls ih =>
    have hfirst : R p (after call.run p) := h call List.mem_cons_self p
    have hrest := ih (fun later hlater => h later (List.mem_cons_of_mem call hlater))
      (after call.run p)
    exact IsTrans.trans p _ _ hfirst hrest

end Pool
end ClassRelabel
