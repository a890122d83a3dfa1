/-
What a step of a relabelling comes to in the end.

A step returns indices into a pool that goes on growing, and they are followed in the pool that
the whole run leaves.  `Yields r final P x` speaks of that pool from the start: every run of the
step `x` grows the pool, and if `final` comes of what it leaves then `P` holds of its result.  The
rules pass from the steps to the whole with no word about the pools in between.
-/
import ClassRelabel.Proofs.Relabel.Linking
import ClassRelabel.Proofs.Relabel.Frame

namespace ClassRelabel

open EStateM Codec Pool

/-- The index `j` spells in `q` what `rename` makes of the text at the index `i` of `p`. -/
def Respelled (p q : Pool) (rename : String → Except Fault String) (i j : Index) : Prop :=
  ∃ old new, p.text i = .ok old ∧ rename old = .ok new ∧ q.text j = .ok new

namespace Relabelling

variable {r : Relabelling} {final : Pool} {α β : Type}

def Yields (r : Relabelling) (final : Pool) (P : α → Prop) (x : PoolM α) : Prop :=
  ∀ p a q, Underway r p → x p = .ok a q → Grows p q ∧ (Extends q final → P a)

/-! ## From the steps to the whole -/

theorem yields_pure {P : α → Prop} {a : α} (h : P a) : Yields r final P (pure a) := by
  intro p b q _ hrun
  obtain ⟨rfl, rfl⟩ := pure_eq_ok.mp hrun
  exact ⟨Grows.refl p, fun _ => h⟩

/-- What the first step comes to is known only once the second has grown the pool as well, so it
is a premise of what the second comes to. -/
theorem yields_bind {P : β → Prop} {Q : α → Prop} {x : PoolM α} {f : α → PoolM β}
    (hx : Yields r final Q x) (hf : ∀ a, Yields r final (fun b => Q a → P b) (f a)) :
    Yields r final P (x >>= f) := by
  intro p b q hp h
  obtain ⟨a, u, hxs, hfu⟩ := bind_eq_ok.mp h
  obtain ⟨hpu, ha⟩ := hx p a u hp hxs
  obtain ⟨huq, hb⟩ := hf a u b q (hp.grow hpu).1 hfu
  exact ⟨hpu.trans huq, fun hext => hb hext (ha (huq.keeps.trans hext))⟩

/-- A step that only looks something up. -/
theorem yields_lift {P : β → Prop} {x : Except Fault α} {f : α → PoolM β}
    (hf : ∀ a, x = .ok a → Yields r final P (f a)) :
    Yields r final P ((liftM x : PoolM α) >>= f) := by
  intro p b q hp h
  obtain ⟨a, u, hxs, hfu⟩ := bind_eq_ok.mp h
  obtain ⟨ha, rfl⟩ := lift_eq_ok.mp hxs
  exact hf a ha p b q hp hfu

/-- A last step that only looks something up. -/
theorem yields_look (x : Except Fault α) :
    Yields r final (fun a => x = .ok a) (liftM x : PoolM α) := by
  intro p a q _ h
  obtain ⟨ha, rfl⟩ := lift_eq_ok.mp h
  exact ⟨Grows.refl p, fun _ => ha⟩

/-- A step whose result does not matter. -/
theorem yields_any {x : PoolM α} (hx : Keeps Grows x) : Yields r final (fun _ => True) x :=
  fun p a q _ hrun => ⟨hx p a q hrun, fun _ => trivial⟩

theorem Yields.imp {P Q : α → Prop} {x : PoolM α} (hx : Yields r final P x)
    (h : ∀ a, P a → Q a) : Yields r final Q x := by
  intro p a q hp hrun
  obtain ⟨hgrows, ha⟩ := hx p a q hp hrun
  exact ⟨hgrows, fun hext => h a (ha hext)⟩

/-- What a step comes to under an assumption. -/
theorem yields_of_imp {A : Prop} {P : α → Prop} {x : PoolM α} (hgrows : Keeps Grows x)
    (hx : A → Yields r final P x) : Yields r final (fun a => A → P a) x := fun p a q hp hrun =>
  ⟨hgrows p a q hrun, fun hext hA => (hx hA p a q hp hrun).2 hext⟩

/-- What is known of a result whatever the pools are. -/
theorem Yields.and_returns {P Q : α → Prop} {x : PoolM α} (hx : Yields r final P x)
    (hQ : Returns Q x) : Yields r final (fun a => P a ∧ Q a) x := by
  intro p a q hp hrun
  obtain ⟨hgrows, ha⟩ := hx p a q hp hrun
  exact ⟨hgrows, fun hext => ⟨ha hext, hQ p a q hrun⟩⟩

theorem yields_mapM {R : α → β → Prop} {f : α → PoolM β} (hf : ∀ a, Yields r final (R a) (f a))
    (xs : List α) : Yields r final (List.Forall₂ R xs) (xs.mapM f) := by
  induction xs with
  | nil => exact yields_pure .nil
  | cons x xs ih =>
    rw [List.mapM_cons]
    exact yields_bind (hf x) fun y => yields_bind ih fun ys => yields_pure fun hys hy =>
      .cons hy hys

/-- What was made during a run is what its step comes to. -/
theorem Made.of_yields {P : β → Prop} {f : α → PoolM β} {a : α} {b : β} (h : Made r final f a b)
    (hf : Yields r final P (f a)) : P b := by
  obtain ⟨p, q, hp, hrun, -, hext⟩ := h
  exact (hf p b q hp hrun).2 hext

/-! ## Indices that are pointed at new names -/

theorem yields_redirect (i : Index) (new : String) :
    Yields r final (fun j => final.text j = .ok new) (r.redirect i new) := fun p j q hp h =>
  ⟨r.keeps_redirect i new p j q h, fun hext => hext.text (text_redirect h hp.wellFormed hp.revises)⟩

theorem yields_redirectPair (i : Index) (new : NamedType) :
    Yields r final (fun j => final.namedType j = .ok new) (r.redirectPair i new) := fun p j q hp h =>
  ⟨r.keeps_redirectPair i new p j q h, fun hext =>
    hext.revises.namedType (namedType_redirectPair h hp.wellFormed hp.revises)⟩

/-- A text that is looked up, renamed and pointed at again. -/
theorem yields_respelled (rename : String → Except Fault String) (i : Index) :
    Yields r final (Respelled r.source final rename i)
      (do r.redirect i (← rename (← r.source.text i))) :=
  yields_lift fun old hold => yields_lift fun new hnew =>
    (yields_redirect i new).imp fun _ hj => ⟨old, new, hold, hnew, hj⟩

/-! ## Payloads -/

/-- A payload that can be read again.  `P` holds of what is read and is kept by the relabelling. -/
theorem yields_payload {codec : Codec α} {P : α → Prop} {R : α → α → Prop}
    {relabel : α → PoolM α} (hread : Returns P codec.read) (hcodec : codec.FaithfulOn P)
    (hkeep : ∀ a, Returns (fun b => P a → P b) (relabel a))
    (hrelabel : ∀ a, Yields r final (R a) (relabel a)) (bs : Bytes) :
    Yields r final (SamePayload codec R bs) (payload codec relabel bs) := by
  refine yields_lift fun a ha => yields_bind ((hrelabel a).and_returns (hkeep a)) fun b =>
    (yields_look (codec.write b)).imp fun new hnew ⟨hab, hvalid⟩ => ⟨a, b, ha, ?_, hab⟩
  exact hcodec.decode_eq_ok (hvalid (Reader.of_all_eq_ok hread ha)) hnew

/-- The same where every value is read back. -/
theorem yields_faithfulPayload {codec : Codec α} {R : α → α → Prop} {relabel : α → PoolM α}
    (hcodec : codec.Faithful) (hrelabel : ∀ a, Yields r final (R a) (relabel a)) (bs : Bytes) :
    Yields r final (SamePayload codec R bs) (payload codec relabel bs) :=
  yields_payload (returns_any _) hcodec.faithfulOn
    (fun _ => returns_imp (returns_any _) fun _ _ => id) hrelabel bs

/-- An attribute whose payload alone is relabelled. -/
theorem yields_via {codec : Codec α} {relabel : α → PoolM α} {a : Attribute}
    {R : String → Bytes → Bytes → Prop} {name : String} (hname : r.source.text a.name = .ok name)
    (h : Yields r final (R name a.payload) (payload codec relabel a.payload)) :
    Yields r final (Attribute.Kept r.source R a)
      (do return { a with payload := ← payload codec relabel a.payload }) :=
  yields_bind h fun _ => yields_pure fun hnew => ⟨rfl, name, hname, hnew⟩

end Relabelling
end ClassRelabel
