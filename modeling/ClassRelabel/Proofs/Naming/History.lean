/-
Histories of the names of a method.

Names are reserved, claimed and deduced in any order, each call from the names that the call before
it left, also one that failed.  `Step.Sound` says what one call does, and `names_of_history` that
every call of a history does it and that the names that are given differ from all that were given or
reserved before.
-/
import ClassRelabel.Proofs.Naming.Used

namespace ClassRelabel
namespace UsedNames

/-! ## Calls -/

inductive Call where
  | reserve (name : String)
  | claim (wish : String)
  | deduce (p : Parameter) (d : Dictionary) (rawName type : String)

/-- Makes a call.  One that reserves a name answers with it. -/
def Call.run : Call → NamesM String
  | reserve name => modifyGet fun u => (name, u.reserve name)
  | claim wish => modifyGet fun u => u.claim wish
  | deduce p d rawName type => p.deduce d rawName type

/-- A call that was made, with the names before and after it. -/
structure Step where
  call : Call
  before : UsedNames
  answer : Except Fault String
  after : UsedNames

def step (u : UsedNames) (c : Call) : Step :=
  match c.run u with
  | .ok name after => ⟨c, u, .ok name, after⟩
  | .error e after => ⟨c, u, .error e, after⟩

/-- The calls one after the other. -/
def history : UsedNames → List Call → List Step
  | _, [] => []
  | u, c :: cs => u.step c :: history (u.step c).after cs

namespace Call

/-- The name that a call asks for. -/
inductive Wishes : Call → String → Prop
  | claim (wish : String) : Wishes (.claim wish) wish
  | deduce {p : Parameter} {d : Dictionary} {rawName type : String} {t : FieldType}
      (parsed : FieldType.parse type = .ok t) : Wishes (.deduce p d rawName type) (d.wish t)

/-- A name is deduced for what is called like a receiver. -/
inductive OfReceiver : Call → Prop
  | deduce {p : Parameter} {d : Dictionary} {rawName type : String}
      (h : rawName.toLower = receiverName) : OfReceiver (.deduce p d rawName type)

inductive IsDeduction : Call → Prop
  | deduce (p : Parameter) (d : Dictionary) (rawName type : String) :
      IsDeduction (.deduce p d rawName type)

end Call

namespace Step

/-- The name that a call gives.  A receiver is given none. -/
def given? (s : Step) : Option String :=
  match s.call, s.answer with
  | .reserve _, _ | _, .error _ => none
  | .claim _, .ok name => some name
  | .deduce _ _ rawName _, .ok name => if rawName.toLower = receiverName then none else some name

/-- The name that a call takes. -/
def taken? (s : Step) : Option String :=
  match s.call with
  | .reserve name => some name
  | _ => s.given?

structure Sound (s : Step) : Prop where
  chosen : ∀ name, s.given? = some name → ∃ wish, s.call.Wishes wish ∧ s.before.Chosen wish name
  added : ∀ other, s.after.contains other = true ↔
    s.taken? = some other ∨ s.before.contains other = true
  unchanged : s.call.OfReceiver ∨ (∃ e, s.answer = .error e) → s.after = s.before
  /-- A deduction fails only where the type or the wish gives no name. -/
  refused : ∀ e, s.answer = .error e → ∀ wish, s.call.Wishes wish → ¬IsParameterName wish
  spelled : s.call.IsDeduction → ∀ name, s.given? = some name → IsParameterName name

end Step

/-! ## One call -/

variable {u used : UsedNames} {c : Call} {p : Parameter} {d : Dictionary}
  {name rawName type : String} {e : Fault}

theorem step_of_ok (h : c.run u = .ok name used) : u.step c = ⟨c, u, .ok name, used⟩ := by
  rw [step, h]

theorem step_of_error (h : c.run u = .error e used) : u.step c = ⟨c, u, .error e, used⟩ := by
  rw [step, h]

theorem before_step (u : UsedNames) (c : Call) : (u.step c).before = u := by
  cases h : c.run u with
  | ok name used => rw [step_of_ok h]
  | error e used => rw [step_of_error h]

theorem Chosen.isParameterName {base name : String} (h : u.Chosen base name)
    (hbase : IsParameterName base) : IsParameterName name := by
  cases h with
  | wish => exact hbase
  | counted => exact hbase.numbered _

theorem sound_reserve (u : UsedNames) (name : String) : (u.step (.reserve name)).Sound := by
  have hnone : (u.step (.reserve name)).given? = none := rfl
  refine ⟨fun _ h => ?_, fun other => ?_, ?_, fun e h => ?_, fun h => ?_⟩
  · simp [hnone] at h
  · show (u.reserve name).contains other = true ↔ some name = some other ∨ _
    rw [Option.some.injEq]
    exact contains_reserve.trans (or_congr_left eq_comm)
  · rintro (h | ⟨e, h⟩)
    · nomatch h
    · nomatch h
  · nomatch h
  · nomatch h

theorem sound_claim (u : UsedNames) (wish : String) : (u.step (.claim wish)).Sound := by
  refine ⟨fun name h => ?_, fun other => ?_, ?_, fun e h => ?_, fun h => ?_⟩
  · obtain rfl : (u.claim wish).1 = name := Option.some.inj h
    exact ⟨wish, .claim wish, u.chosen_freeName wish⟩
  · show (u.claim wish).2.contains other = true ↔ some (u.claim wish).1 = some other ∨ _
    rw [Option.some.injEq]
    exact contains_claim.trans (or_congr_left eq_comm)
  · rintro (h | ⟨e, h⟩)
    · nomatch h
    · nomatch h
  · nomatch h
  · nomatch h

theorem sound_receiver (h : rawName.toLower = receiverName) :
    (u.step (.deduce p d rawName type)).Sound := by
  have hstep : u.step (.deduce p d rawName type) =
      ⟨.deduce p d rawName type, u, .ok rawName, u⟩ := step_of_ok (Parameter.deduce_of_receiver h)
  have hnone : Step.given? ⟨.deduce p d rawName type, u, .ok rawName, u⟩ = none := if_pos h
  rw [hstep]
  refine ⟨fun name hname => ?_, fun other => ?_, fun _ => rfl, fun e he => ?_,
    fun _ name hname => ?_⟩
  · simp [hnone] at hname
  · simp [Step.taken?, hnone]
  · nomatch he
  · simp [hnone] at hname

theorem sound_refused (hne : rawName.toLower ≠ receiverName)
    (h : p.deduce d rawName type u = .error e used) :
    (u.step (.deduce p d rawName type)).Sound := by
  obtain rfl := Parameter.deduce_eq_error h
  have hstep : used.step (.deduce p d rawName type) =
      ⟨.deduce p d rawName type, used, .error e, used⟩ := step_of_error h
  rw [hstep]
  refine ⟨fun name hname => ?_, fun other => ?_, fun _ => rfl, fun e' _ wish hwish hname => ?_,
    fun _ name hname => ?_⟩
  · simp [Step.given?] at hname
  · simp [Step.taken?, Step.given?]
  · cases hwish with
    | @deduce _ _ _ _ t parsed =>
      have hok : p.deduce d rawName type used =
          .ok (used.claim (d.wish t)).1 (used.claim (d.wish t)).2 :=
        Parameter.deduce_eq_ok_iff.mpr (Or.inr ⟨hne, t, parsed, hname, rfl⟩)
      rw [h] at hok
      nomatch hok
  · simp [Step.given?] at hname

theorem sound_deduced (hne : rawName.toLower ≠ receiverName)
    (h : p.deduce d rawName type u = .ok name used) :
    (u.step (.deduce p d rawName type)).Sound := by
  have hstep : u.step (.deduce p d rawName type) =
      ⟨.deduce p d rawName type, u, .ok name, used⟩ := step_of_ok h
  have hgiven : Step.given? ⟨.deduce p d rawName type, u, .ok name, used⟩ = some name := if_neg hne
  have htaken : Step.taken? ⟨.deduce p d rawName type, u, .ok name, used⟩ = some name := hgiven
  obtain ⟨hreceiver, -⟩ | ⟨-, t, parsed, hwish, hclaim⟩ := Parameter.deduce_eq_ok_iff.mp h
  · exact absurd hreceiver hne
  obtain ⟨rfl, rfl⟩ := Prod.mk.inj hclaim
  have hchosen := u.chosen_freeName (d.wish t)
  rw [hstep]
  refine ⟨fun name hname => ?_, fun other => ?_, ?_, fun e he => ?_, fun _ name hname => ?_⟩
  · obtain rfl := Option.some.inj (hgiven.symm.trans hname)
    exact ⟨_, .deduce parsed, hchosen⟩
  · rw [htaken, Option.some.injEq]
    exact contains_claim.trans (or_congr_left eq_comm)
  · rintro (hreceiver | ⟨e, he⟩)
    · cases hreceiver with
      | deduce hreceiver => exact absurd hreceiver hne
    · nomatch he
  · nomatch he
  · obtain rfl := Option.some.inj (hgiven.symm.trans hname)
    exact hchosen.isParameterName hwish

theorem sound_deduce (u : UsedNames) (p : Parameter) (d : Dictionary) (rawName type : String) :
    (u.step (.deduce p d rawName type)).Sound := by
  by_cases hreceiver : rawName.toLower = receiverName
  · exact sound_receiver hreceiver
  · cases h : p.deduce d rawName type u with
    | error e used => exact sound_refused hreceiver h
    | ok name used => exact sound_deduced hreceiver h

/-- What one call does. -/
theorem sound_step (u : UsedNames) (c : Call) : (u.step c).Sound := by
  cases c with
  | reserve name => exact u.sound_reserve name
  | claim wish => exact u.sound_claim wish
  | deduce p d rawName type => exact u.sound_deduce p d rawName type

/-! ## All calls -/

/-- Names stay taken. -/
theorem contains_before_of_history {s : Step} {cs : List Call} (hs : s ∈ history u cs)
    {name : String} (h : u.contains name = true) : s.before.contains name = true := by
  induction cs generalizing u with
  | nil => simp [history] at hs
  | cons c cs ih =>
    rcases List.mem_cons.mp hs with rfl | hs
    · rwa [before_step]
    · refine ih hs (((u.sound_step c).added name).mpr (Or.inr ?_))
      rwa [before_step]

theorem sound_of_history {s : Step} {cs : List Call} (hs : s ∈ history u cs) : s.Sound := by
  induction cs generalizing u with
  | nil => simp [history] at hs
  | cons c cs ih =>
    rcases List.mem_cons.mp hs with rfl | hs
    · exact u.sound_step c
    · exact ih hs

/-- A name that a call takes is given by no later call, because a name that is given was free. -/
theorem pairwise_history (u : UsedNames) (cs : List Call) :
    (history u cs).Pairwise fun s t => ∀ name, t.given? = some name → s.taken? ≠ some name := by
  induction cs generalizing u with
  | nil => exact .nil
  | cons c cs ih =>
    refine List.pairwise_cons.mpr ⟨fun t ht name hgiven htaken => ?_, ih _⟩
    have hafter := ((u.sound_step c).added name).mpr (Or.inl htaken)
    obtain ⟨wish, -, hchosen⟩ := (sound_of_history ht).chosen name hgiven
    exact Bool.eq_false_iff.mp hchosen.free (contains_before_of_history ht hafter)

/-- Whatever calls are made, a name that is given is the wish or the wish with the least counter
with which it is free, nothing else is taken, and a deduced name is one that a parameter can have.
No name is given that was given or reserved before. -/
theorem names_of_history (start : UsedNames) (calls : List Call) :
    (∀ s ∈ history start calls, s.Sound) ∧
      (history start calls).Pairwise fun s t =>
        ∀ name, t.given? = some name → s.taken? ≠ some name :=
  ⟨fun _ hs => sound_of_history hs, start.pairwise_history calls⟩

/-! ## A history of six calls

The wish `foo` is reserved, so the parameter of type `Foo` is called `foo1`, which the claim after
it wishes for.  A receiver and a keyword take nothing. -/

namespace SixCalls

def parameter : Parameter := ⟨⟨"A", "m", "(La/Foo;La/This;La/Int;[I)V"⟩, 1⟩

def calls : List Call :=
  [.reserve "foo", .deduce parameter ⟨[]⟩ "p" "La/Foo;", .claim "foo1",
    .deduce parameter ⟨[]⟩ "This" "La/This;", .deduce parameter ⟨[]⟩ "q" "La/Int;",
    .deduce parameter ⟨[]⟩ "r" "[I"]

end SixCalls

theorem names_of_history_sixCalls :
    (history empty SixCalls.calls).map Step.given? =
        [none, some "foo1", some "foo11", none, none, some "ai"] ∧
      (∀ s ∈ history empty SixCalls.calls, s.Sound) ∧
        (history empty SixCalls.calls).Pairwise fun s t =>
          ∀ name, t.given? = some name → s.taken? ≠ some name :=
  ⟨by decide +kernel, names_of_history empty SixCalls.calls⟩

end UsedNames
end ClassRelabel
