/-
Searching a text by a program.

The search tries the branches of a program in their order of preference and the places of the
text from left to right.  A step that was tried at a place once has failed there and is not tried
again, so the work is bounded by the number of steps times the number of places.  No place is
outside of the text, so a match is a part of it (`search_within`).
-/
import ClassRelabel.Pattern.Basic
import ClassRelabel.Pattern.Program

namespace ClassRelabel
namespace Pattern

structure Place where
  offset : Nat
  before : Option Char
  after : List Char
deriving DecidableEq, Repr

/-- A step to be tried at a place, with the marks made on the way, the last one first. -/
structure Attempt where
  step : Nat
  place : Place
  marks : List (Nat × Nat)
deriving DecidableEq, Repr

namespace Place

def start (cs : List Char) : Place := ⟨0, none, cs⟩

def wordBefore (p : Place) : Bool := p.before.any Text.isWord

def wordAfter (p : Place) : Bool := p.after.head?.any Text.isWord

def satisfies (p : Place) : Look → Bool
  | .start => p.before.isNone
  | .stop => p.after.isEmpty
  | .lineStart => p.before.isNone || p.before == some '\n'
  | .lineStop => p.after.isEmpty || p.after.head? == some '\n'
  | .boundary => p.wordBefore != p.wordAfter
  | .noBoundary => p.wordBefore == p.wordAfter
  | .wordStart => !p.wordBefore && p.wordAfter
  | .wordStop => p.wordBefore && !p.wordAfter
  | .wordStartHalf => !p.wordBefore
  | .wordStopHalf => !p.wordAfter

end Place

namespace Attempt

/-- What an attempt leads to, the preferred one first, unless it ends in a match. -/
def next (p : Program) (a : Attempt) : Option (List Attempt) :=
  match p[a.step]? with
  | none => some []
  | some .accept => none
  | some (.take s step) =>
    match a.place.after with
    | [] => some []
    | c :: rest =>
      if s.mem c then some [{ a with step, place := ⟨a.place.offset + 1, some c, rest⟩ }]
      else some []
  | some (.look l step) => some (if a.place.satisfies l then [{ a with step }] else [])
  | some (.mark slot step) =>
    some [{ a with step, marks := (slot, a.place.offset) :: a.marks }]
  | some (.split first second) => some [{ a with step := first }, { a with step := second }]

end Attempt

/-- Tries attempts in order.  `tried` tells for each place and step whether it was tried, the
steps of one place together.  The result of success is the last attempt. -/
def run (p : Program) : Nat → List Attempt → Array Bool → Option Attempt × Array Bool
  | 0, _, tried => (none, tried)
  | _ + 1, [], tried => (none, tried)
  | fuel + 1, a :: rest, tried =>
    let key := a.place.offset * p.size + a.step
    if tried.getD key true then
      run p fuel rest tried
    else
      match a.next p with
      | none => (some a, tried)
      | some more => run p fuel (more ++ rest) (tried.setIfInBounds key true)

namespace Attempt

/-- The span of a group by the marks that were made last for its ends. -/
def span? (a : Attempt) (index : Nat) : Option (Nat × Nat) :=
  match a.marks.lookup (2 * index), a.marks.lookup (2 * index + 1) with
  | some start, some stop => some (start, stop)
  | _, _ => none

/-- The match that an attempt has come to from the offset `start` on. -/
def found (a : Attempt) (groups start : Nat) : Found :=
  ⟨start, a.place.offset, (List.range groups).map fun i => a.span? (i + 1)⟩

end Attempt

/-- Searches from a place on and then from the places after it. -/
def searchFrom (p : Program) (groups start fuel : Nat) (tried : Array Bool) (before : Option Char)
    (offset : Nat) (cs : List Char) : Option Found :=
  match run p fuel [⟨start, ⟨offset, before, cs⟩, []⟩] tried with
  | (some a, _) => some (a.found groups offset)
  | (none, tried) =>
    match cs with
    | [] => none
    | c :: rest => searchFrom p groups start fuel tried (some c) (offset + 1) rest

def search (p : Program) (groups start : Nat) (cs : List Char) : Option Found :=
  let pairs := p.size * (cs.length + 1)
  searchFrom p groups start (2 * pairs + 2) (.replicate pairs false) none 0 cs

/-! ## Matches are parts of the text -/

/-- The place is one of a text with `length` characters, and not in front of the offset `first`. -/
structure Place.Inside (first length : Nat) (p : Place) : Prop where
  first_le : first ≤ p.offset
  length : p.offset + p.after.length = length

theorem Place.Inside.offset_le {first length : Nat} {p : Place} (h : p.Inside first length) :
    p.offset ≤ length := by
  have hlength := h.length
  omega

theorem Attempt.inside_next {p : Program} {a b : Attempt} {more : List Attempt} {first length : Nat}
    (ha : a.place.Inside first length) (h : a.next p = some more) (hb : b ∈ more) :
    b.place.Inside first length := by
  rw [next] at h
  split at h
  · obtain rfl := Option.some.inj h
    simp at hb
  · simp at h
  · split at h
    · obtain rfl := Option.some.inj h
      simp at hb
    · rename_i c rest hafter
      split at h
      · obtain rfl := Option.some.inj h
        obtain rfl := List.mem_singleton.mp hb
        have hlength := ha.length
        rw [hafter, List.length_cons] at hlength
        exact ⟨Nat.le_succ_of_le ha.first_le, by simp only; omega⟩
      · obtain rfl := Option.some.inj h
        simp at hb
  · obtain rfl := Option.some.inj h
    split at hb
    · obtain rfl := List.mem_singleton.mp hb
      exact ha
    · simp at hb
  · obtain rfl := Option.some.inj h
    obtain rfl := List.mem_singleton.mp hb
    exact ha
  · obtain rfl := Option.some.inj h
    rcases List.mem_cons.mp hb with rfl | hb
    · exact ha
    · obtain rfl := List.mem_singleton.mp hb
      exact ha

theorem inside_run {p : Program} {fuel : Nat} {attempts : List Attempt} {tried tried' : Array Bool}
    {a : Attempt} {first length : Nat} (hall : ∀ b ∈ attempts, b.place.Inside first length)
    (h : run p fuel attempts tried = (some a, tried')) : a.place.Inside first length := by
  fun_induction run p fuel attempts tried with
  | case1 | case2 => simp at h
  | case3 fuel b rest tried key htried ih =>
    exact ih (fun c hc => hall c (List.mem_cons_of_mem _ hc)) h
  | case4 fuel b rest tried key _ _ =>
    obtain ⟨hb, -⟩ := Prod.mk.inj h
    obtain rfl := Option.some.inj hb
    exact hall b List.mem_cons_self
  | case5 fuel b rest tried key _ more hmore ih =>
    refine ih (fun c hc => ?_) h
    rcases List.mem_append.mp hc with hc | hc
    · exact Attempt.inside_next (hall b List.mem_cons_self) hmore hc
    · exact hall c (List.mem_cons_of_mem _ hc)

theorem searchFrom_within {p : Program} {groups start fuel : Nat} {tried : Array Bool}
    {before : Option Char} {offset : Nat} {cs : List Char} {f : Found}
    (h : searchFrom p groups start fuel tried before offset cs = some f) :
    f.start ≤ f.stop ∧ f.stop ≤ offset + cs.length := by
  fun_induction searchFrom p groups start fuel tried before offset cs with
  | case1 cs tried before offset a _ hrun =>
    obtain rfl := Option.some.inj h
    have hinside : a.place.Inside offset (offset + cs.length) :=
      inside_run (List.forall_mem_singleton.mpr ⟨Nat.le_refl offset, rfl⟩) hrun
    exact ⟨hinside.first_le, hinside.offset_le⟩
  | case2 => simp at h
  | case3 tried before offset tried' c rest _ ih =>
    obtain ⟨hle, hstop⟩ := ih h
    exact ⟨hle, by rw [List.length_cons]; omega⟩

/-- What is found starts before it stops, and stops before the text does. -/
theorem search_within {p : Program} {groups start : Nat} {cs : List Char} {f : Found}
    (h : search p groups start cs = some f) : f.start ≤ f.stop ∧ f.stop ≤ cs.length := by
  have hwithin := searchFrom_within h
  rwa [Nat.zero_add] at hwithin

end Pattern
end ClassRelabel
