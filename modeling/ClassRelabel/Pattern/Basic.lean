/-
Patterns.

A pattern is a regular expression made ready for searching.  What it matches is the business of an
engine, which makes patterns of texts, and all that is said of dictionaries is said of every
engine.  `Pattern` and `Pattern.Engine` hold what can be relied on.
-/
namespace ClassRelabel

/-- Where a match starts and stops, and the spans of the groups from the first one on.  A group
that took no part in the match has none. -/
structure Pattern.Found where
  start : Nat
  stop : Nat
  groups : List (Option (Nat × Nat))
deriving DecidableEq, Repr

structure Pattern where
  source : String
  /-- The number of groups, not counting the whole match. -/
  groups : Nat
  /-- The names of groups with their numbers. -/
  names : List (String × Nat)
  find? : List Char → Option Pattern.Found
  /-- A match is a part of the text. -/
  within : ∀ cs f, find? cs = some f → f.start ≤ f.stop ∧ f.stop ≤ cs.length

namespace Pattern

/-- Makes patterns of texts, or tells what is wrong with a text. -/
structure Engine where
  compile : String → Except String Pattern
  /-- A pattern keeps the text that it was made of. -/
  source_of_compile : ∀ source p, compile source = .ok p → p.source = source

def isMatch (p : Pattern) (s : String) : Bool := (p.find? s.toList).isSome

/-- The text between two offsets. -/
def slice (cs : List Char) (span : Nat × Nat) : List Char :=
  (cs.drop span.1).take (span.2 - span.1)

/-- The span of a numbered group, which is the whole match for number zero. -/
def Found.group? (f : Found) : Nat → Option (Nat × Nat)
  | 0 => some (f.start, f.stop)
  | index + 1 => f.groups[index]?.join

/-- The text of a numbered group in a match, if the group took part in it. -/
def groupText? (cs : List Char) (f : Found) (index : Nat) : Option (List Char) :=
  (f.group? index).map (slice cs)

/-- A match cuts the text in three. -/
theorem append_slice {p : Pattern} {cs : List Char} {f : Found} (h : p.find? cs = some f) :
    cs.take f.start ++ slice cs (f.start, f.stop) ++ cs.drop f.stop = cs := by
  obtain ⟨hle, -⟩ := p.within cs f h
  have hstop : cs.drop f.stop = (cs.drop f.start).drop (f.stop - f.start) := by
    rw [List.drop_drop, Nat.add_sub_cancel' hle]
  rw [slice, hstop, List.append_assoc, List.take_append_drop, List.take_append_drop]

end Pattern
end ClassRelabel
