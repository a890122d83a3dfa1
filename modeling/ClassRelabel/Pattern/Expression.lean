/-
Regular expressions as trees.

An expression that may be repeated a set number of times, or that only matches the empty text, is
brought to a simple form by `Expression.repeated`.  The measures of this module bound what an
expression takes: how short a text it matches, how deep it nests and how long its program is.
-/
import ClassRelabel.Pattern.CharSet

namespace ClassRelabel
namespace Pattern

/-- A condition on the characters before and after a place in the text. -/
inductive Look where
  | start
  | stop
  | lineStart
  | lineStop
  | boundary
  | noBoundary
  | wordStart
  | wordStop
  | wordStartHalf
  | wordStopHalf
deriving DecidableEq, Repr

inductive Expression where
  | empty
  | set (s : CharSet)
  | look (l : Look)
  | group (index : Nat) (e : Expression)
  | seq (a b : Expression)
  | alt (a b : Expression)
  /-- At least `min` and at most `max` times, as often as possible if `greedy`. -/
  | loop (e : Expression) (min : Nat) (max : Option Nat) (greedy : Bool)
deriving DecidableEq, Repr

namespace Expression

/-- The length of the shortest text matched, looks left aside. -/
def minLength : Expression → Nat
  | empty | look _ => 0
  | set _ => 1
  | group _ e => e.minLength
  | seq a b => a.minLength + b.minLength
  | alt a b => min a.minLength b.minLength
  | loop e least _ _ => e.minLength * least

/-- Whether only the empty text is matched. -/
def isBlank : Expression → Bool
  | empty | look _ => true
  | set _ => false
  | group _ e => e.isBlank
  | seq a b => a.isBlank && b.isBlank
  | alt a b => a.isBlank && b.isBlank
  | loop e _ most _ => e.isBlank || most == some 0

/-- One more than the last group. -/
def groups : Expression → Nat
  | empty | look _ | set _ => 1
  | group index e => max (index + 1) e.groups
  | seq a b => max a.groups b.groups
  | alt a b => max a.groups b.groups
  | loop e _ _ _ => e.groups

/-- A bound on the number of steps of the program. -/
def size : Expression → Nat
  | empty => 0
  | set _ | look _ => 1
  | group _ e => e.size + 2
  | seq a b => a.size + b.size
  | alt a b => a.size + b.size + 1
  | loop e least none _ => (e.size + 1) * (least + 1) + 1
  | loop e least (some most) _ => (e.size + 1) * max least most

/-- A repetition.  No repetition at all is the empty expression, one is the expression itself, and
what matches only the empty text need not be repeated more than once. -/
def repeated (e : Expression) (least : Nat) (most : Option Nat) (greedy : Bool) : Expression :=
  let (least, most) :=
    if e.isBlank then (min least 1, some (min (most.getD 1) 1)) else (least, most)
  if least = 0 ∧ most = some 0 then empty
  else if least = 1 ∧ most = some 1 then e
  else loop e least most greedy

/-- Expressions one after the other. -/
def sequence : List Expression → Expression
  | [] => empty
  | [e] => e
  | e :: rest => seq e (sequence rest)

/-- A choice between expressions, the earlier one preferred. -/
def choice : List Expression → Expression
  | [] => empty
  | [e] => e
  | e :: rest => alt e (choice rest)

end Expression
end Pattern
end ClassRelabel
