/-
Programs that search for a regular expression.

A program is a list of steps that name the steps after them.  `Expression.compile` appends the
steps of an expression that go on at a given step.  A split prefers its first branch, and a loop
is a split that its body leads back to.

A loop over what may match the empty text enters its body before its split: so the body is tried
at each place before the loop is left, and a pass that takes nothing ends it.
-/
import ClassRelabel.Pattern.Expression

namespace ClassRelabel
namespace Pattern

inductive Step where
  | accept
  | take (s : CharSet) (next : Nat)
  | look (l : Look) (next : Nat)
  /-- Notes the place as the start (even) or the end (odd) of a group. -/
  | mark (slot : Nat) (next : Nat)
  | split (first second : Nat)
deriving DecidableEq, Repr

abbrev Program := Array Step

namespace Expression

/-- A split whose first branch is `body` when that is preferred. -/
def branch (greedy : Bool) (body next : Nat) : Step :=
  if greedy then .split body next else .split next body

def emit (step : Step) (p : Program) : Nat × Program := (p.size, p.push step)

/-- Puts `n` copies in front of `next`. -/
def copies (body : Nat → Program → Nat × Program) : Nat → Nat → Program → Nat × Program
  | 0, next, p => (next, p)
  | n + 1, next, p =>
    let (start, p) := body next p
    copies body n start p

/-- Puts `n` copies in front of `next`, each of which may be left out with all after it. -/
def options (body : Nat → Program → Nat × Program) (greedy : Bool) (stop : Nat) :
    Nat → Nat → Program → Nat × Program
  | 0, next, p => (next, p)
  | n + 1, next, p =>
    let (start, p) := body next p
    let (start, p) := emit (branch greedy start stop) p
    options body greedy stop n start p

/-- A body that leads to a split back to it: the split and the start of the body. -/
def around (body : Nat → Program → Nat × Program) (greedy : Bool) (next : Nat) (p : Program) :
    Nat × Nat × Program :=
  let (split, p) := emit .accept p
  let (start, p) := body split p
  (split, start, p.setIfInBounds split (branch greedy start next))

/-- The step an expression starts at when it goes on at `next`. -/
def compile : Expression → Nat → Program → Nat × Program
  | empty, next, p => (next, p)
  | set s, next, p => emit (.take s next) p
  | look l, next, p => emit (.look l next) p
  | group index e, next, p =>
    let (stop, p) := emit (.mark (2 * index + 1) next) p
    let (start, p) := compile e stop p
    emit (.mark (2 * index) start) p
  | seq a b, next, p =>
    let (middle, p) := compile b next p
    compile a middle p
  | alt a b, next, p =>
    let (second, p) := compile b next p
    let (first, p) := compile a next p
    emit (.split first second) p
  | loop e least (some most) greedy, next, p =>
    let (start, p) := options (compile e) greedy next (most - least) next p
    copies (compile e) least start p
  | loop e 0 none greedy, next, p =>
    let (split, start, p) := around (compile e) greedy next p
    if e.minLength = 0 then emit (branch greedy start next) p else (split, p)
  | loop e (least + 1) none greedy, next, p =>
    let (_, start, p) := around (compile e) greedy next p
    copies (compile e) least start p

/-- A program and the step it starts at. -/
def program (e : Expression) : Nat × Program :=
  compile e 0 #[.accept]

end Expression
end Pattern
end ClassRelabel
