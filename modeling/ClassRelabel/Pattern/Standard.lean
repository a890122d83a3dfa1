/-
The engine that the program searches with.

Of all matches the one that starts first is found, and of those the one that the order of choices
and repetitions prefers.  The engine knows a part of what others do: `Grammar` has no classes by the
properties of characters, and no bytes.  A text that it does not know is refused, like one whose
program would be too long, and it tells no more about it.
-/
import ClassRelabel.Pattern.Grammar
import ClassRelabel.Pattern.Search

namespace ClassRelabel
namespace Pattern

/-- The most steps a program may take. -/
def maxSize : Nat := 300000

/-- An expression that can be searched for. -/
def ofExpression (source : String) (e : Expression) (names : List (String × Nat)) : Pattern where
  source
  groups := e.groups - 1
  names
  find? := search e.program.2 (e.groups - 1) e.program.1
  within _ _ h := search_within h

namespace Engine

def standard : Engine where
  compile source :=
    match Grammar.read? source with
    | some (e, names) =>
      if maxSize < e.size then .error "<regex>" else .ok (ofExpression source e names)
    | none => .error "<regex>"
  source_of_compile source p h := by
    split at h
    · split at h
      · simp at h
      · rw [← Except.ok.inj h, ofExpression]
    · simp at h

end Engine
end Pattern
end ClassRelabel
