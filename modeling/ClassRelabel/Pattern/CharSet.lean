/-
Sets of characters in patterns.

A set is built from ranges and the classes of digits, word characters and blanks by the
operations that bracketed sets allow.  `fold` closes a set under letter case before a complement
around it is taken.
-/
import ClassRelabel.Text.Property.LetterCase
import ClassRelabel.Text.Property.WordCharacter
import ClassRelabel.Text.Split

namespace ClassRelabel
namespace Pattern

inductive CharSet where
  | none
  | range (first last : Char)
  | digit
  | word
  | blank
  | union (a b : CharSet)
  | inter (a b : CharSet)
  | compl (a : CharSet)
  | fold (a : CharSet)
deriving DecidableEq, Repr

namespace CharSet

def mem : CharSet → Char → Bool
  | none, _ => false
  | range first last, c => first ≤ c && c ≤ last
  | digit, c => Text.isDigit c
  | word, c => Text.isWord c
  | blank, c => Text.isBlank c
  | union a b, c => a.mem c || b.mem c
  | inter a b, c => a.mem c && b.mem c
  | compl a, c => !a.mem c
  | fold a, c => (Text.caseVariants c).any a.mem

def ofChar (c : Char) : CharSet := range c c

def diff (a b : CharSet) : CharSet := inter a (compl b)

def symmDiff (a b : CharSet) : CharSet := union (diff a b) (diff b a)

def any : CharSet := compl none

/-- Any character but a line feed. -/
def inLine : CharSet := compl (ofChar '\n')

def foldIf (ignoreCase : Bool) (a : CharSet) : CharSet :=
  if ignoreCase then fold a else a

/-- The classes of basic letters that have a name, such as `alpha`. -/
def named? : String → Option CharSet
  | "alnum" => some (union (range '0' '9') (union (range 'A' 'Z') (range 'a' 'z')))
  | "alpha" => some (union (range 'A' 'Z') (range 'a' 'z'))
  | "ascii" => some (range '\x00' '\x7f')
  | "blank" => some (union (ofChar '\t') (ofChar ' '))
  | "cntrl" => some (union (range '\x00' '\x1f') (ofChar '\x7f'))
  | "digit" => some (range '0' '9')
  | "graph" => some (range '!' '~')
  | "lower" => some (range 'a' 'z')
  | "print" => some (range ' ' '~')
  | "punct" =>
    some (union (union (range '!' '/') (range ':' '@'))
      (union (range '[' '\x60') (range '\x7b' '~')))
  | "space" => some (union (range '\t' '\r') (ofChar ' '))
  | "upper" => some (range 'A' 'Z')
  | "word" =>
    some (union (union (range '0' '9') (ofChar '_')) (union (range 'A' 'Z') (range 'a' 'z')))
  | "xdigit" => some (union (range '0' '9') (union (range 'A' 'F') (range 'a' 'f')))
  | _ => Option.none

end CharSet
end Pattern
end ClassRelabel
