/-
The words of a name in camel case.

A word starts at a capital after a character that is no capital, and at the last capital of a run
when a small letter follows: `HTTPServerId` is `HTTP`, `Server` and `Id`.
-/
import ClassRelabel.Text.Property.LetterCase

namespace ClassRelabel
namespace CamelCase

variable (upper lower : Char → Bool)

/-- Whether a word starts at `c`, between the characters before and after it. -/
def startsWord (before c : Char) (after : Option Char) : Bool :=
  upper c && (!upper before || after.any lower)

/-- The words of a text after the character `before`.  `word` is the open word in reverse. -/
def wordsFrom (before : Char) (word : List Char) : List Char → List (List Char)
  | [] => [word.reverse]
  | c :: rest =>
    if startsWord upper lower before c rest.head? then
      word.reverse :: wordsFrom c [c] rest
    else
      wordsFrom c (c :: word) rest

/-- The words of a text under given notions of capital and small letter.  The empty text is one
empty word. -/
def wordsBy : List Char → List (List Char)
  | [] => [[]]
  | c :: rest => wordsFrom upper lower c [c] rest

def words (cs : List Char) : List (List Char) := wordsBy Text.isUpper Text.isLower cs

end CamelCase
end ClassRelabel
