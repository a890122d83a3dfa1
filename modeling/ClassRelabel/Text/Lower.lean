/-
Text in lower case.

Each character takes its lower-case form.  Two of them depend on more than a table: the capital I
with a dot becomes two characters, and a capital sigma that ends a word becomes a final sigma.
-/
import ClassRelabel.Text.Property.CaseIgnorable

namespace ClassRelabel
namespace Text

/-- Whether the next character that letter case looks at has a case. -/
def casedNext (cs : List Char) : Bool := (cs.dropWhile isCaseIgnorable).head?.any isCased

/-- Lower-case forms after the characters `before`, which stand in reverse. -/
def lowerFrom (before : List Char) : List Char → List Char
  | [] => []
  | c :: rest =>
    let forms :=
      if c == 'İ' then ['i', '\u0307']
      else if c == 'Σ' then [if casedNext before && !casedNext rest then 'ς' else 'σ']
      else [toLower c]
    forms ++ lowerFrom (c :: before) rest

def lower (s : String) : String := String.ofList (lowerFrom [] s.toList)

end Text
end ClassRelabel
