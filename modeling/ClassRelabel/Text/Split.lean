/-
Cutting text into lines, words and halves.

Blanks are the characters with the Unicode property `White_Space`.  A line ends with a line feed,
which takes a carriage return in front of it along, or with the text.
-/
namespace ClassRelabel
namespace Text

def isBlank (c : Char) : Bool :=
  let n := c.toNat
  (0x9 ≤ n && n ≤ 0xD) || n == 0x20 || n == 0x85 || n == 0xA0 || n == 0x1680 ||
    (0x2000 ≤ n && n ≤ 0x200A) || n == 0x2028 || n == 0x2029 || n == 0x202F || n == 0x205F ||
    n == 0x3000

def trimStart (cs : List Char) : List Char := cs.dropWhile isBlank

def trimEnd (cs : List Char) : List Char := (cs.reverse.dropWhile isBlank).reverse

def trim (cs : List Char) : List Char := trimEnd (trimStart cs)

/-- The characters of a line, from its characters in reverse. -/
def endLine (before : List Char) : List Char :=
  match before with
  | '\r' :: before => before.reverse
  | before => before.reverse

def linesFrom (before : List Char) : List Char → List (List Char)
  | [] => if before.isEmpty then [] else [before.reverse]
  | '\n' :: rest => endLine before :: linesFrom [] rest
  | c :: rest => linesFrom (c :: before) rest

/-- The lines of a text without their ends.  Text after the last line feed is a line unless it is
empty. -/
def lines (cs : List Char) : List (List Char) := linesFrom [] cs

def wordsFrom (before : List Char) : List Char → List (List Char)
  | [] => if before.isEmpty then [] else [before.reverse]
  | c :: rest =>
    if isBlank c then
      if before.isEmpty then wordsFrom [] rest else before.reverse :: wordsFrom [] rest
    else
      wordsFrom (c :: before) rest

def words (cs : List Char) : List (List Char) := wordsFrom [] cs

def splitFirst? (sep : Char) (cs : List Char) : Option (List Char × List Char) :=
  match cs.dropWhile (· != sep) with
  | [] => none
  | _ :: after => some (cs.takeWhile (· != sep), after)

def splitLast? (sep : Char) (cs : List Char) : Option (List Char × List Char) :=
  (splitFirst? sep cs.reverse).map fun (after, before) => (before.reverse, after.reverse)

def afterLast (sep : Char) (cs : List Char) : List Char :=
  match splitLast? sep cs with
  | some (_, after) => after
  | none => cs

end Text
end ClassRelabel
