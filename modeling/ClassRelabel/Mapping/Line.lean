/-
Lines of mapping files.

The formats share their lines: blank lines and lines that start with `#` after any blanks say
nothing, trailing blanks do not count, and every other line keeps its number in the file.
-/
import ClassRelabel.Fault
import ClassRelabel.Text.Split

namespace ClassRelabel
namespace Mapping

structure Line where
  number : Nat
  chars : List Char
deriving DecidableEq, Repr

namespace Line

def isSilent (l : Line) : Bool :=
  match Text.trimStart l.chars with
  | [] => true
  | c :: _ => c == '#'

def words (l : Line) : List String := (Text.words l.chars).map String.ofList

def text (l : Line) : String := String.ofList l.chars

def trimmed (l : Line) : String := String.ofList (Text.trim l.chars)

def fault {α : Type} (l : Line) (cause : MappingFault) : Except Fault α :=
  .error (.mapping l.number cause)

/-- The owner and the name of a qualified member. -/
def splitMember (l : Line) (qualified : String) : Except Fault (String × String) :=
  match Text.splitLast? '/' qualified.toList with
  | some (owner, name) => .ok (String.ofList owner, String.ofList name)
  | none => l.fault (.noOwner qualified)

end Line

/-- The lines of a text that say something. -/
def records (text : String) : List Line :=
  ((Text.lines text.toList).zipIdx.map fun (cs, i) => ⟨i + 1, Text.trimEnd cs⟩).filter
    fun l => !l.isSilent

/-- Whether a name stands for a package rather than a class. -/
def isPackage (name : String) : Bool := name.toList.getLast? == some '/'

end Mapping
end ClassRelabel
