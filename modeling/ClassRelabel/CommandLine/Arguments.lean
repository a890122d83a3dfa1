/-
Arguments from files.

An argument `--cfg` with a path stands for the lines of a file, one argument a line.  What a file
brings is not looked at again.
-/
import ClassRelabel.Files
import ClassRelabel.Text.Split

namespace ClassRelabel
namespace CommandLine

variable {m : Type → Type} [Monad m] (access : FileAccess m)

def argumentLines (text : String) : List String :=
  (((Text.lines text.toList).map Text.trim).filter (!·.isEmpty)).map String.ofList

def readArguments (path : String) : ExceptT Fault m (List String) := do
  match ← access.look path with
  | .file _ => return argumentLines (← access.readText path)
  | _ => throw (.config (.fileMissing path))

/-- The path in an argument that names a file. -/
def attachedPath? (argument : String) : Option String :=
  let mark := "--cfg=".toList
  if mark.isPrefixOf argument.toList then
    some (String.ofList (argument.toList.drop mark.length))
  else
    none

def expand : List String → ExceptT Fault m (List String)
  | [] => pure []
  | "--cfg" :: [] => throw (.config .fileNotGiven)
  | "--cfg" :: path :: rest => do
    let lines ← readArguments access path
    return lines ++ (← expand rest)
  | argument :: rest => do
    let lines ← match attachedPath? argument with
      | some path => readArguments access path
      | none => pure [argument]
    return lines ++ (← expand rest)

end CommandLine
end ClassRelabel
