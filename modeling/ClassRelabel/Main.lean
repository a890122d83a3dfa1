/-
The program.
-/
import ClassRelabel.CommandLine.Basic
import ClassRelabel.Pattern.Standard

namespace ClassRelabel
namespace CommandLine

def disk : FileAccess IO where
  look path := do
    match ← (IO.FS.readBinFile path).toBaseIO with
    | .ok bytes => return .file bytes.toList
    | .error (.noFileOrDirectory ..) => return .missing
    | .error _ => return .unreadable
  write path bytes := do
    match ← (IO.FS.writeBinFile path ⟨bytes.toArray⟩).toBaseIO with
    | .ok _ => return true
    | .error _ => return false

def usage : String :=
  "Usage: --jar-in <jar> --jar-out <jar> --mappings <file> [options]\n"

end CommandLine
end ClassRelabel

open ClassRelabel

def main (arguments : List String) : IO UInt32 := do
  let outcome ← CommandLine.execute CommandLine.disk .standard arguments
  IO.print outcome.output
  if outcome.explains then IO.eprint CommandLine.usage
  return outcome.code.toUInt32
