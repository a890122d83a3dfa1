/-
The formats of mapping files.
-/
import ClassRelabel.Mapping.Srg
import ClassRelabel.Mapping.Tsrg
import ClassRelabel.Mapping.Tsrg2

namespace ClassRelabel
namespace Mapping

inductive Format where
  | srg
  | tsrg
  | tsrg2
deriving DecidableEq, Repr

namespace Format

def name : Format → String
  | srg => "SRG"
  | tsrg => "TSRG"
  | tsrg2 => "TSRG2"

def ofOption? : String → Option Format
  | "srg" => some srg
  | "tsrg" => some tsrg
  | "tsrg2" => some tsrg2
  | _ => none

end Format

def read : Format → String → Except Fault Mappings
  | .srg => Srg.read
  | .tsrg => Tsrg.read
  | .tsrg2 => Tsrg2.read

end Mapping
end ClassRelabel
