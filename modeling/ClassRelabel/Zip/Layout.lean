/-
Zip archives in the canonical layout.
-/
import ClassRelabel.Archive.Layout
import ClassRelabel.Zip.Encoding

namespace ClassRelabel
namespace Zip

/-- The archive with the same entries in the canonical layout. -/
def canonical (bs : Bytes) : Except Fault Bytes := do
  encode (← Archive.canonical (← decode bs))

end Zip
end ClassRelabel
