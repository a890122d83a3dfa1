/-
A whole run: from an archive and mappings in files to a relabelled archive in a file.

A run is written over any access to files and over any engine for the patterns of dictionaries.
-/
import ClassRelabel.Archive.Layout
import ClassRelabel.Archive.Relabel
import ClassRelabel.Files
import ClassRelabel.Mapping.Format
import ClassRelabel.Zip.Encoding

namespace ClassRelabel

structure RunOptions where
  input : String
  output : String
  mappings : String
  format : Mapping.Format
  /-- Archives whose classes tell which members are inherited. -/
  libraries : List String
  /-- Whether names of parameters are listed in a file when their methods have no body. -/
  lists : Bool
  /-- Whether parameters that the mappings leave out get names. -/
  deduces : Bool
  dictionaries : List String
  /-- Whether the output has the canonical layout. -/
  isCanonical : Bool
deriving DecidableEq, Repr

variable {m : Type → Type} [Monad m] (access : FileAccess m) (engine : Pattern.Engine)

def readEntries (path : String) : ExceptT Fault m (List ArchiveEntry) := do
  Zip.decode (← access.readBytes path)

/-- The rules of dictionaries in order.  Each one is read before the next one is opened. -/
def readDictionaries (paths : List String) : ExceptT Fault m Dictionary := do
  let parts ← paths.mapM fun path => do
    (Dictionary.parse engine (← access.readText path) : ExceptT Fault m Dictionary)
  return ⟨parts.flatMap Dictionary.rules⟩

namespace RunOptions

def run (o : RunOptions) : ExceptT Fault m Unit := do
  access.require o.input .noInput
  access.require o.mappings .noMappings
  let mappings ← Mapping.read o.format (← access.readText o.mappings)
  let input ← readEntries access o.input
  let libraries ← o.libraries.mapM (readEntries access)
  let dictionary ←
    if o.deduces then some <$> readDictionaries access engine o.dictionaries else pure none
  let output ← Archive.relabel mappings dictionary o.lists input libraries.flatten
  let output ← if o.isCanonical then Archive.canonical output else pure output
  access.writeBytes o.output (← Zip.encode output)

end RunOptions
end ClassRelabel
