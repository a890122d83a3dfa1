/-
What the relabelling of one class knows, and how it points at new names.

No constant moves and no text changes in place, because other constants may share it.  A new name
is interned behind the constants of the class, and what pointed at the old name is pointed at the
new one.  Names are always read from `source`, the pool as it was, while changes go to a copy of
it that grows.
-/
import ClassRelabel.Attribute.Structure
import ClassRelabel.Dictionary.Basic
import ClassRelabel.Mapping.Basic

namespace ClassRelabel

structure Relabelling where
  mappings : Mappings
  /-- Without a dictionary only parameters that the mappings name get names. -/
  dictionary : Option Dictionary
  source : Pool
  /-- The name of the class before. -/
  owner : String
  bootstraps : List BootstrapRow

namespace Relabelling

variable (r : Relabelling)

/-- An index of the text `new`, which is `i` if it holds that text. -/
def redirect (i : Index) (new : String) : PoolM Index := do
  if (← r.source.text i) = new then return i else Pool.internText new

/-- An index of a name with its descriptor, which is `i` if it holds them. -/
def redirectPair (i : Index) (new : NamedType) : PoolM Index := do
  if (← r.source.namedType i) = new then return i
  else Pool.internPair new.name new.descriptor

end Relabelling
end ClassRelabel
