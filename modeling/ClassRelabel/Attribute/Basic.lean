/-
Attributes of classes, members and method bodies.

An attribute is a name and a payload.  The payload stays as bytes until something has to look
inside, so an attribute that nothing is known about is written as it was read.
-/
import ClassRelabel.Codec
import ClassRelabel.Pool.Resolve

namespace ClassRelabel

structure Attribute where
  name : Index
  payload : Bytes
deriving DecidableEq, Repr

namespace Attribute

def codec : Codec Attribute :=
  (Codec.u16.pair (Codec.block .longAttribute)).iso
    (fun p => ⟨p.1, p.2⟩) fun a => (a.name, a.payload)

def listCodec : Codec (List Attribute) := codec.table

/-- The first attribute called `name`.  A name that is no text is a fault unless the attribute was
found before it. -/
def find? (p : Pool) (name : String) : List Attribute → Except Fault (Option Attribute)
  | [] => .ok none
  | a :: rest => do
    if (← p.text a.name) = name then return some a else find? p name rest

end Attribute
end ClassRelabel
