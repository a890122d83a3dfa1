/-
Method bodies and their local variables.
-/
import ClassRelabel.Attribute.Basic

namespace ClassRelabel

structure Handler where
  start : UInt16
  stop : UInt16
  target : UInt16
  catchType : Index
deriving DecidableEq, Repr

structure Code where
  maxStack : UInt16
  maxLocals : UInt16
  instructions : Bytes
  handlers : List Handler
  attributes : List Attribute
deriving DecidableEq, Repr

/-- A row of the local variable tables.  In the table of types the descriptor is a generic
signature. -/
structure LocalRow where
  start : UInt16
  length : UInt16
  name : Index
  descriptor : Index
  slot : UInt16
deriving DecidableEq, Repr

namespace Handler

def codec : Codec Handler :=
  (Codec.u16.pair (Codec.u16.pair (Codec.u16.pair Codec.u16))).iso
    (fun (start, stop, target, catchType) => ⟨start, stop, target, catchType⟩)
    fun h => (h.start, h.stop, h.target, h.catchType)

end Handler

namespace Code

def codec : Codec Code :=
  (Codec.u16.pair (Codec.u16.pair ((Codec.block .longBody).pair
    (Handler.codec.table.pair Attribute.listCodec)))).iso
    (fun (maxStack, maxLocals, instructions, handlers, attributes) =>
      ⟨maxStack, maxLocals, instructions, handlers, attributes⟩)
    fun c => (c.maxStack, c.maxLocals, c.instructions, c.handlers, c.attributes)

end Code

namespace LocalRow

def codec : Codec LocalRow :=
  (Codec.u16.pair (Codec.u16.pair (Codec.u16.pair (Codec.u16.pair Codec.u16)))).iso
    (fun (start, length, name, descriptor, slot) => ⟨start, length, name, descriptor, slot⟩)
    fun r => (r.start, r.length, r.name, r.descriptor, r.slot)

def tableCodec : Codec (List LocalRow) := codec.table

end LocalRow
end ClassRelabel
