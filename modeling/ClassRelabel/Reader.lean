/-
Reading a byte string from its front.

A `Cursor` holds the unread bytes and how many were read.  A `Reader` takes bytes off the front or
fails, and a failure leaves the cursor where reading stopped: a number that does not fit in the
unread bytes takes none of them, while a table that breaks off keeps the rows before it read.
-/
import ClassRelabel.Text.ModifiedUtf8

namespace ClassRelabel

structure Cursor where
  offset : Nat
  rest : Bytes
deriving Repr

abbrev Reader := EStateM Fault Cursor

namespace Cursor

def ofBytes (bs : Bytes) : Cursor := ⟨0, bs⟩

end Cursor

namespace Reader

/-- Takes `n` bytes, or none when fewer are left. -/
def take (n : Nat) : Reader Bytes := fun c =>
  let taken := c.rest.take n
  if taken.length = n then
    .ok taken ⟨c.offset + n, c.rest.drop n⟩
  else
    .error (.endOfData c.offset n) c

def skip (n : Nat) : Reader Unit := do
  discard (take n)

def number (width : Nat) : Reader Nat := do
  return ofBigEndian (← take width)

def u8 : Reader UInt8 := do
  return UInt8.ofNat (← number 1)

def u16 : Reader UInt16 := do
  return UInt16.ofNat (← number 2)

def u32 : Reader UInt32 := do
  return UInt32.ofNat (← number 4)

def u64 : Reader UInt64 := do
  return UInt64.ofNat (← number 8)

def ofFormat {α : Type} : Except FormatFault α → Reader α
  | .ok a => pure a
  | .error e => throw (.format e)

def text : Reader String := do
  let length ← u16
  ofFormat (ModifiedUtf8.decode (← take length.toNat))

/-- Reads `n` values, after those read before, which stand in reverse. -/
def timesInto {α : Type} (r : Reader α) : Nat → List α → Reader (List α)
  | 0, before => pure before.reverse
  | n + 1, before => do timesInto r n ((← r) :: before)

def times {α : Type} (n : Nat) (r : Reader α) : Reader (List α) :=
  timesInto r n []

def table {α : Type} (r : Reader α) : Reader (List α) := do
  times (← u16).toNat r

def remaining : Reader Nat := do
  return (← get).rest.length

/-- Reads a whole byte string.  Bytes left over are a fault that states their number. -/
def all {α : Type} (r : Reader α) (leftOver : Nat → FormatFault) (bs : Bytes) : Except Fault α :=
  match r (.ofBytes bs) with
  | .ok a c => if c.rest.isEmpty then .ok a else .error (.format (leftOver c.rest.length))
  | .error e _ => .error e

end Reader
end ClassRelabel
