/-
The local variables of a relabelled method body.

The instructions refer to constants by index and stay as they are.  In the tables of local
variables the types are relabelled, and a row for a parameter, which starts at the first
instruction, takes the name of the parameter.  A row of the table of generic types takes the name
of the variable with the same extent and slot.
-/
import ClassRelabel.Attribute.Code
import ClassRelabel.Relabel.Attributes
import ClassRelabel.Relabel.Parameters

namespace ClassRelabel

inductive BodyAttribute where
  | locals (name : Index) (rows : List LocalRow)
  | localTypes (name : Index) (rows : List LocalRow)
  | other (a : Attribute)
deriving DecidableEq, Repr

namespace BodyAttribute

def variableRows : BodyAttribute → List LocalRow
  | locals _ rows => rows
  | _ => []

def toAttribute : BodyAttribute → Except Fault Attribute
  | locals name rows | localTypes name rows => do
    return ⟨name, ← LocalRow.tableCodec.write rows⟩
  | other a => .ok a

end BodyAttribute

namespace LocalRow

/-- The rows that start at the first instruction, of each slot only the first one. -/
def openingRows : List LocalRow → List LocalRow
  | [] => []
  | row :: rest =>
    let later := openingRows rest
    if row.start = 0 then row :: later.filter (·.slot != row.slot) else later

def place (row : LocalRow) : UInt16 × UInt16 × UInt16 := (row.start, row.length, row.slot)

/-- The name of the last row in a place. -/
def nameAt? (rows : List LocalRow) (place : UInt16 × UInt16 × UInt16) : Option Index :=
  (rows.reverse.find? fun row => row.place = place).map LocalRow.name

end LocalRow

namespace Relabelling

variable (r : Relabelling)

def bodyAttribute (a : Attribute) : Except Fault BodyAttribute := do
  match ← r.source.text a.name with
  | "LocalVariableTable" => return .locals a.name (← LocalRow.tableCodec.decode a.payload)
  | "LocalVariableTypeTable" => return .localTypes a.name (← LocalRow.tableCodec.decode a.payload)
  | _ => return .other a

/-- The new types of the slots that parameters and the receiver take.  If they fill more than 65535
slots, which no method that can be called does, the numbers wrap around and two of them can meet.
Then the first one counts here, and nothing is said of such methods. -/
def slotTypes (m : NamedMethod) : List (UInt16 × String) :=
  let parameters := m.slots.map fun (slot, t) => (slot, toString t)
  if m.isStatic then parameters
  else (0, "L" ++ r.mappings.renameClass r.owner ++ ";") :: parameters

/-- The parameters that the variables list, by slot. -/
def candidates (m : NamedMethod) (rows : List LocalRow) : Except Fault (List Candidate) := do
  let types := r.slotTypes m
  let found ← (LocalRow.openingRows rows).filterMapM fun row =>
    match types.lookup row.slot with
    | none => .ok none
    | some type => do return some ⟨row.slot, ← r.source.text row.name, type⟩
  return found.mergeSort fun a b => a.slot ≤ b.slot

/-- The name of a row that stands for a parameter. -/
def assigned? (names : List (UInt16 × String)) (row : LocalRow) : Option String :=
  if row.start = 0 then names.lookup row.slot else none

def variableRow (names : List (UInt16 × String)) (row : LocalRow) : PoolM LocalRow := do
  let type ← r.descriptor row.descriptor
  match assigned? names row with
  | none => return { row with descriptor := type }
  | some name => return { row with descriptor := type, name := ← r.redirect row.name name }

/-- `named` are the rows of variables with new names. -/
def typeRow (named : List LocalRow) (row : LocalRow) : PoolM LocalRow := do
  let type ← r.signature row.descriptor
  return { row with
    descriptor := type
    name := (LocalRow.nameAt? named row.place).getD row.name }

def variableTable (names : List (UInt16 × String)) : BodyAttribute → PoolM BodyAttribute
  | .locals name rows => do return .locals name (← rows.mapM (r.variableRow names))
  | a => pure a

def typeTable (named : List LocalRow) : BodyAttribute → PoolM BodyAttribute
  | .localTypes name rows => do return .localTypes name (← rows.mapM (r.typeRow named))
  | a => pure a

/-- A method body, and the names used after it. -/
def code (m : NamedMethod) (c : Code) (used : UsedNames) : PoolM (Code × UsedNames) := do
  let attributes ← c.attributes.mapM fun a => (r.bodyAttribute a : PoolM BodyAttribute)
  let candidates ← r.candidates m (attributes.flatMap BodyAttribute.variableRows)
  let (assigned, used) ← (r.assign m candidates).outcome used
  let names := (candidates.zip assigned).filterMap fun (c, name) => name.map (c.slot, ·)
  let attributes ← attributes.mapM (r.variableTable names)
  let named := (attributes.flatMap BodyAttribute.variableRows).filter fun row =>
    (assigned? names row).isSome
  let attributes ← attributes.mapM (r.typeTable named)
  let attributes ← attributes.mapM fun a => (a.toAttribute : PoolM Attribute)
  return ({ c with attributes }, used)

end Relabelling
end ClassRelabel
