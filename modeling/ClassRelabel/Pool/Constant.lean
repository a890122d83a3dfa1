/-
Constants of a class file.

A constant is a literal or refers to other constants by their index in the pool.  Numbers with a
fraction keep their bits, and text that is no Unicode keeps its bytes, so that an unchanged
constant is written as it was read.
-/
import ClassRelabel.Bytes
import ClassRelabel.Text.Escape

namespace ClassRelabel

abbrev Index := UInt16

inductive MemberKind where
  | field
  | method
  | interfaceMethod
deriving DecidableEq, Repr

/-- The way a method handle reaches its member, as the byte that is stored. -/
structure HandleKind where
  raw : UInt8
deriving DecidableEq, Repr

inductive Constant where
  /-- Index zero, and the second index of a wide constant. -/
  | unusable
  | utf8 (text : String)
  /-- Text with an unpaired surrogate, as the bytes that spell it. -/
  | utf8Raw (bytes : Bytes)
  | integer (value : Int32)
  | float (bits : UInt32)
  | long (value : Int64)
  | double (bits : UInt64)
  | classRef (name : Index)
  | string (text : Index)
  | member (kind : MemberKind) (owner nameAndType : Index)
  | nameAndType (name descriptor : Index)
  | methodHandle (kind : HandleKind) (reference : Index)
  | methodType (descriptor : Index)
  | dynamic (bootstrap : UInt16) (nameAndType : Index)
  | invokeDynamic (bootstrap : UInt16) (nameAndType : Index)
  | moduleRef (name : Index)
  | packageRef (name : Index)
deriving DecidableEq, Repr

namespace HandleKind

def invokeStatic : HandleKind := ⟨6⟩

def name (kind : HandleKind) : String :=
  match kind.raw.toNat with
  | 1 => "GetField"
  | 2 => "GetStatic"
  | 3 => "PutField"
  | 4 => "PutStatic"
  | 5 => "InvokeVirtual"
  | 6 => "InvokeStatic"
  | 7 => "InvokeSpecial"
  | 8 => "NewInvokeSpecial"
  | 9 => "InvokeInterface"
  | n => "Unknown(" ++ toString n ++ ")"

end HandleKind

namespace Constant

/-- A wide constant takes two indices. -/
def isWide : Constant → Bool
  | long _ | double _ => true
  | _ => false

def isText : Constant → Bool
  | utf8 _ | utf8Raw _ => true
  | _ => false

/-- A record with its fields by name, as messages show it. -/
def recordText (name : String) (fields : List (String × String)) : String :=
  name ++ " \x7b " ++ ", ".intercalate (fields.map fun f => f.1 ++ ": " ++ f.2) ++ " \x7d"

def indexText (i : UInt16) : String := toString i.toNat

/-- The constant as messages show it. -/
def describe : Constant → String
  | unusable => "Unusable"
  | utf8 text => "Utf8(" ++ Text.quoteString text ++ ")"
  | utf8Raw bytes => "Utf8Raw([" ++ ", ".intercalate (bytes.map fun b => toString b.toNat) ++ "])"
  | integer value => "Integer(" ++ toString value.toInt ++ ")"
  | float bits => "Float(" ++ toString bits.toNat ++ ")"
  | long value => "Long(" ++ toString value.toInt ++ ")"
  | double bits => "Double(" ++ toString bits.toNat ++ ")"
  | classRef name => recordText "Class" [("name_index", indexText name)]
  | string text => recordText "String" [("string_index", indexText text)]
  | member kind owner pair =>
    let name := match kind with
      | .field => "FieldRef"
      | .method => "MethodRef"
      | .interfaceMethod => "InterfaceMethodRef"
    recordText name [("class_index", indexText owner), ("name_and_type_index", indexText pair)]
  | nameAndType name desc =>
    recordText "NameAndType" [("name_index", indexText name), ("descriptor_index", indexText desc)]
  | methodHandle kind reference =>
    recordText "MethodHandle" [("kind", kind.name), ("reference_index", indexText reference)]
  | methodType desc => recordText "MethodType" [("descriptor_index", indexText desc)]
  | dynamic bootstrap pair =>
    recordText "Dynamic"
      [("bootstrap_method_attr_index", indexText bootstrap),
        ("name_and_type_index", indexText pair)]
  | invokeDynamic bootstrap pair =>
    recordText "InvokeDynamic"
      [("bootstrap_method_attr_index", indexText bootstrap),
        ("name_and_type_index", indexText pair)]
  | moduleRef name => recordText "Module" [("name_index", indexText name)]
  | packageRef name => recordText "Package" [("name_index", indexText name)]

end Constant
end ClassRelabel
