/-
Bootstrap methods that make lambdas.

A call site whose bootstrap method is one of these implements a method of the interface it
returns.
-/
import ClassRelabel.Attribute.Structure

namespace ClassRelabel

inductive LambdaFactory where
  | metafactory
  | altMetafactory
deriving DecidableEq, Repr

namespace LambdaFactory

def owner : String := "java/lang/invoke/LambdaMetafactory"

def name : LambdaFactory → String
  | metafactory => "metafactory"
  | altMetafactory => "altMetafactory"

def descriptor : LambdaFactory → String
  | metafactory =>
    "(Ljava/lang/invoke/MethodHandles$Lookup;Ljava/lang/String;Ljava/lang/invoke/MethodType;" ++
      "Ljava/lang/invoke/MethodType;Ljava/lang/invoke/MethodHandle;" ++
      "Ljava/lang/invoke/MethodType;)Ljava/lang/invoke/CallSite;"
  | altMetafactory =>
    "(Ljava/lang/invoke/MethodHandles$Lookup;Ljava/lang/String;Ljava/lang/invoke/MethodType;" ++
      "[Ljava/lang/Object;)Ljava/lang/invoke/CallSite;"

def ofMember? (m : MemberRef) : Option LambdaFactory :=
  [metafactory, altMetafactory].find? fun f => m.name == f.name && m.descriptor == f.descriptor

/-- The factory that a bootstrap method calls, if it calls one: statically, and as a method of a
class. -/
def identify (p : Pool) (b : BootstrapRow) : Except Fault (Option LambdaFactory) := do
  let (kind, m) ← p.methodHandle b.handle
  if kind = .invokeStatic && m.kind = .method && m.owner == owner then
    return ofMember? m
  else
    return none

end LambdaFactory
end ClassRelabel
