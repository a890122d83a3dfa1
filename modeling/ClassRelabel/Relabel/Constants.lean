/-
The constants of a relabelled class.

Names of classes, types of methods and references to members point at new names.  A reference is
looked up under the names and the descriptor it had before.  A call site that makes a lambda
implements a method of the interface it returns and takes the new name of that method.
-/
import ClassRelabel.Lambda
import ClassRelabel.Naming.Class
import ClassRelabel.Naming.Member
import ClassRelabel.Relabel.Basic

namespace ClassRelabel
namespace Relabelling

variable (r : Relabelling)

/-- The new name of a call site whose bootstrap method is `b` and makes lambdas.  The arguments that
every factory starts with are the type of the interface method, its implementation and the type that
it is used at. -/
def lambdaName (factory : LambdaFactory) (b : BootstrapRow) (site : NamedType) :
    Except Fault String := do
  let fault (cause : CallSiteFault) : Except Fault String :=
    .error (.callSite ⟨r.owner, site.name, site.descriptor⟩ cause)
  match (← MethodType.parse site.descriptor).result with
  | ⟨.object interface, 0⟩ =>
    match b.arguments with
    | first :: _ :: _ :: _ =>
      match ← r.source.constant first with
      | .methodType descriptor =>
        return r.mappings.renameMethod interface ⟨site.name, ← r.source.text descriptor⟩
      | other => fault (.noMethodType other)
    | few => fault (.fewArguments factory.name few.length)
  | other => fault (.noInterface factory.name (toString other))

def callSiteName (bootstrap : UInt16) (site : NamedType) : Except Fault String := do
  match r.bootstraps[bootstrap.toNat]? with
  | none => .error (.format (.missingBootstrap site.name bootstrap))
  | some b =>
    match ← LambdaFactory.identify r.source b with
    | none => return r.mappings.renameCallSite site.name site.descriptor
    | some factory => r.lambdaName factory b site

def memberType (kind : MemberKind) (owner : String) (old : NamedType) :
    Except Fault NamedType := do
  match kind with
  | .field =>
    return ⟨r.mappings.renameField owner old.name, ← r.mappings.renameDescriptor old.descriptor⟩
  | .method | .interfaceMethod =>
    return ⟨r.mappings.renameMethod owner ⟨old.name, old.descriptor⟩,
      ← r.mappings.renameMethodType old.descriptor⟩

def constant : Constant → PoolM Constant
  | .classRef name => do
    return .classRef (← r.redirect name (r.mappings.renameClass (← r.source.text name)))
  | .member kind owner pair => do
    let ownerName ← r.source.className owner
    let new ← r.memberType kind ownerName (← r.source.namedType pair)
    return .member kind owner (← r.redirectPair pair new)
  | .methodType descriptor => do
    let new ← r.mappings.renameMethodType (← r.source.text descriptor)
    return .methodType (← r.redirect descriptor new)
  | .dynamic bootstrap pair => do
    let old ← r.source.namedType pair
    let new ← r.mappings.renameDescriptor old.descriptor
    let name := r.mappings.renameCallSite old.name old.descriptor
    return .dynamic bootstrap (← r.redirectPair pair ⟨name, new⟩)
  | .invokeDynamic bootstrap pair => do
    let old ← r.source.namedType pair
    let name ← r.callSiteName bootstrap old
    let new ← r.mappings.renameMethodType old.descriptor
    return .invokeDynamic bootstrap (← r.redirectPair pair ⟨name, new⟩)
  | c => pure c

/-- Relabels the constants one by one in the order of their indices. -/
def constants : PoolM Unit :=
  r.source.toList.forM fun (i, old) => do
    let new ← r.constant old
    unless new = old do Pool.replace i new

end Relabelling
end ClassRelabel
