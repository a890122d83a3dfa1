/-
Everything that can go wrong, by cause.

`Fault` has one constructor for each kind of failure and its parts name the cause.  The wording
stands in `message` alone.
-/
import ClassRelabel.Pool.Constant

namespace ClassRelabel

inductive Wanted where
  | text
  | className
  | nameAndType
  | member
  | methodHandle
  | methodType
deriving DecidableEq, Repr

/-- A class file, or a value to be written into one, breaks a rule of the format. -/
inductive FormatFault where
  | embeddedNul
  | truncatedPair
  | truncatedTriple
  | badLeadingByte
  | unpairedSurrogate
  | longString
  | longTable (rows : Nat)
  | fullPool
  | unknownTag (tag : UInt8) (offset : Nat)
  | wideOverflow
  | badIndex (index : Index)
  | notReplaceable (index : Index)
  | notUnicode (index : Index)
  | wrongConstant (index : Index) (wanted : Wanted) (found : Constant)
  | trailingPayload (bytes : Nat)
  | trailingClass (bytes : Nat)
  | longAttribute
  | longBody
  | manyParameters
  | unknownElement (tag : UInt8)
  | missingBootstrap (name : String) (bootstrap : UInt16)
  | unstorableTime (time : String)
deriving DecidableEq, Repr

inductive RuleFault where
  | noAction (line : String)
  | noValue (keyword : String)
  | badPattern (cause : String)
deriving DecidableEq, Repr

inductive MappingFault where
  | noOwner (name : String)
  | unknownRecord (record : String)
  | twoNamesNeeded
  | memberOutsideClass
  | unknownMember (member : String)
  | noHeader
  | fewNamespaces
  | namesNeeded (count : Nat)
  | parameterOutsideMethod
  | badSlot (slot : String)
  | unknownParameter (parameter : String)
  | deepIndent
deriving DecidableEq, Repr

inductive CallSiteFault where
  | noInterface (factory result : String)
  | fewArguments (factory : String) (found : Nat)
  | noMethodType (found : Constant)
deriving DecidableEq, Repr

inductive ConfigFault where
  | noInput
  | noMappings
  | fileNotGiven
  | fileMissing (path : String)
deriving DecidableEq, Repr

structure MethodId where
  owner : String
  name : String
  descriptor : String
deriving DecidableEq, Repr

inductive Fault where
  | io
  | archive
  | badMagic (found : UInt32)
  | endOfData (offset expected : Nat)
  | badVersion (major minor : UInt16)
  | format (cause : FormatFault)
  | rule (line : Nat) (cause : RuleFault)
  | mapping (line : Nat) (cause : MappingFault)
  | descriptor (text : String)
  | reservedName (name : String) (method : MethodId)
  | badGlyph (name : String) (method : MethodId)
  | emptyName (slot : UInt16) (method : MethodId)
  | callSite (site : MethodId) (cause : CallSiteFault)
  | config (cause : ConfigFault)
  | duplicateEntry (path : String)
  | inClass (name : String) (cause : Fault)
deriving DecidableEq, Repr

namespace Wanted

def message : Wanted → String
  | text => "Utf8"
  | className => "Class"
  | nameAndType => "NameAndType"
  | member => "member reference"
  | methodHandle => "MethodHandle"
  | methodType => "MethodType"

end Wanted

namespace FormatFault

def message : FormatFault → String
  | embeddedNul => "embedded NUL inside MUTF-8 string"
  | truncatedPair => "truncated MUTF-8 sequence"
  | truncatedTriple => "truncated three-byte MUTF-8 sequence"
  | badLeadingByte => "unsupported MUTF-8 leading byte"
  | unpairedSurrogate => "invalid UTF-16 sequence"
  | longString => "string constant exceeds 65535 bytes"
  | longTable rows => s!"table of {rows} entries exceeds 65535"
  | fullPool => "constant pool exceeds 65535 entries"
  | unknownTag tag offset => s!"unknown constant pool tag {tag.toNat} at byte {offset}"
  | wideOverflow => "wide constant overflows the declared pool size"
  | badIndex index => s!"invalid constant pool index {index.toNat}"
  | notReplaceable index => s!"constant pool entry {index.toNat} cannot be replaced in place"
  | notUnicode index => s!"constant pool entry {index.toNat} is not valid Unicode"
  | wrongConstant index wanted found =>
    s!"constant pool entry {index.toNat} should be {wanted.message}, found {found.describe}"
  | trailingPayload bytes => s!"{bytes} trailing bytes after attribute payload"
  | trailingClass bytes => s!"{bytes} unexpected bytes after the class structure"
  | longAttribute => "attribute exceeds 4GiB"
  | longBody => "method body exceeds 4GiB"
  | manyParameters => "more than 255 annotated parameters"
  | unknownElement tag =>
    "unknown annotation element tag " ++ Text.quoteChar (Char.ofNat tag.toNat)
  | missingBootstrap name bootstrap =>
    s!"call site `{name}` refers to missing bootstrap method {bootstrap.toNat}"
  | unstorableTime time => s!"timestamp {time} cannot be stored in an archive"

end FormatFault

namespace RuleFault

def message : RuleFault → String
  | noAction line => s!"`{line}` has no action"
  | noValue keyword => s!"action {keyword} requires a value"
  | badPattern cause => cause

end RuleFault

namespace MappingFault

def message : MappingFault → String
  | noOwner name => s!"`{name}` has no owner"
  | unknownRecord record => s!"unrecognized record `{record}`"
  | twoNamesNeeded => "class lines need two names"
  | memberOutsideClass => "member outside of a class"
  | unknownMember member => s!"unrecognized member `{member}`"
  | noHeader => "missing `tsrg2` header"
  | fewNamespaces => "at least two namespaces are required"
  | namesNeeded count => s!"class lines need {count} names"
  | parameterOutsideMethod => "parameter outside of a method"
  | badSlot slot => s!"bad parameter index `{slot}`"
  | unknownParameter parameter => s!"unrecognized parameter `{parameter}`"
  | deepIndent => "indentation is too deep"

end MappingFault

namespace CallSiteFault

def message : CallSiteFault → String
  | noInterface factory result => s!"{factory} call site returns `{result}` instead of an interface"
  | fewArguments factory found =>
    s!"{factory} needs at least 3 bootstrap arguments, found {found}"
  | noMethodType found =>
    s!"first bootstrap argument should be a method type, found {found.describe}"

end CallSiteFault

namespace ConfigFault

def message : ConfigFault → String
  | noInput => "Input jar does not exist!"
  | noMappings => "Input mappings does not exist!"
  | fileNotGiven => "Must specify a file when using --cfg argument."
  | fileMissing path => s!"error: missing config '{path}'"

end ConfigFault

namespace MethodId

def describe (m : MethodId) : String :=
  s!"{m.owner}.{m.name}{m.descriptor}"

end MethodId

namespace Fault

/-- A number of 32 bits in base sixteen, with leading zeros. -/
def hex32 (n : UInt32) : String :=
  let digits := Nat.toDigits 16 n.toNat
  "0x" ++ String.ofList (List.replicate (8 - digits.length) '0' ++ digits)

/-- The wording of a failure.  A failure inside a class names the class only; its cause has a
wording of its own. -/
def message : Fault → String
  | io => "IO error"
  | archive => "archive error"
  | badMagic found => s!"invalid magic bytes: expected 0xcafebabe, found {hex32 found}"
  | endOfData offset expected =>
    s!"unexpected end of class data at byte {offset}, expected {expected} more"
  | badVersion major minor => s!"unsupported class file version {major.toNat}.{minor.toNat}"
  | format cause => s!"format error: {cause.message}"
  | rule line cause => s!"malformed dictionary rule on line {line}: {cause.message}"
  | mapping line cause => s!"malformed mapping on line {line}: {cause.message}"
  | descriptor text => s!"invalid descriptor `{text}`"
  | reservedName name method =>
    s!"parameter name `{name}` of {method.describe} is a reserved keyword"
  | badGlyph name method =>
    s!"parameter name `{name}` of {method.describe} begins with an unsupported glyph"
  | emptyName slot method =>
    s!"parameter {slot.toNat} of {method.describe} was deduced to an empty name"
  | callSite site cause =>
    s!"malformed lambda call site `{site.name}{site.descriptor}` in {site.owner}: {cause.message}"
  | config cause => cause.message
  | duplicateEntry path => s!"duplicate archive entry `{path}`"
  | inClass name _ => s!"failed to rewrite class {name}"

/-- The wordings of a failure and its causes, the outermost first. -/
def chain : Fault → List String
  | inClass name cause => (inClass name cause).message :: chain cause
  | fault => [fault.message]

end Fault

/-- A step that only looks something up keeps the state, also when it fails. -/
instance {σ : Type} : MonadLift (Except Fault) (EStateM Fault σ) := ⟨MonadExcept.ofExcept⟩

end ClassRelabel
