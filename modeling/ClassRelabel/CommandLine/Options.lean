/-
Options.

An option has a name of several letters after two dashes, or of one letter after one dash.  Its
value follows as an argument of its own, or after the name with or without an equals sign; after a
long name the sign has to be there.  Most options may be given once.
-/
import ClassRelabel.Mapping.Format
import ClassRelabel.Text.Decimal

namespace ClassRelabel
namespace CommandLine

/-- What takes a value. -/
inductive Setting where
  | input
  | output
  | format
  | mappings
  | threads
  | library
  | dictionary
deriving DecidableEq, Repr

/-- What is off unless it is given. -/
inductive Switch where
  | version
  | lists
  | deduces
  | isCanonical
deriving DecidableEq, Repr

inductive Request where
  | turnOn (s : Switch)
  | set (s : Setting) (value : String)
  /-- The value is the next argument. -/
  | await (s : Setting)
  | help
  | unknown
deriving DecidableEq, Repr

/-- Why arguments are not options. -/
inductive Refusal where
  | help
  | mistake
deriving DecidableEq, Repr

structure Given where
  switches : List Switch
  input : Option String
  output : Option String
  format : Option Mapping.Format
  mappings : Option String
  threads : Option Nat
  libraries : List String
  dictionaries : List String
deriving DecidableEq, Repr

/-! ## Names -/

def settingOfLetter? : Char → Option Setting
  | 'i' => some .input
  | 'o' => some .output
  | 'f' => some .format
  | 'm' => some .mappings
  | 't' => some .threads
  | 'l' | 'e' => some .library
  | 'd' => some .dictionary
  | _ => none

def settingOfName? : String → Option Setting
  | "jar-in" => some .input
  | "jar-out" => some .output
  | "mapping-format" => some .format
  | "mappings" => some .mappings
  | "threads" => some .threads
  | "library" => some .library
  | "dictionary" => some .dictionary
  | _ => none

def switchOfName? : String → Option Switch
  | "version" => some .version
  | "fernflower-meta" => some .lists
  | "deduce-param-names" | "dp" => some .deduces
  | "stable" => some .isCanonical
  | _ => none

namespace Request

def ofName (name : String) (value : Option String) : Request :=
  match settingOfName? name, value with
  | some s, some value => set s value
  | some s, none => await s
  | none, some _ => unknown
  | none, none =>
    if name = "help" then help else ((switchOfName? name).map turnOn).getD unknown

def ofLetter (letter : Char) (rest : List Char) : Request :=
  match settingOfLetter? letter, rest with
  | some s, [] => await s
  | some s, '=' :: value => set s (String.ofList value)
  | some s, value => set s (String.ofList value)
  | none, _ => if letter = 'h' then help else unknown

def ofArgument (argument : String) : Request :=
  match argument.toList with
  | '-' :: '-' :: cs =>
    let name := String.ofList (cs.takeWhile (· != '='))
    match cs.dropWhile (· != '=') with
    | [] => ofName name none
    | _ :: value => ofName name (some (String.ofList value))
  | '-' :: letter :: rest => ofLetter letter rest
  | _ => unknown

end Request

/-! ## Values -/

namespace Given

def none : Given := ⟨[], .none, .none, .none, .none, .none, [], []⟩

/-- A value for something that has none yet. -/
def fill {α : Type} (old : Option α) (value : Option α) : Option (Option α) :=
  if old.isNone then value.map some else .none

def path? (value : String) : Option String := if value.isEmpty then .none else some value

def maxThreads : Nat := 0xFFFFFFFFFFFFFFFF

/-- Takes a value, unless it is none for the setting or there is one already. -/
def set? (g : Given) (value : String) : Setting → Option Given
  | .input => do return { g with input := ← fill g.input (path? value) }
  | .output => do return { g with output := ← fill g.output (path? value) }
  | .format => do return { g with format := ← fill g.format (Mapping.Format.ofOption? value) }
  | .mappings => do return { g with mappings := ← fill g.mappings (path? value) }
  | .threads => do return { g with threads := ← fill g.threads (Text.decimal? maxThreads value) }
  | .library => do return { g with libraries := g.libraries ++ [← path? value] }
  | .dictionary => do return { g with dictionaries := g.dictionaries ++ [← path? value] }

def turnOn? (g : Given) (s : Switch) : Option Given :=
  if g.switches.contains s then .none else some { g with switches := s :: g.switches }

end Given

/-- Whether an argument starts like an option and is no value.  A dash alone is a value. -/
def startsLikeOption (argument : String) : Bool :=
  match argument.toList with
  | '-' :: _ :: _ => true
  | _ => false

def orMistake {α : Type} : Option α → Except Refusal α
  | some a => .ok a
  | none => .error .mistake

/-- Takes arguments one by one.  Nothing but options is accepted, and nothing after `--`. -/
def takeOptions (g : Given) : List String → Except Refusal Given
  | [] => .ok g
  | ["--"] => .ok g
  | argument :: rest =>
    match Request.ofArgument argument, rest with
    | .turnOn s, rest => do takeOptions (← orMistake (g.turnOn? s)) rest
    | .set s value, rest => do takeOptions (← orMistake (g.set? value s)) rest
    | .await s, value :: rest => do
      if startsLikeOption value then throw .mistake
      takeOptions (← orMistake (g.set? value s)) rest
    | .await _, [] => .error .mistake
    | .help, _ => .error .help
    | .unknown, _ => .error .mistake

def options (arguments : List String) : Except Refusal Given := takeOptions .none arguments

end CommandLine
end ClassRelabel
