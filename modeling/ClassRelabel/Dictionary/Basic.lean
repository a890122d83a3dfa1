/-
Dictionaries.

A dictionary is a list of rules, one a line of its text: a pattern with an optional filter after a
colon, blanks, and an action.  A rule looks for its pattern in a name, and for its filter in the
type that the name is made from, and then acts on what the pattern matched.  Text after a `#` is a
comment.  Patterns are made by the engine that a dictionary is read with.
-/
import ClassRelabel.Dictionary.Replacement
import ClassRelabel.Dictionary.Words
import ClassRelabel.Fault
import ClassRelabel.Pattern.Basic
import ClassRelabel.Text.Split

namespace ClassRelabel

inductive Action where
  | replace (replacement : String)
  | before (text : String)
  | after (text : String)
  | firstWord
  | lastWord
deriving DecidableEq, Repr

structure Rule where
  pattern : Pattern
  filter : Option Pattern
  action : Action

structure Dictionary where
  rules : List Rule

/-! ## Use -/

def Pattern.groupsOf (p : Pattern) (cs : List Char) (f : Found) : Groups where
  text? := Pattern.groupText? cs f
  number? name := p.names.lookup name

namespace Action

def result (a : Action) (p : Pattern) (cs : List Char) (f : Pattern.Found) : List Char :=
  let span := Pattern.slice cs (f.start, f.stop)
  match a with
  | replace replacement =>
    Replacement.expand (p.groupsOf cs f) (Replacement.toTemplate p.groups replacement.toList)
  | before text => text.toList ++ span
  | after text => span ++ text.toList
  | firstWord => (CamelCase.words span).headD []
  | lastWord => (CamelCase.words span).getLastD []

end Action

namespace Rule

def acceptsType (r : Rule) (type : String) : Bool := r.filter.all (·.isMatch type)

/-- The name after the rule, if the rule applies. -/
def result? (r : Rule) (name type : String) : Option String :=
  if r.acceptsType type then
    let cs := name.toList
    (r.pattern.find? cs).map fun f =>
      String.ofList (cs.take f.start ++ r.action.result r.pattern cs f ++ cs.drop f.stop)
  else
    none

end Rule

namespace Dictionary

def apply (d : Dictionary) (name type : String) : String :=
  d.rules.foldl (fun name r => (r.result? name type).getD name) name

def append (d e : Dictionary) : Dictionary := ⟨d.rules ++ e.rules⟩

end Dictionary

/-! ## Reading -/

namespace Action

/-- Without a keyword the whole text is a replacement. -/
def parse (cs : List Char) : Except RuleFault Action :=
  let (keyword, value) := match Text.splitFirst? ':' cs with
    | some (keyword, value) => (keyword, value)
    | none => (cs, [])
  let keyword := String.ofList keyword
  let withValue (action : String → Action) : Except RuleFault Action :=
    if value.isEmpty then .error (.noValue keyword) else .ok (action (String.ofList value))
  match keyword with
  | "RENAME" => withValue replace
  | "PREFIX" => withValue before
  | "SUFFIX" => withValue after
  | "FIRST" => .ok firstWord
  | "LAST" => .ok lastWord
  | _ => .ok (replace (String.ofList cs))

end Action

namespace Rule

variable (engine : Pattern.Engine)

def compile (source : List Char) : Except RuleFault Pattern :=
  (engine.compile (String.ofList source)).mapError .badPattern

/-- A line without its comment and the blanks around it. -/
def content (line : List Char) : List Char := Text.trim (line.takeWhile (· != '#'))

/-- The rule that a line's content spells.  An empty filter is no filter. -/
def parse (content : List Char) : Except RuleFault Rule := do
  let action := content.dropWhile (!Text.isBlank ·)
  if action.isEmpty then
    throw (.noAction (String.ofList content))
  let trigger := content.takeWhile (!Text.isBlank ·)
  let (pattern, filter) := match Text.splitFirst? ':' trigger with
    | some (pattern, []) => (pattern, none)
    | some (pattern, filter) => (pattern, some filter)
    | none => (trigger, none)
  let pattern ← compile engine pattern
  let filter ← filter.mapM (compile engine)
  let action ← Action.parse (Text.trimStart action)
  return ⟨pattern, filter, action⟩

def ofLine (line : List Char × Nat) : Except Fault (Option Rule) :=
  let content := content line.1
  if content.isEmpty then
    .ok none
  else
    match parse engine content with
    | .ok rule => .ok (some rule)
    | .error cause => .error (.rule line.2 cause)

end Rule

namespace Dictionary

variable (engine : Pattern.Engine)

def parse (text : String) : Except Fault Dictionary := do
  let rules ← ((Text.lines text.toList).zipIdx 1).mapM (Rule.ofLine engine)
  return ⟨rules.filterMap id⟩

def parseAll (texts : List String) : Except Fault Dictionary := do
  let dictionaries ← texts.mapM (parse engine)
  return ⟨dictionaries.flatMap (·.rules)⟩

end Dictionary
end ClassRelabel
