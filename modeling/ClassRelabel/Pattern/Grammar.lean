/-
Reading regular expressions.

`Grammar.read?` reads the text of a pattern as an expression and the names of its groups, or
refuses it.  Besides literals, sets, groups, choices and repetitions the grammar knows the options
`i`, `m`, `s` and `U`, which hold from where they are set to the end of the group.  References
back to a group and looking ahead or behind are no part of it.

Every reader takes something off the front before it calls another one, so the length of the text
is fuel enough.
-/
import ClassRelabel.Pattern.Expression

namespace ClassRelabel
namespace Pattern
namespace Grammar

/-- Options that change how the text after them is read. -/
structure Options where
  ignoreCase : Bool
  multiLine : Bool
  dotAll : Bool
  swapGreed : Bool
deriving DecidableEq, Repr

/-- What the reader keeps between the parts of a pattern. -/
structure State where
  options : Options
  nextGroup : Nat
  /-- The names of groups with their numbers. -/
  names : List (String × Nat)
deriving DecidableEq, Repr

/-- The deepest nesting that is read. -/
def maxDepth : Nat := 250

/-! ## Characters -/

/-- Characters with a meaning of their own. -/
def isMeta (c : Char) : Bool := "\\.+*?()|[]\x7b\x7d^$#&-~".toList.contains c

def isLetterOrDigit (c : Char) : Bool :=
  ('0' ≤ c && c ≤ '9') || ('A' ≤ c && c ≤ 'Z') || ('a' ≤ c && c ≤ 'z')

/-- Characters that a backslash may stand in front of without changing them. -/
def isEscapable (c : Char) : Bool :=
  isMeta c || (c.toNat < 0x80 && !isLetterOrDigit c && c != '<' && c != '>')

def hexValue? (c : Char) : Option Nat :=
  if '0' ≤ c ∧ c ≤ '9' then some (c.toNat - 48)
  else if 'a' ≤ c ∧ c ≤ 'f' then some (c.toNat - 87)
  else if 'A' ≤ c ∧ c ≤ 'F' then some (c.toNat - 55)
  else none

/-- The character of a code point, if it is one. -/
def char? (n : Nat) : Option Char :=
  if n.isValidChar then some (Char.ofNat n) else none

def hexChar? (digits : List Char) : Option Char := do
  if digits.isEmpty then none else
  char? (← digits.foldlM (fun n c => (hexValue? c).map (n * 16 + ·)) 0)

/-- A code point in a set number of digits, or in braces. -/
def hex? (width : Nat) : List Char → Option (Char × List Char)
  | '\x7b' :: rest =>
    match rest.dropWhile (· != '\x7d') with
    | _ :: after => (hexChar? (rest.takeWhile (· != '\x7d'))).map fun c => (c, after)
    | [] => none
  | cs =>
    if cs.length < width then none
    else (hexChar? (cs.take width)).map fun c => (c, cs.drop width)

/-- What a backslash and the text after it stand for. -/
inductive Atom where
  | char (c : Char)
  | set (s : CharSet)
  | look (l : Look)

/-- The special word boundaries. -/
def boundary? : String → Option Look
  | "start" => some .wordStart
  | "end" => some .wordStop
  | "start-half" => some .wordStartHalf
  | "end-half" => some .wordStopHalf
  | _ => none

/-- A word boundary, with its kind in braces if letters follow the brace. -/
def wordBoundary? (cs : List Char) : Option (Atom × List Char) :=
  match cs with
  | '\x7b' :: c :: rest =>
    let inName (c : Char) : Bool := c == '-' || (isLetterOrDigit c && !('0' ≤ c && c ≤ '9'))
    if inName c then
      match (c :: rest).dropWhile inName with
      | '\x7d' :: after =>
        (boundary? (String.ofList ((c :: rest).takeWhile inName))).map fun l => (.look l, after)
      | _ => none
    else
      some (.look .boundary, cs)
  | ['\x7b'] => none
  | cs => some (.look .boundary, cs)

/-- What follows a backslash. -/
def escape? : List Char → Option (Atom × List Char)
  | [] => none
  | 'x' :: cs => (hex? 2 cs).map fun (c, rest) => (.char c, rest)
  | 'u' :: cs => (hex? 4 cs).map fun (c, rest) => (.char c, rest)
  | 'U' :: cs => (hex? 8 cs).map fun (c, rest) => (.char c, rest)
  | 'd' :: cs => some (.set .digit, cs)
  | 'D' :: cs => some (.set (.compl .digit), cs)
  | 'w' :: cs => some (.set .word, cs)
  | 'W' :: cs => some (.set (.compl .word), cs)
  | 's' :: cs => some (.set .blank, cs)
  | 'S' :: cs => some (.set (.compl .blank), cs)
  | 'a' :: cs => some (.char '\x07', cs)
  | 'f' :: cs => some (.char '\x0c', cs)
  | 't' :: cs => some (.char '\t', cs)
  | 'n' :: cs => some (.char '\n', cs)
  | 'r' :: cs => some (.char '\r', cs)
  | 'v' :: cs => some (.char '\x0b', cs)
  | 'A' :: cs => some (.look .start, cs)
  | 'z' :: cs => some (.look .stop, cs)
  | 'B' :: cs => some (.look .noBoundary, cs)
  | 'b' :: cs => wordBoundary? cs
  | '<' :: cs => some (.look .wordStart, cs)
  | '>' :: cs => some (.look .wordStop, cs)
  | c :: cs => if isEscapable c then some (.char c, cs) else none

/-! ## Bracketed sets -/

/-- A member of a set, which is no condition on places. -/
def setAtom? : List Char → Option (Atom × List Char)
  | [] => none
  | '\\' :: cs =>
    match escape? cs with
    | some (.look _, _) => none
    | found => found
  | c :: cs => some (.char c, cs)

def Atom.toSet : Atom → CharSet
  | .char c => .ofChar c
  | .set s => s
  | .look _ => .none

/-- A member or a range.  A hyphen makes a range unless it ends the set or starts an operation. -/
def setItem? (cs : List Char) : Option (CharSet × List Char) := do
  let (a, rest) ← setAtom? cs
  match rest with
  | [] => none
  | '-' :: after =>
    match after with
    | [] => none
    | ']' :: _ | '-' :: _ => return (a.toSet, rest)
    | after =>
      match a, ← setAtom? after with
      | .char first, (.char last, rest) =>
        if first ≤ last then return (.range first last, rest) else none
      | _, _ => none
  | rest => return (a.toSet, rest)

/-- A class in the form `[:name:]` or `[:^name:]`, after its first bracket. -/
def namedClass? : List Char → Option (CharSet × List Char)
  | ':' :: cs =>
    let (negated, cs) := match cs with
      | '^' :: cs => (true, cs)
      | cs => (false, cs)
    match cs.dropWhile (· != ':') with
    | ':' :: ']' :: rest =>
      (CharSet.named? (String.ofList (cs.takeWhile (· != ':')))).map fun s =>
        (if negated then .compl s else s, rest)
    | _ => none
  | _ => none

/-- An operation on the sets before and after it. -/
abbrev SetOperation := CharSet → CharSet → CharSet

/-- The start of a set: whether it is negated, and members that stand for themselves only here. -/
def setStart (cs : List Char) : Bool × CharSet × List Char :=
  let (negated, cs) := match cs with
    | '^' :: cs => (true, cs)
    | cs => (false, cs)
  match cs.takeWhile (· == '-'), cs.dropWhile (· == '-') with
  | [], ']' :: rest => (negated, .ofChar ']', rest)
  | [], rest => (negated, .none, rest)
  | _, rest => (negated, .ofChar '-', rest)

/-- The rest of a set, after the members `sofar`.  `pending` is what an operation before them
makes of them. -/
def setRest? (ignoreCase : Bool) : Nat → (CharSet → CharSet) → CharSet → List Char →
    Option (CharSet × List Char)
  | 0, _, _, _ => none
  | _ + 1, _, _, [] => none
  | _ + 1, pending, sofar, ']' :: rest => some (pending sofar, rest)
  | fuel + 1, pending, sofar, '[' :: cs =>
    match namedClass? cs with
    | some (s, rest) => setRest? ignoreCase fuel pending (.union sofar s) rest
    | none =>
      let (negated, first, rest) := setStart cs
      match setRest? ignoreCase fuel id first rest with
      | none => none
      | some (s, rest) =>
        let s := CharSet.foldIf ignoreCase s
        setRest? ignoreCase fuel pending (.union sofar (if negated then .compl s else s)) rest
  | fuel + 1, pending, sofar, '&' :: '&' :: cs =>
    setRest? ignoreCase fuel (operation .inter (pending sofar)) .none cs
  | fuel + 1, pending, sofar, '-' :: '-' :: cs =>
    setRest? ignoreCase fuel (operation .diff (pending sofar)) .none cs
  | fuel + 1, pending, sofar, '~' :: '~' :: cs =>
    setRest? ignoreCase fuel (operation .symmDiff (pending sofar)) .none cs
  | fuel + 1, pending, sofar, cs =>
    match setItem? cs with
    | none => none
    | some (s, rest) => setRest? ignoreCase fuel pending (.union sofar s) rest
where
  /-- Both sides of an operation are closed under letter case first. -/
  operation (op : SetOperation) (left right : CharSet) : CharSet :=
    op (CharSet.foldIf ignoreCase left) (CharSet.foldIf ignoreCase right)

/-- A set after its opening bracket. -/
def set? (ignoreCase : Bool) (cs : List Char) : Option (CharSet × List Char) := do
  let (negated, first, rest) := setStart cs
  let (s, rest) ← setRest? ignoreCase (cs.length + 1) id first rest
  let s := CharSet.foldIf ignoreCase s
  return (if negated then .compl s else s, rest)

/-! ## Repetitions -/

def number? (cs : List Char) : Option (Nat × List Char) :=
  let digits := cs.takeWhile fun c => '0' ≤ c && c ≤ '9'
  let n := digits.foldl (fun n c => n * 10 + (c.toNat - 48)) 0
  if digits.isEmpty || 0xFFFFFFFF < n then none
  else some (n, cs.dropWhile fun c => '0' ≤ c && c ≤ '9')

/-- The bounds of a repetition, after the opening brace. -/
def bounds? (cs : List Char) : Option ((Nat × Option Nat) × List Char) := do
  let (least, rest) ← number? cs
  match rest with
  | '\x7d' :: rest => return ((least, some least), rest)
  | ',' :: '\x7d' :: rest => return ((least, none), rest)
  | ',' :: rest =>
    match ← number? rest with
    | (most, '\x7d' :: rest) => if least ≤ most then return ((least, some most), rest) else none
    | _ => none
  | _ => none

/-- A question mark after a repetition makes it as short as possible. -/
def lazy (cs : List Char) : Bool × List Char :=
  match cs with
  | '?' :: rest => (true, rest)
  | cs => (false, cs)

/-! ## Groups -/

/-- Options between `(?` and the character that ends them.  Each may be set once.  The option `u` is
always on, and `x` passes over blanks, which patterns do not hold. -/
def options? (on : Bool) (used : List Char) (o : Options) :
    List Char → Option (Options × Bool × List Char)
  | [] => none
  | ')' :: rest => if used.head? = some '-' then none else some (o, false, rest)
  | ':' :: rest => if used.head? = some '-' then none else some (o, true, rest)
  | c :: rest =>
    if used.contains c then none
    else match c with
      | '-' => options? false (c :: used) o rest
      | 'i' => options? on (c :: used) { o with ignoreCase := on } rest
      | 'm' => options? on (c :: used) { o with multiLine := on } rest
      | 's' => options? on (c :: used) { o with dotAll := on } rest
      | 'x' => options? on (c :: used) o rest
      | 'u' => if on then options? on (c :: used) o rest else none
      | 'U' => options? on (c :: used) { o with swapGreed := on } rest
      | _ => none

/-- Whether a character may stand in the name of a group, where the first one is a letter or an
underscore. -/
def isNameChar (first : Bool) (c : Char) : Bool :=
  let isLetter := Text.isWord c && !Text.isDigit c && c != '_'
  c == '_' || isLetter || (!first && (c == '.' || c == '[' || c == ']' || Text.isDigit c))

/-- The name of a group up to and including the closing bracket. -/
def groupName? (cs : List Char) : Option (String × List Char) :=
  match cs.takeWhile (· != '>'), cs.dropWhile (· != '>') with
  | c :: name, _ :: rest =>
    if isNameChar true c && name.all (isNameChar false) then
      some (String.ofList (c :: name), rest)
    else
      none
  | _, _ => none

/-- How a group starts. -/
inductive Opening where
  | numbered
  | named (name : String)
  /-- Options for what follows, up to the end of the group around. -/
  | options (o : Options)
  /-- A group without a number, under its own options. -/
  | plain (o : Options)

def opening? (o : Options) : List Char → Option (Opening × List Char)
  | '?' :: 'P' :: '<' :: cs => (groupName? cs).map fun (n, rest) => (.named n, rest)
  | '?' :: '<' :: '=' :: _ | '?' :: '<' :: '!' :: _ => none
  | '?' :: '<' :: cs => (groupName? cs).map fun (n, rest) => (.named n, rest)
  | '?' :: ')' :: _ => none
  | '?' :: cs => (options? true [] o cs).map fun (o, isGroup, rest) =>
      (if isGroup then .plain o else .options o, rest)
  | cs => some (.numbered, cs)

/-! ## Expressions -/

/-- The parts of a sequence, the last one first.  Options take a place but cannot be repeated. -/
abbrev Parts := List (Option Expression)

def Parts.toExpression (parts : Parts) : Expression :=
  .sequence (parts.reverse.filterMap id)

/-- Repeats the last part. -/
def repeatLast? (st : State) (parts : Parts) (bounds : Nat × Option Nat) (cs : List Char) :
    Option (Parts × List Char) :=
  match parts with
  | some e :: before =>
    let (short, rest) := lazy cs
    let greedy := (!short) != st.options.swapGreed
    some (some (e.repeated bounds.1 bounds.2 greedy) :: before, rest)
  | _ => none

/-- What was read, with the text left over: nothing, or a closing parenthesis and what follows. -/
structure Result where
  expression : Expression
  state : State
  rest : List Char

def literal (o : Options) (c : Char) : Expression :=
  .set (CharSet.foldIf o.ignoreCase (.ofChar c))

def atom (o : Options) : Atom → Expression
  | .char c => literal o c
  | .set s => .set s
  | .look l => .look l

/-- Enters a group into the state. -/
def enter? (st : State) : Opening → Option State
  | .numbered => some { st with nextGroup := st.nextGroup + 1 }
  | .named n =>
    if st.names.any (·.1 == n) then none
    else some { st with nextGroup := st.nextGroup + 1, names := st.names ++ [(n, st.nextGroup)] }
  | .options o | .plain o => some { st with options := o }

/-- Reads alternatives.  `depth` is how many more groups may be opened, `choices` are the
alternatives before and `parts` those of the one being read. -/
def expression? : Nat → Nat → State → List Expression → Parts → List Char → Option Result
  | 0, _, _, _, _, _ => none
  | fuel + 1, depth, st, choices, parts, cs =>
    let push (e : Expression) (rest : List Char) : Option Result :=
      expression? fuel depth st choices (some e :: parts) rest
    let repeatWith (bounds : Nat × Option Nat) (rest : List Char) : Option Result :=
      match repeatLast? st parts bounds rest with
      | some (parts, rest) => expression? fuel depth st choices parts rest
      | none => none
    let finish : Option Result :=
      some ⟨.choice (choices.reverse ++ [parts.toExpression]), st, cs⟩
    match cs with
    | [] => finish
    | ')' :: _ => finish
    | '|' :: rest => expression? fuel depth st (parts.toExpression :: choices) [] rest
    | '*' :: rest => repeatWith (0, none) rest
    | '+' :: rest => repeatWith (1, none) rest
    | '?' :: rest => repeatWith (0, some 1) rest
    | '\x7b' :: rest =>
      match bounds? rest with
      | some (bounds, rest) => repeatWith bounds rest
      | none => none
    | '[' :: rest =>
      match set? st.options.ignoreCase rest with
      | some (s, rest) => push (.set s) rest
      | none => none
    | '.' :: rest => push (.set (if st.options.dotAll then .any else .inLine)) rest
    | '^' :: rest => push (.look (if st.options.multiLine then .lineStart else .start)) rest
    | '$' :: rest => push (.look (if st.options.multiLine then .lineStop else .stop)) rest
    | '\\' :: rest =>
      match escape? rest with
      | some (a, rest) => push (atom st.options a) rest
      | none => none
    | '(' :: rest =>
      match opening? st.options rest with
      | none => none
      | some (o, rest) =>
        match enter? st o with
        | none => none
        | some inner =>
          match o, depth with
          | .options _, _ => expression? fuel depth inner choices (none :: parts) rest
          | _, 0 => none
          | o, depth' + 1 =>
            match expression? fuel depth' inner [] [] rest with
            | some ⟨e, after, ')' :: rest⟩ =>
              let e := match o with
                | .plain _ => e
                | _ => .group st.nextGroup e
              expression? fuel depth { after with options := st.options } choices
                (some e :: parts) rest
            | _ => none
    | c :: rest => push (literal st.options c) rest

/-- A whole pattern, with the names of its groups. -/
def read? (s : String) : Option (Expression × List (String × Nat)) :=
  let cs := s.toList
  match expression? (cs.length + 1) maxDepth ⟨⟨false, false, false, false⟩, 1, []⟩ [] [] cs with
  | some ⟨e, st, []⟩ => some (e, st.names)
  | _ => none

end Grammar
end Pattern
end ClassRelabel
