/-
Replacements with references to groups.

A replacement is turned into a template, and a template is expanded.  In a replacement `$` and a
digit is a reference to a group, whose number goes on only as long as there is a group of that
number; a name or number stands in braces after `$`; a backslash makes the next character stand
for itself.  A template has a narrower language: `$$` is a dollar sign, and a reference has its
braces or goes on as far as letters, digits and underscores do.
-/
import ClassRelabel.Text.Decimal

namespace ClassRelabel

/-- The text of a group by its number, and its number by its name.  A group that took no part has
no text. -/
structure Groups where
  text? : Nat → Option (List Char)
  number? : String → Option Nat

namespace Replacement

/-- Goes on with a group number as long as it is at most `groups`. -/
def groupNumber (groups : Nat) (number : Nat) : List Char → Nat × List Char
  | [] => (number, [])
  | c :: rest =>
    match Text.digit? c with
    | some d => if number * 10 + d ≤ groups then groupNumber groups (number * 10 + d) rest
      else (number, c :: rest)
    | none => (number, c :: rest)

/-- What stands up to and including a closing brace, or everything, and what follows. -/
def throughBrace : List Char → List Char × List Char
  | [] => ([], [])
  | '\x7d' :: rest => (['\x7d'], rest)
  | c :: rest =>
    let (front, back) := throughBrace rest
    (c :: front, back)

theorem length_groupNumber_le (groups number : Nat) (cs : List Char) :
    (groupNumber groups number cs).2.length ≤ cs.length := by
  induction cs generalizing number with
  | nil => simp [groupNumber]
  | cons c rest ih =>
    rw [groupNumber]
    split
    · split
      · exact Nat.le_succ_of_le (ih _)
      · exact Nat.le_refl _
    · exact Nat.le_refl _

theorem length_throughBrace_le (cs : List Char) :
    (throughBrace cs).2.length ≤ cs.length := by
  fun_induction throughBrace cs with
  | case1 => simp
  | case2 => simp
  | case3 c rest _ front back heq ih =>
    rw [heq] at ih
    exact Nat.le_succ_of_le ih

def toTemplate (groups : Nat) : List Char → List Char
  | [] => []
  | ['\\'] => ['\\']
  | '\\' :: '$' :: rest => '$' :: '$' :: toTemplate groups rest
  | '\\' :: c :: rest => c :: toTemplate groups rest
  | '$' :: '\x7b' :: rest =>
    let reference := throughBrace rest
    have : reference.2.length ≤ rest.length := length_throughBrace_le rest
    '$' :: '\x7b' :: reference.1 ++ toTemplate groups reference.2
  | '$' :: rest =>
    match rest.head?.bind Text.digit? with
    | some d =>
      let number := groupNumber groups d rest.tail
      have : number.2.length ≤ rest.tail.length := length_groupNumber_le groups d rest.tail
      '$' :: '\x7b' :: Nat.toDigits 10 number.1 ++ '\x7d' :: toTemplate groups number.2
    | none => '$' :: '$' :: toTemplate groups rest
  | c :: rest => c :: toTemplate groups rest
termination_by cs => cs.length
decreasing_by
  all_goals simp_wf
  all_goals grind [List.length_tail]

/-! ## Templates -/

def isReferenceChar (c : Char) : Bool :=
  ('0' ≤ c && c ≤ '9') || ('a' ≤ c && c ≤ 'z') || ('A' ≤ c && c ≤ 'Z') || c == '_'

/-- The text of the group that a reference names, or nothing. -/
def Groups.resolve (g : Groups) (reference : List Char) : List Char :=
  let name := String.ofList reference
  let number := (Text.decimal? 0xFFFFFFFFFFFFFFFF name).or (g.number? name)
  (number.bind g.text?).getD []

theorem length_dropWhile_le (p : Char → Bool) (cs : List Char) :
    (cs.dropWhile p).length ≤ cs.length :=
  (List.dropWhile_suffix (l := cs) p).length_le

/-- Expands a template.  A dollar sign that starts no reference stands for itself. -/
def expand (g : Groups) : List Char → List Char
  | [] => []
  | '$' :: '$' :: rest => '$' :: expand g rest
  | '$' :: '\x7b' :: rest =>
    match h : rest.dropWhile (· != '\x7d') with
    | [] => '$' :: expand g ('\x7b' :: rest)
    | _ :: after =>
      have : after.length < rest.length := by
        have := length_dropWhile_le (· != '\x7d') rest
        rw [h, List.length_cons] at this
        omega
      Groups.resolve g (rest.takeWhile (· != '\x7d')) ++ expand g after
  | '$' :: rest =>
    match rest.takeWhile isReferenceChar with
    | [] => '$' :: expand g rest
    | name =>
      have : (rest.dropWhile isReferenceChar).length ≤ rest.length := length_dropWhile_le _ rest
      Groups.resolve g name ++ expand g (rest.dropWhile isReferenceChar)
  | c :: rest => c :: expand g rest
termination_by cs => cs.length
decreasing_by
  all_goals simp_wf
  all_goals omega

end Replacement
end ClassRelabel
