/-
The command line.

Arguments from files are put in first, then all of them are read as options, and then the run
starts.  A failure is logged with its causes.
-/
import ClassRelabel.CommandLine.Arguments
import ClassRelabel.CommandLine.Options
import ClassRelabel.Run

namespace ClassRelabel
namespace CommandLine

/-- What the program tells: its exit code, its standard output, and whether it explains how it is
used. -/
structure Outcome where
  code : UInt8
  output : String
  explains : Bool
deriving DecidableEq, Repr

def versionNotice : String :=
  "Vignette 0.1.0\n" ++
  "Copyright (c) 2019 Jamie Mansfield <https://www.jamiemansfield.me/>\n" ++
  "Vignette is made available under the terms of the Mozilla Public License 2.0, giving\n" ++
  "you the freedom to use, copy, and distribute Vignette to others, in addition to\n" ++
  "the right to distribute modified versions.\n"

/-- A character of a log.  Those that a terminal obeys are spelled. -/
def logged (c : Char) : String :=
  let n := c.toNat
  if [0x07, 0x08, 0x0C, 0x1B, 0x7F].contains n then
    "\\x" ++ String.ofList ((Nat.toDigits 16 (256 + n)).drop 1)
  else if 0x80 ≤ n && n ≤ 0x9F then
    "\\u\x7b" ++ String.ofList (Nat.toDigits 16 n) ++ "\x7d"
  else
    c.toString

/-- Logs a failure, the outermost wording first. -/
def failure (chain : List String) : Outcome :=
  let text := String.join (((": ".intercalate chain).toList).map logged)
  ⟨1, "ERROR " ++ text ++ "\n", false⟩

def Given.runOptions? (g : Given) : Option RunOptions := do
  return {
    input := ← g.input
    output := ← g.output
    mappings := ← g.mappings
    format := g.format.getD .srg
    libraries := g.libraries
    lists := g.switches.contains .lists
    deduces := g.switches.contains .deduces
    dictionaries := g.dictionaries
    isCanonical := g.switches.contains .isCanonical }

variable {m : Type → Type} [Monad m] (access : FileAccess m) (engine : Pattern.Engine)

def perform (g : Given) : m Outcome := do
  if g.switches.contains .version then
    return ⟨0, versionNotice, false⟩
  match g.runOptions? with
  | none => return ⟨1, "", true⟩
  | some o =>
    match ← (o.run access engine).run with
    | .ok () => return ⟨0, "", false⟩
    | .error e => return failure (("failed to remap " ++ o.input) :: e.chain)

def execute (arguments : List String) : m Outcome := do
  match ← (expand access arguments).run with
  | .error e => return failure e.chain
  | .ok arguments =>
    match options arguments with
    | .ok g => perform access engine g
    | .error .help => return ⟨0, "", true⟩
    | .error .mistake => return ⟨2, "", true⟩

end CommandLine
end ClassRelabel
