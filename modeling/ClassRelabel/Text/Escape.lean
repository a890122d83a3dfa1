/-
Text shown inside a message.

A message that names a string or a character puts it in quotes.  The quote in use, the backslash
and the common controls take their two-character escapes, any other character without a glyph of
its own is given by number, and the rest stands for itself.
-/
import ClassRelabel.Text.Property.Shown

namespace ClassRelabel
namespace Text

/-- The digits of a code point in base sixteen, without leading zeros. -/
def hexDigits (n : Nat) : String :=
  String.ofList (Nat.toDigits 16 n)

/-- One character between quotes `quote`. -/
def escapeChar (quote c : Char) : String :=
  if c == '\x00' then "\\0"
  else if c == '\t' then "\\t"
  else if c == '\r' then "\\r"
  else if c == '\n' then "\\n"
  else if c == '\\' || c == quote then String.ofList ['\\', c]
  else if isHidden c then "\\u\x7b" ++ hexDigits c.toNat ++ "\x7d"
  else c.toString

def quoteString (s : String) : String :=
  "\"" ++ String.join (s.toList.map (escapeChar '"')) ++ "\""

def quoteChar (c : Char) : String :=
  "'" ++ escapeChar '\'' c ++ "'"

end Text
end ClassRelabel
