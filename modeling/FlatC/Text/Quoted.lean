import FlatC.Decimal.Digits
import FlatC.Text.Invisible

/-!
# Quoted text

The inspection form of a text: between double quotes, with a backslash in front of quotes and
backslashes, short escapes for the common controls, and a code point in braces for any other
character that has no visible form.
-/

namespace FlatC.Text

/-- One character of a quoted text. -/
def quoteChar (c : Char) : List Char :=
  if c = '"' ∨ c = '\\' then ['\\', c]
  else if c = '\n' then ['\\', 'n']
  else if c = '\r' then ['\\', 'r']
  else if c = '\t' then ['\\', 't']
  else if c.toNat = 0 then ['\\', '0']
  else if isInvisible c then "\\u\x7b".toList ++ Decimal.hexText c.toNat ++ ['\x7d']
  else [c]

/-- A text between double quotes. -/
def quoted (text : String) : String :=
  String.ofList ('"' :: (text.toList.flatMap quoteChar ++ ['"']))

end FlatC.Text
