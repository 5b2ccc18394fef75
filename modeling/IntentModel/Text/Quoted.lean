import IntentModel.Text.Printable
import IntentModel.Number.Digits

/-! # Quoted text

How a text is shown inside a message: between single quotes, or between double quotes when it holds
single quotes and no double ones. A backslash escapes itself, the quote in use, the tab and the line
ends; any other unprintable character is shown by its number, in as few of two, four or eight
hexadecimal digits as hold it.
-/

namespace IntentModel.Text

/-- The quote that goes around a text. -/
def quoteFor (text : Text) : CodePoint :=
  if text.contains '\x27' && !text.contains '\x22' then '\x22' else '\x27'

/-- A character as it is shown between quotes. -/
def escapeChar (quote c : CodePoint) : Text :=
  if c == quote || c == '\\' then ['\\', c]
  else if c == '\n' then "\\n"
  else if c == '\r' then "\\r"
  else if c == '\t' then "\\t"
  else if printable.contains c then [c]
  else if c.toNat < 0x100 then "\\x" ++ ofNatHex 2 c.toNat
  else if c.toNat < 0x10000 then "\\u" ++ ofNatHex 4 c.toNat
  else "\\U" ++ ofNatHex 8 c.toNat

def quoted (text : Text) : Text :=
  let quote := text.quoteFor
  quote :: text.flatMap (escapeChar quote) ++ [quote]

end IntentModel.Text
