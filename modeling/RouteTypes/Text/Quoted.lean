-- Quoted texts: a text between double quotes in which every character can be seen. A quote, a
-- backslash, and a character that would not show are written as escapes.
import RouteTypes.Text.Visible

namespace RouteTypes.Text

/-- The code point in hexadecimal, between braces. -/
def escapeByCode (c : Char) : List Char :=
  '\\' :: 'u' :: '{' :: Nat.toDigits 16 c.toNat ++ ['}']

/-- One character inside the quotes. -/
def quoteChar (c : Char) : List Char :=
  if c = '\x00' then ['\\', '0']
  else if c = '\t' then ['\\', 't']
  else if c = '\n' then ['\\', 'n']
  else if c = '\r' then ['\\', 'r']
  else if c = '"' then ['\\', '"']
  else if c = '\\' then ['\\', '\\']
  else if isVisible c then [c]
  else escapeByCode c

/-- The text between double quotes. -/
def quoted (text : String) : String :=
  String.ofList ('"' :: text.toList.flatMap quoteChar ++ ['"'])

end RouteTypes.Text
