import Assessment.Text.Printable

/-!
# Quoted text

Diagnostic displays show a text between quotes.  Quotes and backslashes are escaped, the common
control characters have short escapes, and every other character that is not shown as itself is
written by its code point.
-/

namespace Assessment
namespace Text

/-- A code point in hexadecimal. -/
def codePoint (c : Char) : List Char :=
  ['\\', 'u', '\x7b'] ++ Nat.toDigits 16 c.toNat ++ ['\x7d']

/-- The characters that show `c` between quotes. -/
def quoteChar (c : Char) : List Char :=
  if c == '"' then ['\\', '"']
  else if c == '\\' then ['\\', '\\']
  else if c == '\n' then ['\\', 'n']
  else if c == '\r' then ['\\', 'r']
  else if c == '\t' then ['\\', 't']
  else if c.toNat == 0 then ['\\', '0']
  else if isPrintable c then [c]
  else codePoint c

/-- A text between quotes. -/
def quoted (s : String) : String := String.ofList ('"' :: s.toList.flatMap quoteChar ++ ['"'])

end Text
end Assessment
