import Parley.Text.Basic
import Parley.Text.GraphemeExtend
import Parley.Text.Printable

/-! # Quoted texts

A text is shown between double quotes. The quote and the backslash are written
after a backslash, the common controls by their letters, and a character that
would not be seen on its own by its code point in braces; all others stand as
they are, the apostrophe among them.
-/

namespace Parley.Text

/-- A code point in braces, in hexadecimal without leading zeros. -/
def escapedCodePoint (c : Char) : Text :=
  concat ["\\u\x7b", Nat.toDigits 16 c.toNat, "\x7d"]

def quotedChar (c : Char) : Text :=
  if c = '"' then "\\\""
  else if c = '\\' then "\\\\"
  else if c = '\t' then "\\t"
  else if c = '\r' then "\\r"
  else if c = '\n' then "\\n"
  else if c.toNat = 0 then "\\0"
  else if isCombining c then escapedCodePoint c
  else if isPrintable c then [c]
  else escapedCodePoint c

def quoted (text : Text) : Text :=
  '"' :: text.flatMap quotedChar ++ ['"']

end Parley.Text
