import GoFront.Text.Basic
import GoFront.Text.Extending
import GoFront.Text.Printable

/-!
# Quoted text

Dumps and messages show a piece of text between double quotes. Quotes, backslashes and the common
control characters are written with a backslash; a character that would not be seen, or would be
drawn onto its neighbour, is written by its code point.
-/

namespace GoFront.Text

/-- The code point of a character in lower-case hexadecimal without leading zeros. -/
def hex (c : Char) : Text := Nat.toDigits 16 c.toNat

/-- The written form of one character between quotes. -/
def escape (c : Char) : Text :=
  if c = '\x00' then ['\\', '0']
  else if c = '\t' then ['\\', 't']
  else if c = '\n' then ['\\', 'n']
  else if c = '\r' then ['\\', 'r']
  else if c = '"' then ['\\', '"']
  else if c = '\\' then ['\\', '\\']
  else if isExtending c || !isPrintable c then ['\\', 'u', '{'] ++ hex c ++ ['}']
  else [c]

/-- The text between double quotes, each character in its written form. -/
def quote (t : Text) : Text := '"' :: (t.flatMap escape ++ ['"'])

end GoFront.Text
