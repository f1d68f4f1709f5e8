import GoFront.Kind.Basic
import GoFront.Text.Alphabetic
import GoFront.Text.Basic
import GoFront.Text.Numeric

/-!
# Words, numbers, quoted literals and comments

The pieces both lexers share. Each function looks at the characters behind the first one of a token
and says how many of them still belong to it, along with what it found.
-/

namespace GoFront.Lexeme

/-- Characters a name can start with. -/
def isNameStart (c : Char) : Bool := c = '_' || Text.isAlphabetic c

/-- Characters a name can go on with. -/
def isNamePart (c : Char) : Bool := c = '_' || Text.isAlphabetic c || Text.isNumeric c

/-- The number of leading characters of a class. -/
def run (p : Char → Bool) (cs : Text) : Nat := (cs.takeWhile p).length

/-- Decimal digits and underscores. -/
def isDigitPart (c : Char) : Bool := c = '_' || c.isDigit

/-- Hexadecimal digits and underscores. -/
def isHexPart (c : Char) : Bool :=
  isDigitPart c || ('a' ≤ c && c ≤ 'f') || ('A' ≤ c && c ≤ 'F')

/-- The length of an exponent: a marker, a sign that may be missing, and digits; 0 if there is no
marker. -/
def exponent (isMarker : Char → Bool) : Text → Nat
  | [] => 0
  | m :: cs =>
    if isMarker m then
      match cs with
      | s :: cs' =>
        if s = '+' || s = '-' then 2 + run isDigitPart cs' else 1 + run isDigitPart cs
      | [] => 1
    else 0

/-- The marker of a decimal exponent. -/
def isDecimalMarker (c : Char) : Bool := c = 'e' || c = 'E'

/-- The marker of a binary exponent. -/
def isBinaryMarker (c : Char) : Bool := c = 'p' || c = 'P'

/-- A number whose kind and length so far are known may end in the imaginary unit. -/
def imaginary (kind : Kind) (n : Nat) (cs : Text) : Kind × Nat :=
  match cs.drop n with
  | 'i' :: _ => (.imaginaryNumber, n + 1)
  | _ => (kind, n)

/-- An exponent behind the first `n` characters makes a number a floating-point one. -/
def scaled (isMarker : Char → Bool) (kind : Kind) (n : Nat) (cs : Text) : Kind × Nat :=
  match exponent isMarker (cs.drop n) with
  | 0 => imaginary kind n cs
  | e + 1 => imaginary .floatNumber (n + (e + 1)) cs

/-- The digits behind `0x`: hexadecimal, with a point and a binary exponent. -/
def hexNumber (cs : Text) : Kind × Nat :=
  let n := 1 + run isHexPart (cs.drop 1)
  match cs.drop n with
  | '.' :: cs' => scaled isBinaryMarker .floatNumber (n + 1 + run isHexPart cs') cs
  | _ => scaled isBinaryMarker .intNumber n cs

/-- A decimal number: digits, a point that no second point follows, an exponent. -/
def decimalNumber (cs : Text) : Kind × Nat :=
  let n := run isDigitPart cs
  match cs.drop n with
  | '.' :: '.' :: _ => scaled isDecimalMarker .intNumber n cs
  | '.' :: cs' => scaled isDecimalMarker .floatNumber (n + 1 + run isDigitPart cs') cs
  | _ => scaled isDecimalMarker .intNumber n cs

/-- The kind of a number that starts with `first`, a digit or a point, and the number of further
characters it takes. -/
def number (first : Char) (cs : Text) : Kind × Nat :=
  if first = '.' then scaled isDecimalMarker .floatNumber (run isDigitPart cs) cs
  else if first = '0' then
    match cs with
    | 'x' :: _ | 'X' :: _ => hexNumber cs
    | 'b' :: cs' | 'B' :: cs' | 'o' :: cs' | 'O' :: cs' =>
      imaginary .intNumber (1 + run isDigitPart cs') cs
    | _ => decimalNumber cs
  else decimalNumber cs

/-- Whether a literal opened by the quote `q` is closed on its line, and the number of characters up
to and with the closing quote, or up to the end of the line. A backslash takes the next character
with it, unless that ends the line. -/
def quoted (q : Char) : Text → Bool × Nat
  | [] => (false, 0)
  | c :: cs =>
    if c = '\n' then (false, 0)
    else if c = '\\' then
      match cs with
      | [] => (false, 1)
      | d :: cs' =>
        if d = '\n' then (false, 1)
        else
          let r := quoted q cs'
          (r.1, r.2 + 2)
    else if c = q then (true, 1)
    else
      let r := quoted q cs
      (r.1, r.2 + 1)

/-- Whether a raw literal is closed by a back quote, and the number of characters up to and with
it. -/
def raw (cs : Text) : Bool × Nat :=
  let n := run (· ≠ '`') cs
  match cs.drop n with
  | [] => (false, n)
  | _ :: _ => (true, n + 1)

/-- The kind of a literal that was closed, or of one that was not. -/
def closed (kind unclosed : Kind) (r : Bool × Nat) : Kind × Nat :=
  (if r.1 then kind else unclosed, r.2)

/-- The number of characters up to and with the first `*/`. -/
def commentEnd? (cs : Text) : Option Nat := (Text.find? ['*', '/'] cs).map (· + 2)

/-- A block comment behind its opening slash: the star, and what follows up to `*/` or the end of
the text. -/
def blockComment (cs : Text) : Kind × Nat :=
  match commentEnd? (cs.drop 1) with
  | some n => (.blockComment, 1 + n)
  | none => (.unterminatedComment, cs.length)

end GoFront.Lexeme
