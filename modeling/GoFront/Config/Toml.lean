import GoFront.Text.Basic

/-!
# Flat TOML tables

The part of TOML that a flat table of strings needs: blank lines, comments, and lines that bind a key to
a string in any of its four forms. Tables, dotted keys and values of other types are not read; a reader
of a flat table of strings refuses them anyway.

Every reader takes a text and gives what it has read together with the rest; it gives none where the
text is not of its form.
-/

namespace GoFront.Toml

/-- The blanks inside a line. -/
def isBlank (c : Char) : Bool := c = ' ' || c = '\t'

/-- The characters that may stand for themselves in a comment or in a string on one line. -/
def isPlain (c : Char) : Bool := c = '\t' || (0x20 ≤ c.toNat && c.toNat ≠ 0x7F)

/-! ## Lines -/

/-- The text behind a line end: a line feed, a carriage return and a line feed, or the end of the
text. -/
def lineEnd? : Text → Option Text
  | [] => some []
  | '\n' :: r => some r
  | '\r' :: '\n' :: r => some r
  | _ => none

/-- The text behind the rest of a line that says nothing more: blanks and at most a comment. -/
def restOfLine? (t : Text) : Option Text :=
  match t.dropWhile isBlank with
  | '#' :: r => lineEnd? (r.dropWhile isPlain)
  | r => lineEnd? r

/-! ## Strings -/

/-- The value of a hexadecimal digit. -/
def hexDigit? (c : Char) : Option Nat :=
  if c.isDigit then some (c.toNat - '0'.toNat)
  else if 'a' ≤ c && c ≤ 'f' then some (c.toNat - 'a'.toNat + 10)
  else if 'A' ≤ c && c ≤ 'F' then some (c.toNat - 'A'.toNat + 10)
  else none

/-- The number that hexadecimal digits write. -/
def hexNumber? (digits : Text) : Option Nat :=
  digits.foldlM (fun n c => (hexDigit? c).map (n * 16 + ·)) 0

/-- The character with a number. -/
def scalar? (n : Nat) : Option Char := if n.isValidChar then some (Char.ofNat n) else none

/-- The character that `count` hexadecimal digits name, and the rest. -/
def coded? (count : Nat) (t : Text) : Option (Char × Text) :=
  if count ≤ t.length then ((hexNumber? (t.take count)).bind scalar?).map (·, t.drop count) else none

/-- The character that an escape names, given what follows the backslash. -/
def escape? : Text → Option (Char × Text)
  | 'b' :: r => some ('\x08', r)
  | 't' :: r => some ('\t', r)
  | 'n' :: r => some ('\n', r)
  | 'f' :: r => some ('\x0c', r)
  | 'r' :: r => some ('\r', r)
  | 'e' :: r => some ('\x1b', r)
  | '"' :: r => some ('"', r)
  | '\\' :: r => some ('\\', r)
  | 'x' :: r => coded? 2 r
  | 'u' :: r => coded? 4 r
  | 'U' :: r => coded? 8 r
  | _ => none

theorem length_le_of_coded? {count : Nat} {t r : Text} {c : Char} (h : coded? count t = some (c, r)) :
    r.length ≤ t.length := by
  simp only [coded?] at h
  split at h
  · obtain ⟨x, _, hx⟩ := Option.map_eq_some_iff.1 h
    obtain ⟨rfl, rfl⟩ := Prod.mk.inj hx
    simp
  · simp at h

/-- An escape takes at least one character. -/
theorem length_lt_of_escape? {t r : Text} {c : Char} (h : escape? t = some (c, r)) :
    r.length < t.length := by
  unfold escape? at h
  split at h
  case h_9 => exact Nat.lt_succ_of_le (length_le_of_coded? h)
  case h_10 => exact Nat.lt_succ_of_le (length_le_of_coded? h)
  case h_11 => exact Nat.lt_succ_of_le (length_le_of_coded? h)
  case h_12 => simp at h
  all_goals
    simp only [Option.some.injEq, Prod.mk.injEq] at h
    obtain ⟨rfl, rfl⟩ := h
    simp

/-- The string that ends at the next unescaped quotation mark of the line, given what follows the
opening one. -/
def basic? : Text → Option (Text × Text)
  | [] => none
  | c :: cs =>
    if c = '"' then some ([], cs)
    else if c = '\\' then
      match _h : escape? cs with
      | some (e, r) => (basic? r).map fun p => (e :: p.1, p.2)
      | none => none
    else if isPlain c then (basic? cs).map fun p => (c :: p.1, p.2)
    else none
termination_by t => t.length
decreasing_by
  · have := length_lt_of_escape? _h
    simp only [List.length_cons]
    omega
  · simp

/-- The string that ends at the next apostrophe of the line, given what follows the opening one. -/
def literal? : Text → Option (Text × Text)
  | [] => none
  | c :: cs =>
    if c = '\'' then some ([], cs)
    else if isPlain c then (literal? cs).map fun p => (c :: p.1, p.2)
    else none

/-- A text without the line end it starts with. -/
def dropLineEnd : Text → Text
  | '\n' :: r => r
  | '\r' :: '\n' :: r => r
  | t => t

/-- A text without the blanks and line ends it starts with. -/
def dropWhite : Text → Text
  | [] => []
  | c :: cs =>
    if isBlank c || c = '\n' then dropWhite cs
    else if c = '\r' && cs.head? = some '\n' then dropWhite cs
    else c :: cs

theorem length_dropWhite_le (t : Text) : (dropWhite t).length ≤ t.length := by
  induction t with
  | nil => simp [dropWhite]
  | cons c cs ih =>
    simp only [dropWhite]
    split
    · simp only [List.length_cons]; omega
    · split <;> simp only [List.length_cons] <;> omega

/-- Whether only blanks stand before the next line end of a text. -/
def startsLineEnd (t : Text) : Bool :=
  match t.dropWhile isBlank with
  | '\n' :: _ => true
  | '\r' :: '\n' :: _ => true
  | _ => false

/-- The quotation marks of a closing that belong to the string, and the rest: of up to five marks the
last three close it. The text given is what follows the first three. -/
def closing (quote : Char) : Text → Text × Text
  | a :: b :: r =>
    if a = quote && b = quote then ([quote, quote], r)
    else if a = quote then ([quote], b :: r)
    else ([], a :: b :: r)
  | [a] => if a = quote then ([quote], []) else ([], [a])
  | [] => ([], [])

/-- Whether a text starts with three marks. -/
def startsTriple (quote : Char) (t : Text) : Bool := [quote, quote, quote].isPrefixOf t

/-- Whether a character may stand for itself in a string on several lines, given what follows. -/
def isPlainLine (c : Char) (cs : Text) : Bool :=
  isPlain c || c = '\n' || (c = '\r' && cs.head? = some '\n')

/-- The string on several lines that ends at the next three unescaped quotation marks. A backslash at
the end of a line removes the line end and all blanks and line ends behind it. -/
def multiBasic? : Text → Option (Text × Text)
  | [] => none
  | c :: cs =>
    if startsTriple '"' (c :: cs) then some (closing '"' (cs.drop 2))
    else if c = '\\' then
      if startsLineEnd cs then multiBasic? (dropWhite cs)
      else match _h : escape? cs with
        | some (e, r) => (multiBasic? r).map fun p => (e :: p.1, p.2)
        | none => none
    else if isPlainLine c cs then (multiBasic? cs).map fun p => (c :: p.1, p.2)
    else none
termination_by t => t.length
decreasing_by
  · have := length_dropWhite_le cs
    simp only [List.length_cons]
    omega
  · have := length_lt_of_escape? _h
    simp only [List.length_cons]
    omega
  · simp

/-- The string on several lines that ends at the next three apostrophes. -/
def multiLiteral? : Text → Option (Text × Text)
  | [] => none
  | c :: cs =>
    if startsTriple '\'' (c :: cs) then some (closing '\'' (cs.drop 2))
    else if isPlainLine c cs then (multiLiteral? cs).map fun p => (c :: p.1, p.2)
    else none

/-- A string in any of its forms. -/
def string? : Text → Option (Text × Text)
  | '"' :: '"' :: '"' :: r => multiBasic? (dropLineEnd r)
  | '\'' :: '\'' :: '\'' :: r => multiLiteral? (dropLineEnd r)
  | '"' :: r => basic? r
  | '\'' :: r => literal? r
  | _ => none

/-! ## Tables -/

/-- The characters of a key without quotation marks. -/
def isBare (c : Char) : Bool := c.isAlphanum || c = '_' || c = '-'

/-- A key. -/
def key? : Text → Option (Text × Text)
  | '"' :: r => basic? r
  | '\'' :: r => literal? r
  | t => if t.takeWhile isBare = [] then none else some (t.takeWhile isBare, t.dropWhile isBare)

/-- A line that binds a key to a string, up to and with its end. -/
def binding? (t : Text) : Option ((Text × Text) × Text) := do
  let (key, r) ← key? (t.dropWhile isBlank)
  match r.dropWhile isBlank with
  | '=' :: r =>
    let (value, r) ← string? (r.dropWhile isBlank)
    let r ← restOfLine? r
    pure ((key, value), r)
  | _ => none

/-- The bindings of a table, in order. A line that leaves the text as long as it was ends the reading:
there is no such line in a text that is not empty. -/
def bindings? (t : Text) : Option (List (Text × Text)) :=
  if t = [] then some []
  else match restOfLine? t with
    | some r => if _h : r.length < t.length then bindings? r else none
    | none =>
      match binding? t with
      | some (b, r) => if _h : r.length < t.length then (bindings? r).map (b :: ·) else none
      | none => none
termination_by t.length

/-- The bindings of a document, which may start with a byte order mark. -/
def read? : Text → Option (List (Text × Text))
  | '\uFEFF' :: t => bindings? t
  | t => bindings? t

end GoFront.Toml
