import GoFront.Kind.Spelling
import GoFront.Token.Basic
import GoFront.Token.Delimiters
import GoFront.Token.Literal

/-!
# Tokens of templates

The lexer of the template language. Outside directives it yields the text of the host language, with
the blanks that a trim marker removes as tokens of their own; between an opening and a closing marker
it yields the tokens of the directive.

A marker trims when a minus sign stands on its inner side, set off from the directive by a blank.
-/

namespace GoFront.Template

/-- The blanks a trim marker removes. -/
def isTrimSpace (c : Char) : Bool := c = ' ' || c = '\t' || c = '\r' || c = '\n'

/-! ## Opening markers -/

/-- The number of characters before the next opening marker that no comment hides: if a comment opens
before the next marker, the search goes on behind the comment. -/
def visibleMarker? (left opener : Text) (h : opener ≠ []) (t : Text) : Option Nat :=
  match Text.find? left t with
  | none => none
  | some n =>
    match _hc : Text.find? opener (t.take (n + opener.length - 1)) with
    | none => some n
    | some c =>
      let m := c + HostLanguage.commentLength opener (t.drop c)
      (visibleMarker? left opener h (t.drop m)).map (· + m)
termination_by t.length
decreasing_by
  have hle := Text.add_length_le_of_find? _hc
  have hpos : 0 < opener.length := List.length_pos_iff.2 h
  simp only [List.length_take] at hle
  simp only [List.length_drop, HostLanguage.commentLength]
  split <;> omega

/-- The number of characters before the next opening marker of a template in a host language. -/
def findMarker? (left : Text) (host : HostLanguage) (t : Text) : Option Nat :=
  match host with
  | .html => visibleMarker? left HostLanguage.commentOpener (by simp [HostLanguage.commentOpener]) t
  | .text => Text.find? left t

/-- The number of characters of the opening marker a text starts with, a trim sign included, and
whether it trims. -/
def leftMarker? (d : Delimiters) (t : Text) : Option (Nat × Bool) :=
  if d.left.isPrefixOf t then
    match t.drop d.left.length with
    | '-' :: c :: _ => some (if isTrimSpace c then (d.left.length + 1, true) else (d.left.length, false))
    | _ => some (d.left.length, false)
  else none

/-- The number of characters of the closing marker a text starts with, a trim sign included, and
whether it trims, given the character before the text. -/
def rightMarker? (d : Delimiters) (previous : Option Char) (t : Text) : Option (Nat × Bool) :=
  if d.right.isPrefixOf t then some (d.right.length, false)
  else match t with
    | '-' :: cs =>
      if d.right.isPrefixOf cs && previous.any isTrimSpace then some (d.right.length + 1, true) else none
    | _ => none

/-! ## Tokens of a directive -/

/-- A word of a directive: the named comparisons and connectives, the keywords, or a name. -/
def wordKind (w : Text) : Kind :=
  if w ∈ [['e', 'q'], ['n', 'e'], ['l', 't'], ['l', 'e'], ['g', 't'], ['g', 'e']] then .compareOperator
  else if w ∈ [['a', 'n', 'd'], ['o', 'r'], ['n', 'o', 't']] then .logicOperator
  else (Kind.ofTemplateKeyword? w).getD .identifier

/-- The operators and the punctuation of directives. -/
def operator (c : Char) (next : Option Char) : Kind × Nat :=
  if c = '|' then (if next = some '|' then (.logicOperator, 1) else (.pipe, 0))
  else if c = '&' && next = some '&' then (.logicOperator, 1)
  else if c = '!' then (if next = some '=' then (.compareOperator, 1) else (.logicOperator, 0))
  else if c = '=' then (if next = some '=' then (.compareOperator, 1) else (.assign, 0))
  else if c = '<' || c = '>' then (.compareOperator, if next = some '=' then 1 else 0)
  else if c = ':' && next = some '=' then (.define, 1)
  else if c = '(' then (.leftParen, 0)
  else if c = ')' then (.rightParen, 0)
  else if c = ',' then (.comma, 0)
  else (.badCharacter, 0)

/-- The token of a directive that starts with `c`: its kind, and the number of characters of `cs` it
takes. -/
def lexeme (c : Char) (cs : Text) : Kind × Nat :=
  if isTrimSpace c then (.whitespace, Lexeme.run isTrimSpace cs)
  else if c = '/' && cs.head? = some '*' then Lexeme.blockComment cs
  else if c = '"' then Lexeme.closed .string .unterminatedString (Lexeme.quoted '"' cs)
  else if c = '\'' then Lexeme.closed .rune .unterminatedRune (Lexeme.quoted '\'' cs)
  else if c = '`' then Lexeme.closed .rawString .unterminatedRawString (Lexeme.raw cs)
  else if c.isDigit then Lexeme.number c cs
  else if (c = '+' || c = '-' || c = '.') && cs.head?.any Char.isDigit then
    if c = '.' then Lexeme.number c cs
    else match cs with
      | d :: ds => ((Lexeme.number d ds).1, (Lexeme.number d ds).2 + 1)
      | [] => (.badCharacter, 0)
  else if c = '.' then
    if cs.head?.any Lexeme.isNameStart then (.field, Lexeme.run Lexeme.isNamePart cs) else (.dot, 0)
  else if c = '$' then (.variable, Lexeme.run Lexeme.isNamePart cs)
  else if Lexeme.isNameStart c then
    let n := Lexeme.run Lexeme.isNamePart cs
    (wordKind (c :: cs.take n), n)
  else operator c cs.head?

/-! ## The lexer -/

/-- What the lexer remembers of the text so far. -/
structure State where
  /-- Whether the lexer is between an opening and a closing marker. -/
  inAction : Bool := false
  /-- Whether the last token was a closing marker that trims. -/
  trimAfter : Bool := false
  /-- The last character read. -/
  previous : Option Char := none
  deriving DecidableEq, Repr

/-- One token: its kind, the number of its characters, and the mode after it. -/
structure Piece where
  /-- What the token is. -/
  kind : Kind
  /-- The number of its characters. -/
  length : Nat
  /-- Whether the next token is one of a directive. -/
  inAction : Bool
  /-- Whether the token is a closing marker that trims. -/
  trims : Bool := false

/-- The token at the front of a text outside directives. -/
def textPiece (d : Delimiters) (host : HostLanguage) (trimAfter : Bool) (t : Text) : Piece :=
  if trimAfter && t.head?.any isTrimSpace then
    { kind := .whitespace, length := Lexeme.run isTrimSpace t, inAction := false }
  else match leftMarker? d t with
    | some (n, _) => { kind := .leftDelimiter, length := n, inAction := true }
    | none =>
      match findMarker? d.left host t with
      | none => { kind := .text, length := t.length, inAction := false }
      | some n =>
        if (leftMarker? d (t.drop n)).any (·.2) then
          let kept := ((t.take n).reverse.dropWhile isTrimSpace).length
          if kept = 0 then { kind := .whitespace, length := n, inAction := false }
          else { kind := .text, length := kept, inAction := false }
        else { kind := .text, length := n, inAction := false }

/-- The token at the front of a text inside a directive. -/
def actionPiece (d : Delimiters) (previous : Option Char) (c : Char) (cs : Text) : Piece :=
  match rightMarker? d previous (c :: cs) with
  | some (n, trims) => { kind := .rightDelimiter, length := n, inAction := false, trims := trims }
  | none => { kind := (lexeme c cs).1, length := (lexeme c cs).2 + 1, inAction := true }

/-- The token at the front of the text `c :: cs`. -/
def piece (d : Delimiters) (host : HostLanguage) (s : State) (c : Char) (cs : Text) : Piece :=
  if s.inAction then actionPiece d s.previous c cs else textPiece d host s.trimAfter (c :: cs)

/-- A token, and whether the lexer is inside a directive right after it. -/
structure Drawn where
  /-- The token. -/
  token : Token
  /-- Whether the next token is one of a directive. -/
  inAction : Bool
  deriving DecidableEq, Repr

/-- The tokens of a text that starts at an offset, after the text that led to a state. -/
def scan (d : Delimiters) (host : HostLanguage) (s : State) (offset : Nat) : Text → List Drawn
  | [] => []
  | c :: cs =>
    let p := piece d host s c cs
    let text : Text := c :: cs.take (p.length - 1)
    ⟨⟨p.kind, offset, text⟩, p.inAction⟩ ::
      scan d host ⟨p.inAction, p.trims, text.getLast?⟩ (offset + text.size) (cs.drop (p.length - 1))
termination_by t => t.length
decreasing_by simp only [List.length_drop, List.length_cons]; omega

/-- The tokens of a piece of a document that starts at an offset, each with the mode after it. -/
def draw (d : Delimiters) (host : HostLanguage) (offset : Nat) (text : Text) : List Drawn :=
  scan d host {} offset text

/-- The tokens of the stretch of a document between two offsets, each with the mode after it; none if the
offsets are out of order, past the end or inside a character. -/
def drawRange? (d : Delimiters) (host : HostLanguage) (text : Text) (start stop : Nat) : Option (List Drawn) :=
  (text.slice? start stop).map (draw d host start)

/-- The tokens of a piece of a document that starts at an offset. -/
def tokens (d : Delimiters) (host : HostLanguage) (offset : Nat) (text : Text) : List Token :=
  (draw d host offset text).map Drawn.token

end GoFront.Template
