import GoFront.Kind.Spelling
import GoFront.Token.Basic
import GoFront.Token.Literal

/-!
# Tokens of source files

The lexer of the source language. What stands at the front of a text is decided by the text alone
(`lexeme`); what came before only decides whether a line end also ends a statement (`State`). A line
end that does is a semicolon whose text is the line end. A block comment with a line end in it and
the end of the input have no character to give to the semicolon, which is then empty.

All characters of the text end up in a token, blanks and comments included.
-/

namespace GoFront.Source

/-! ## What stands at the front of a text -/

/-- The longest operator at the front of a text, and the number of characters behind the first. -/
def operator? (t : Text) : Option (Kind × Nat) :=
  Kind.sourceOperators.findSome? fun k =>
    match k.spelling? with
    | some s => if s.isPrefixOf t then some (k, s.length - 1) else none
    | none => none

/-- A name or keyword: the longest run of name characters. -/
def word (c : Char) (cs : Text) : Kind × Nat :=
  let n := Lexeme.run Lexeme.isNamePart cs
  ((Kind.ofKeyword? (c :: cs.take n)).getD .identifier, n)

/-- The token that starts with `c` where neither a blank nor a comment does: its kind, and the
number of characters of `cs` it takes. -/
def significant (c : Char) (cs : Text) : Kind × Nat :=
  if c.isDigit then Lexeme.number c cs
  else if c = '.' && cs.head?.any Char.isDigit then Lexeme.number c cs
  else if c = '"' then Lexeme.closed .string .unterminatedString (Lexeme.quoted '"' cs)
  else if c = '\'' then Lexeme.closed .rune .unterminatedRune (Lexeme.quoted '\'' cs)
  else if c = '`' then Lexeme.closed .rawString .unterminatedRawString (Lexeme.raw cs)
  else if Lexeme.isNameStart c then word c cs
  else (operator? (c :: cs)).getD (.badCharacter, 0)

/-- Blanks that do not end a line. -/
def isBlank (c : Char) : Bool := c = ' ' || c = '\t' || c = '\r'

/-- The piece of text that starts with `c`: its kind, and the number of characters of `cs` it
takes. -/
def lexeme (c : Char) (cs : Text) : Kind × Nat :=
  if c = '\n' then (.newline, 0)
  else if isBlank c then (.whitespace, Lexeme.run isBlank cs)
  else if c = '/' && cs.head? = some '/' then (.lineComment, Lexeme.run (· ≠ '\n') cs)
  else if c = '/' && cs.head? = some '*' then Lexeme.blockComment cs
  else significant c cs

/-! ## Where statements end -/

/-- A bracket that is still open. -/
inductive Group where
  /-- An ordinary parenthesis. -/
  | paren
  /-- A square bracket. -/
  | bracket
  /-- A brace. -/
  | brace
  /-- The parenthesis around the specifications of a declaration. -/
  | declarations
  deriving DecidableEq, Repr

/-- What the lexer remembers of the tokens so far. -/
structure State where
  /-- The open brackets, innermost first. -/
  groups : List Group := []
  /-- Whether the last significant token can end a statement that no semicolon has ended yet. -/
  pending : Bool := false
  /-- The kind of the last significant token. -/
  last : Kind := .endOfInput
  deriving DecidableEq, Repr

/-- Tokens that can end a statement. -/
def canEnd : Kind → Bool
  | .identifier | .intNumber | .floatNumber | .imaginaryNumber | .rune | .string | .rawString
  | .unterminatedString | .unterminatedRawString | .unterminatedRune
  | .breakKeyword | .continueKeyword | .fallthroughKeyword | .returnKeyword
  | .increment | .decrement | .rightParen | .rightBracket | .rightBrace => true
  | _ => false

/-- Keywords behind which a parenthesis groups specifications. -/
def opensDeclarations : Kind → Bool
  | .varKeyword | .constKeyword | .typeKeyword | .importKeyword => true
  | _ => false

namespace State

/-- Whether a line end at this point ends a statement: not inside parentheses or brackets, where
expressions go on over line ends. -/
def lineEnds (s : State) : Bool :=
  s.pending && match s.groups with
    | .paren :: _ | .bracket :: _ => false
    | _ => true

/-- The open brackets after a token. -/
def groupsAfter (s : State) : Kind → List Group
  | .leftParen => (if opensDeclarations s.last then .declarations else .paren) :: s.groups
  | .leftBracket => .bracket :: s.groups
  | .leftBrace => .brace :: s.groups
  | .rightParen | .rightBracket | .rightBrace => s.groups.tail
  | _ => s.groups

/-- The state after a significant token. -/
def track (s : State) (k : Kind) : State := ⟨s.groupsAfter k, canEnd k, k⟩

/-- The state once a semicolon has been supplied. -/
def supplied (s : State) : State := { s with pending := false }

/-- The tokens for one piece of text at an offset, and the state after them. -/
def step (s : State) (offset : Nat) (kind : Kind) (text : Text) : List Token × State :=
  if kind = .newline && s.lineEnds then ([⟨.semicolon, offset, text⟩], s.supplied)
  else if kind = .blockComment && text.hasNewline && s.lineEnds then
    ([⟨kind, offset, text⟩, ⟨.semicolon, offset + text.size, []⟩], s.supplied)
  else if kind.isTrivia then ([⟨kind, offset, text⟩], s)
  else ([⟨kind, offset, text⟩], s.track kind)

end State

/-! ## The lexer -/

/-- The tokens of a text that starts at an offset, after the tokens that led to a state. -/
def scan (s : State) (offset : Nat) : Text → List Token
  | [] => if s.pending then [⟨.semicolon, offset, []⟩] else []
  | c :: cs =>
    let (kind, n) := lexeme c cs
    let text : Text := c :: cs.take n
    let (ts, s') := s.step offset kind text
    ts ++ scan s' (offset + text.size) (cs.drop n)
termination_by t => t.length
decreasing_by simp only [List.length_drop, List.length_cons]; omega

/-- The tokens of a source file. -/
def tokens (text : Text) : List Token := scan {} 0 text

/-- The tokens of the part of a text behind an offset, read as if nothing came before it; none if
the offset lies past the end or inside a character. -/
def tokensFrom? (text : Text) (offset : Nat) : Option (List Token) :=
  (text.cut? offset).map fun p => scan {} offset p.2

end GoFront.Source
