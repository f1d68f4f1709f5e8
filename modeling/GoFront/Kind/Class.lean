import GoFront.Kind.Basic

/-!
# Classes of kinds

The groups of kinds that lexers, parsers and printers ask about: blanks, keywords, literals, tokens
that stand for a lexical error, declarations, statements and template actions.
-/

namespace GoFront.Kind

/-- Blanks, line ends and comments: what the source grammar does not look at. -/
def isTrivia : Kind → Bool
  | .whitespace | .newline | .lineComment | .blockComment | .unterminatedComment => true
  | _ => false

/-- Keywords of either language. -/
def isKeyword (k : Kind) : Bool :=
  breakKeyword.number ≤ k.number && k.number ≤ nilKeyword.number

/-- Numbers, runes and strings, finished or not. -/
def isLiteral : Kind → Bool
  | .intNumber | .floatNumber | .imaginaryNumber | .rune | .string | .rawString
  | .unterminatedString | .unterminatedRawString | .unterminatedRune => true
  | _ => false

/-- Kinds of tokens; all others are kinds of nodes. -/
def isToken (k : Kind) : Bool := k.number ≤ endOfInput.number

/-- What is wrong with a token of a kind that stands for a lexical error. -/
def lexicalMessage? : Kind → Option String
  | .unterminatedString => some "unterminated string literal"
  | .unterminatedRawString => some "unterminated raw string literal"
  | .unterminatedRune => some "unterminated rune literal"
  | .unterminatedComment => some "unterminated block comment"
  | .badCharacter => some "unexpected character"
  | _ => none

/-- Tokens a lexer produces where no proper token could be matched. -/
def isLexicalError : Kind → Bool
  | .unterminatedString | .unterminatedRawString | .unterminatedRune | .unterminatedComment
  | .badCharacter => true
  | _ => false

/-- Exactly the lexical errors have a message. -/
theorem isSome_lexicalMessage? (k : Kind) : k.lexicalMessage?.isSome = k.isLexicalError := by
  cases k <;> rfl

/-- The package clause and the top-level declarations. -/
def isDeclaration : Kind → Bool
  | .packageClause | .importDeclaration | .functionDeclaration | .typeDeclaration
  | .variableDeclaration | .constantDeclaration => true
  | _ => false

/-- Statements. -/
def isStatement (k : Kind) : Bool :=
  emptyStatement.number ≤ k.number && k.number ≤ declarationStatement.number

/-- Constructs of the template language that stand between delimiters. -/
def isTemplateAction (k : Kind) : Bool :=
  templateAction.number ≤ k.number && k.number ≤ templateReturn.number

/-- The constructs a lexical error is reported against. -/
def isAnchor (k : Kind) : Bool := k.isStatement || k.isDeclaration || k.isTemplateAction

end GoFront.Kind
