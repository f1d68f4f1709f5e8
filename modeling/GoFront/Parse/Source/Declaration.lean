import GoFront.Parse.Source.Signature

/-!
# The source grammar: declarations
-/

namespace GoFront.Source

open GoFront.Parser

/-- Specifications between parentheses, each ended by a semicolon. A word that starts none is skipped;
the group also ends where another declaration starts. -/
def group (spec : Parser Unit) : Parser Unit := do
  advance
  repeatWhile do
    if ← isAt .rightParen <||> isAt .endOfInput <||> startsDeclaration 0 then pure false
    else if ← eat .semicolon then pure true
    else
      orSkip spec "specification" (separator .rightParen)
      pure true
  expect .rightParen

/-- A keyword and one specification, or a group of them. -/
def declare (k : Kind) (spec : Parser Unit) : Parser Unit := node k do
  advance
  if ← isAt .leftParen then group spec else spec

/-- Names with commas between them. -/
def nameList : Parser Unit := do
  name "identifier"
  repeatWhile do
    if ← isAt .comma <&&> nthIs 1 .identifier then
      advance
      name "identifier"
      pure true
    else pure false

/-- An import: a name or a dot that may be missing, and a path. -/
def importSpec : Parser Unit := node .importSpec do
  choose (isAt .identifier) (name "package name") (discard (eat .dot))
  match ← peek with
  | .string | .rawString | .unterminatedString | .unterminatedRawString => advance
  | _ => expected "import path"

/-- Variables: names, a type, values; the type or the values may be missing. -/
def variableSpec (g : Nested) : Parser Unit := node .variableSpec do
  nameList
  let typed ← isAtAny typeStart
  given (pure typed) (discard (type? g))
  if ← eat .assign then expressionList g
  else unless typed do expected "type or '='"

/-- Constants: names, a type, values; both may be missing. -/
def constantSpec (g : Nested) : Parser Unit := node .constantSpec do
  nameList
  given (isAtAny typeStart) (discard (type? g))
  if ← eat .assign then expressionList g

/-- A type: its name, its type parameters, and what it stands for. A bracket behind the name opens type
parameters rather than an array type if an identifier and something other than a bracket follow. -/
def typeSpec (g : Nested) : Parser Unit := node .typeSpec do
  name "type name"
  given (isAt .leftBracket <&&> nthIs 1 .identifier <&&> not <$> nthIs 2 .rightBracket)
    (typeParameters g)
  let _ ← eat .assign
  type g

/-- A declaration of variables, constants or types, at the top level or in a block; the next word must
be the keyword of one. -/
def declaration (g : Nested) : Parser Unit := do
  match ← peek with
  | .varKeyword => declare .variableDeclaration (variableSpec g)
  | .constKeyword => declare .constantDeclaration (constantSpec g)
  | .typeKeyword => declare .typeDeclaration (typeSpec g)
  | _ => fail .unreachable

/-- A function or a method. -/
def functionDeclaration (g : Nested) : Parser Unit := node .functionDeclaration do
  advance
  given (isAt .leftParen) (parameterList g .receiver)
  name "function name"
  given (isAt .leftBracket) (typeParameters g)
  signature g
  if ← isAt .leftBrace then block g

end GoFront.Source
