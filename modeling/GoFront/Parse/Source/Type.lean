import GoFront.Parse.Source.Signature

/-!
# The source grammar: types
-/

namespace GoFront.Source

open GoFront.Parser

/-- Type arguments between brackets. -/
def typeArguments (g : Nested) : Parser Unit := node .typeArguments do
  advance
  repeatWhile do
    type g
    if ← eat .comma then not <$> isAt .rightBracket else pure false
  expect .rightBracket

/-- A type name with its package and its type arguments. -/
def typeName (g : Nested) : Parser Kind := nodeBy do
  advance
  given (isAt .dot <&&> nthIs 1 .identifier) do
    advance
    advance
  given (isAt .leftBracket <&&> not <$> nthIs 1 .rightBracket) (typeArguments g)
  pure .typeName

/-- Members between braces, each ended by a semicolon. A word that starts no member is skipped. -/
def members (member : Parser Unit) (what : String) : Parser Unit := do
  if ← eat .leftBrace then
    repeatWhile do
      if ← isAt .rightBrace <||> isAt .endOfInput then pure false
      else if ← eat .semicolon then pure true
      else
        orSkip member what (separator .rightBrace)
        pure true
    expect .rightBrace
  else expected "'\x7b'"

/-- The names of the fields of one declaration, and their type. -/
def namedFields (g : Nested) : Parser Unit := do
  name "field name"
  repeatWhile do
    if ← eat .comma then
      name "field name"
      pure true
    else pure false
  type g

/-- The tag behind a field. -/
def fieldTag : Parser Unit := do
  if ← isAt .string <||> isAt .rawString then advance

/-- A field of a struct: an embedded type, or names and a type; and a tag. -/
def fieldDeclaration (g : Nested) : Parser Unit := do
  match ← peek, ← nth 1 with
  | .star, _ => node .fieldDeclaration do
      let _ ← type? g
      fieldTag
  | .identifier, .dot | .identifier, .semicolon | .identifier, .rightBrace | .identifier, .string
  | .identifier, .rawString => node .fieldDeclaration do
      let _ ← typeName g
      fieldTag
  | .identifier, _ => node .fieldDeclaration do
      namedFields g
      fieldTag
  | _, _ => pure ()

/-- A member of an interface: a method or a union of type terms. -/
def interfaceMember (g : Nested) : Parser Unit := do
  if ← isAt .identifier <&&> nthIs 1 .leftParen then
    node .methodSpec do
      name "method name"
      signature g
  else if ← isAtAny typeStart <||> isAt .tilde then typeElement g

/-- A type behind its opening bracket: a slice type, or an array type with its length. -/
def bracketType (g : Nested) : Parser Kind := do
  advance
  if ← eat .rightBracket then
    type g
    pure .sliceType
  else
    otherwise (eat .ellipsis) (expression g)
    expect .rightBracket
    type g
    pure .arrayType

/-- A type that is not a name, by its first word. -/
def compoundType (g : Nested) : Kind → Parser Kind
  | .star => do
    advance
    type g
    pure .pointerType
  | .leftBracket => bracketType g
  | .leftParen => do
    advance
    type g
    expect .rightParen
    pure .parenType
  | .mapKeyword => do
    advance
    expect .leftBracket
    type g
    expect .rightBracket
    type g
    pure .mapType
  | .chanKeyword => do
    advance
    let _ ← eat .arrow
    type g
    pure .channelType
  | .arrow => do
    advance
    expect .chanKeyword
    type g
    pure .channelType
  | .funcKeyword => do
    advance
    signature g
    pure .functionType
  | .structKeyword => do
    advance
    members (fieldDeclaration g) "field declaration"
    pure .structType
  | _ => do
    advance
    members (interfaceMember g) "method or type element"
    pure .interfaceType

/-- A type, one level down; the next word can start one. -/
def typeInner (g : Nested) : Parser (Option Kind) := do
  if ← isAt .identifier then some <$> typeName g
  else
    let first ← peek
    some <$> nodeBy (compoundType g first)

end GoFront.Source
