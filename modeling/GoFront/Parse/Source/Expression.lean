import GoFront.Parse.Source.Signature

/-!
# The source grammar: operands

Operands, what can follow them, and the elements of composite literals. Chains of binary operators are
in `GoFront.Parse.Source.Basic`.
-/

namespace GoFront.Source

open GoFront.Parser

/-- What a word that is an operand of its own, or starts one, leads to; none if it starts no operand. -/
def operand? (g : Nested) : Parser (Option Kind) := do
  match ← peek with
  | .intNumber | .floatNumber | .imaginaryNumber | .rune | .string | .rawString
  | .unterminatedString | .unterminatedRawString | .unterminatedRune =>
    some <$> nodeBy do
      advance
      pure .literal
  | .identifier =>
    some <$> nodeBy do
      advance
      pure .nameRef
  | .leftParen =>
    some <$> nodeBy do
      advance
      withComposites true (expression g)
      expect .rightParen
      pure .parenExpression
  | .funcKeyword =>
    some <$> nodeBy do
      advance
      signature g
      if ← isAt .leftBrace then
        block g
        pure .functionLiteral
      else pure .functionType
  | .leftBracket | .mapKeyword | .chanKeyword | .structKeyword | .interfaceKeyword | .arrow => type? g
  | _ => pure none

/-- A selector or a type assertion behind an operand. -/
def selector : Nested → Parser Kind := fun g => wrapBy do
  advance
  if ← eat .leftParen then
    otherwise (eat .typeKeyword) (type g)
    expect .rightParen
    pure .typeAssertExpression
  else
    nameRef "field or method name"
    pure .selectorExpression

/-- The arguments of a call. -/
def argumentList (g : Nested) : Parser Unit := node .argumentList do
  advance
  withComposites true <| repeatWhile do
    if ← isAt .rightParen <||> isAt .endOfInput then pure false
    else if (← expression? g).isNone then pure false
    else
      let _ ← eat .ellipsis
      eat .comma
  expect .rightParen

/-- The bounds behind the colons of a slice expression. True if there is a colon. -/
def sliceBounds (g : Nested) : Parser Bool := loop false fun sliced => do
  if ← eat .colon then
    otherwise (isAt .colon <||> isAt .rightBracket) (expression g)
    pure (.yield true)
  else pure (.done sliced)

/-- Indices or type arguments with commas between them; a comma may also end them. -/
def indices (g : Nested) : Parser Unit := do
  expression g
  repeatWhile do
    if ← eat .comma then
      if ← isAt .rightBracket then pure false
      else
        expression g
        pure true
    else pure false

/-- An index, type arguments or the bounds of a slice behind an operand. -/
def index (g : Nested) : Parser Kind := wrapBy do
  advance
  let sliced ← withComposites true do
    otherwise (isAt .colon) (indices g)
    sliceBounds g
  expect .rightBracket
  pure (if sliced then .sliceExpression else .indexExpression)

/-- A value in a composite literal: an expression, or elements between braces. -/
def elementValue? (g : Nested) : Parser (Option Kind) := do
  if ← isAt .leftBrace then some <$> g.literalValue else expression? g

/-- An element of a composite literal, with its key. False if there is none. -/
def element (g : Nested) : Parser Bool := do
  if (← elementValue? g).isNone then pure false
  else
    given (isAt .colon) <| wrap .keyedElement do
      advance
      discard (elementValue? g)
    pure true

/-- The elements of a composite literal between braces. -/
def literalValue (g : Nested) : Parser Kind := nodeBy do
  advance
  withComposites true <| repeatWhile do
    if ← isAt .rightBrace <||> isAt .endOfInput then pure false
    else if ← element g then eat .comma
    else pure false
  expect .rightBrace
  pure .literalValue

/-- Whether a brace behind an operand of a kind opens a composite literal. Behind a plain type name in
the header of a statement it opens the block. -/
def opensLiteral (operand : Kind) (allowed : Bool) : Bool :=
  match operand with
  | .arrayType | .sliceType | .mapType | .structType => true
  | .nameRef | .selectorExpression | .indexExpression => allowed
  | _ => false

/-- What follows an operand of a kind: selectors, calls, indices, literals; one at a time. -/
def suffix (g : Nested) (operand : Kind) : Parser (ForInStep Kind) := do
  match ← peek with
  | .dot => .yield <$> selector g
  | .leftParen =>
    .yield <$> wrapBy do
      argumentList g
      pure .callExpression
  | .leftBracket => .yield <$> index g
  | .leftBrace =>
    if opensLiteral operand (← compositesAllowed) then
      .yield <$> wrapBy do
        let _ ← literalValue g
        pure .compositeLiteral
    else pure (.done operand)
  | _ => pure (.done operand)

/-- An operand and what follows it. -/
def primary? (g : Nested) : Parser (Option Kind) := do
  match ← operand? g with
  | none => pure none
  | some first => some <$> loop first (suffix g)

/-- Whether an operator stands before its operand at this point. -/
def isAtUnaryOperator : Parser Bool := do
  match ← peek with
  | .plus | .minus | .bang | .caret | .star | .amp => pure true
  | .arrow => not <$> nthIs 1 .chanKeyword
  | _ => pure false

/-- An operand with the operators before it, one level down. -/
def operandInner (g : Nested) : Parser (Option Kind) := do
  if ← isAtUnaryOperator then
    let operator ← peek
    some <$> nodeBy do
      advance
      given (Option.isNone <$> unary? g) (error (.missingOperand operator))
      pure .unaryExpression
  else primary? g

end GoFront.Source
