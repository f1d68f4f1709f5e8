import GoFront.Parse.Basic

/-!
# The source grammar: entries

The productions of the source grammar nest without end: an expression holds types, a type holds
expressions, both hold blocks of statements. The descent is cut off at a fixed depth. `Nested` holds the
four productions that lead one level down, for a given number of levels that may still be entered; all
others are plain functions of it.

This file holds the entries to types, expressions and statements, which every other production of the
grammar starts from.
-/

namespace GoFront.Source

open GoFront.Parser

/-- The productions one level further down. -/
structure Nested where
  /-- An operand with the operators before it; the next word can start an expression. -/
  operand : Parser (Option Kind)
  /-- A type; the next word can start one. -/
  type : Parser (Option Kind)
  /-- A statement. -/
  statement : Parser Unit
  /-- The elements of a composite literal between braces. -/
  literalValue : Parser Kind

/-! ## Sets of kinds -/

/-- Words that close a construct and that recovery does not swallow. -/
def closers : KindSet :=
  .ofList [.rightBrace, .rightParen, .rightBracket, .semicolon, .comma]

/-- Words a type can start with. -/
def typeStart : KindSet :=
  .ofList [.identifier, .star, .leftBracket, .leftParen, .mapKeyword, .chanKeyword, .funcKeyword,
    .structKeyword, .interfaceKeyword, .arrow]

/-- Words an expression can start with. -/
def expressionStart : KindSet :=
  .ofList [.identifier, .intNumber, .floatNumber, .imaginaryNumber, .rune, .string, .rawString,
    .unterminatedString, .unterminatedRawString, .unterminatedRune, .leftParen, .leftBracket,
    .funcKeyword, .mapKeyword, .chanKeyword, .structKeyword, .interfaceKeyword, .plus, .minus, .bang,
    .caret, .star, .amp, .arrow]

/-- Words that a missing expression does not swallow. -/
def expressionRecovery : KindSet :=
  .ofList [.rightBrace, .rightParen, .rightBracket, .leftBrace, .semicolon, .comma, .colon]

/-! ## Names and starts of declarations -/

/-- An identifier as a name. -/
def name (what : String) : Parser Unit := do
  if ← isAt .identifier then node .name advance else expected what

/-- An identifier as a reference. -/
def nameRef (what : String) : Parser Unit := do
  if ← isAt .identifier then node .nameRef advance else expected what

/-- Whether the word `n` places ahead starts a line and a declaration. -/
def startsDeclaration (n : Nat) : Parser Bool := nthLineStart n <&&> do
  match ← nth n with
  | .importKeyword | .typeKeyword | .varKeyword | .constKeyword | .packageKeyword => pure true
  | .funcKeyword =>
    let next ← nth (n + 1)
    pure (next == .identifier || next == .leftParen)
  | _ => pure false

/-- Whether the next word starts a line and cannot belong to the body of a function. -/
def breaksBlock : Parser Bool := nthLineStart 0 <&&> do
  match ← peek with
  | .importKeyword | .packageKeyword => pure true
  | .funcKeyword => nthIs 1 .identifier
  | _ => pure false

/-- One round of skipping, inside `depth` groups: the closer or separator of the group around them all ends
it. -/
def skipRound (depth : Nat) : Parser (ForInStep Nat) := do
  if ← isAt .endOfInput then pure (.done depth)
  else
    match ← peek with
    | .leftParen | .leftBracket | .leftBrace =>
      advance
      pure (.yield (depth + 1))
    | .rightParen | .rightBracket | .rightBrace =>
      if depth = 0 then pure (.done depth)
      else
        advance
        pure (.yield (depth - 1))
    | .semicolon | .comma =>
      if depth = 0 then pure (.done depth)
      else
        advance
        pure (.yield depth)
    | _ =>
      advance
      pure (.yield depth)

/-- Skips what is nested too deep, up to the closer or separator of the group around it. -/
def skipTooDeep : Parser Unit := discard (loop 0 skipRound)

/-- The node for a construct that is nested too deep. -/
def tooDeep : Parser Kind := nodeBy do
  error .nestingTooDeep
  skipTooDeep
  pure .error

/-- The nested productions where no further level may be entered. -/
def Nested.bottom : Nested where
  operand := some <$> tooDeep
  type := some <$> tooDeep
  statement := discard tooDeep
  literalValue := tooDeep

/-! ## Types -/

/-- A type, if the next word can start one. -/
def type? (g : Nested) : Parser (Option Kind) := do
  if ← isAtAny typeStart then g.type else pure none

/-- A type. -/
def type (g : Nested) : Parser Unit := do
  if (← type? g).isNone then expectedOr "type" closers

/-! ## Expressions -/

/-- How strongly a binary operator binds, from 1 to 5. -/
def precedence? : Kind → Option Nat
  | .orOr => some 1
  | .andAnd => some 2
  | .eqEq | .notEq | .less | .lessEq | .greater | .greaterEq => some 3
  | .plus | .minus | .pipe | .caret => some 4
  | .star | .slash | .percent | .shiftLeft | .shiftRight | .amp | .andNot => some 5
  | _ => none

/-- An operand with the operators before it, if the next word can start one. -/
def unary? (g : Nested) : Parser (Option Kind) := do
  if ← isAtAny expressionStart then g.operand else pure none

/-- A chain of binary operators that bind at least as strongly as `least`. The right side of an operator
is a chain of operators that bind more strongly than it; `tiers` is the number of strengths there can
still be. -/
def binary? (g : Nested) : (tiers : Nat) → (least : Nat) → Parser (Option Kind)
  | 0, _ => unary? g
  | tiers + 1, least => do
    match ← unary? g with
    | none => pure none
    | some first => some <$> loop first fun left => do
      let operator ← peek
      match precedence? operator with
      | none => pure (.done left)
      | some strength =>
        if strength < least then pure (.done left)
        else
          .yield <$> wrapBy do
            advance
            given (Option.isNone <$> binary? g tiers (strength + 1)) (error (.missingOperand operator))
            pure .binaryExpression

/-- An expression; one that is missing is reported. -/
def expression? (g : Nested) : Parser (Option Kind) := do
  match ← binary? g 6 1 with
  | some k => pure (some k)
  | none =>
    expectedOr "expression" expressionRecovery
    pure none

/-- An expression, whatever becomes of it. -/
def expression (g : Nested) : Parser Unit := discard (expression? g)

/-- Expressions with commas between them. One expression alone is not put into a list. -/
def expressionList? (g : Nested) : Parser (Option Kind) := do
  match ← expression? g with
  | none => pure none
  | some first =>
    if ← isAt .comma then
      some <$> wrapBy do
        repeatWhile do
          if ← eat .comma then
            expression g
            pure true
          else pure false
        pure .expressionList
    else pure (some first)

/-- Expressions with commas between them, whatever becomes of them. -/
def expressionList (g : Nested) : Parser Unit := discard (expressionList? g)

/-! ## Statements -/

/-- What stands between an item and the next one or the closer behind the last: a semicolon. -/
def separator (closer : Kind) : Parser Unit := do
  unless ← isAt closer do
    unless ← eat .semicolon do expected "';' or newline"

/-- What stands behind a statement: a semicolon, unless the block ends or a lexical error follows. -/
def statementEnd : Parser Unit := do
  unless ← isAt .rightBrace <||> Kind.isLexicalError <$> peek do
    unless ← eat .semicolon do expected "';' or newline after statement"

/-- One round of a list of statements: a semicolon, a word that is a lexical error, or a statement and
the semicolon behind it. False at the end of the list. -/
def statementRound (g : Nested) : Parser Bool := do
  match ← peek with
  | .rightBrace | .endOfInput | .caseKeyword | .defaultKeyword => pure false
  | .semicolon =>
    advance
    pure true
  | k =>
    if k.isLexicalError then
      node .error advance
      pure true
    else if ← breaksBlock then pure false
    else
      orSkip g.statement "statement" statementEnd
      pure true

/-- Statements up to the end of a block or a clause. -/
def statements (g : Nested) : Parser Unit := repeatWhile (statementRound g)

/-- A block. -/
def block (g : Nested) : Parser Unit := node .block do
  expect .leftBrace
  withComposites true (statements g)
  expect .rightBrace

end GoFront.Source
