import GoFront.Parse.Basic

/-!
# The template grammar: pipelines

A pipeline is a chain of commands, a command a row of operands. Pipelines nest in parentheses and blocks
nest in blocks; both descents share one limit. `Nested` holds the two productions that lead one level
down, for a given number of levels that may still be entered.
-/

namespace GoFront.Template

open GoFront.Parser

/-- The productions one level further down. -/
structure Nested where
  /-- A block directive; the flag tells whether it stands in the body of a loop. -/
  block : (inLoop : Bool) → Parser Unit
  /-- A pipeline behind an opening parenthesis. -/
  pipeline : Parser Unit

/-- Whether the directive ends here. -/
def isAtActionEnd : Parser Bool := isAt .rightDelimiter <||> isAt .endOfInput

/-- Takes the next word if it is a field that directly follows the last word, and tells whether it did. -/
def eatField : Parser Bool := do
  if ← isAdjacent .field then
    advance
    pure true
  else pure false

/-- Takes words as long as they are fields that directly follow one another. -/
def fields : Parser Unit := repeatWhile eatField

/-- A node around the next word. -/
def leaf (k : Kind) : Parser Kind := nodeBy do
  advance
  pure k

/-- One round of skipping, inside `depth` parentheses: the closing one around them all ends it. -/
def skipParens (depth : Nat) : Parser (ForInStep Nat) := do
  if ← isAt .endOfInput <||> isAt .rightDelimiter then pure (.done depth)
  else
    match ← peek with
    | .leftParen =>
      advance
      pure (.yield (depth + 1))
    | .rightParen =>
      if depth = 0 then pure (.done depth)
      else
        advance
        pure (.yield (depth - 1))
    | _ =>
      advance
      pure (.yield depth)

/-- Skips a pipeline that is nested too deep, up to its closing parenthesis. -/
def skipPipeline : Parser Unit := node .error do
  error .nestingTooDeep
  discard (loop 0 skipParens)

/-- The node around a word that is an operand of its own. -/
def leafKind? : Kind → Option Kind
  | .dot => some .templateDot
  | .variable => some .templateVariable
  | .identifier | .compareOperator | .logicOperator => some .templateFunction
  | .intNumber | .floatNumber | .imaginaryNumber | .rune | .string | .rawString
  | .unterminatedString | .unterminatedRawString | .unterminatedRune | .trueKeyword
  | .falseKeyword | .nilKeyword => some .templateLiteral
  | _ => none

/-- The first part of an operand; none if the next word starts no operand. -/
def term? (g : Nested) : Parser (Option Kind) := do
  match ← peek with
  | .field =>
    some <$> nodeBy do
      advance
      fields
      pure .templateFieldChain
  | .leftParen =>
    some <$> nodeBy do
      advance
      g.pipeline
      expect .rightParen
      pure .templateParen
  | k =>
    match leafKind? k with
    | some label => some <$> leaf label
    | none => pure none

/-- An operand: a variable or a parenthesis can be followed by fields. False if there is none. -/
def operand (g : Nested) : Parser Bool := do
  match ← term? g with
  | none => pure false
  | some k =>
    given (pure (k = .templateVariable || k = .templateParen) <&&> isAdjacent .field)
      (wrap .templateChain fields)
    pure true

/-- A command: one operand or more. -/
def command (g : Nested) : Parser Unit := node .templateCommand do
  if ← operand g then repeatWhile (operand g) else error (.missingValue "command")

/-- Whether a pipeline starts by declaring or setting one variable or two. -/
def isAtDeclaration : Parser Bool := isAt .variable <&&> do
  match ← nth 1 with
  | .define | .assign => pure true
  | .comma => nthIs 2 .variable <&&> do
    let sign ← nth 3
    pure (sign == .define || sign == .assign)
  | _ => pure false

/-- A variable that is declared or set. -/
def declaredVariable : Parser Unit := node .templateVariable advance

/-- One variable or two, and the sign that declares or sets them. -/
def declaration : Parser Unit := node .templateDeclaration do
  declaredVariable
  given (eat .comma) declaredVariable
  advance

/-- A pipeline. -/
def pipeline (g : Nested) : Parser Unit := node .templatePipeline do
  given isAtDeclaration declaration
  repeatWhile do
    command g
    eat .pipe

end GoFront.Template
