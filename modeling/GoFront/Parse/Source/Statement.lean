import GoFront.Parse.Source.Declaration

/-!
# The source grammar: statements
-/

namespace GoFront.Source

open GoFront.Parser

/-! ## Simple statements -/

/-- Turns an expression into a statement; what is a statement already stays as it is. -/
def asStatement (k : Kind) : Parser Unit := do
  unless k.isStatement do wrap .expressionStatement (pure ())

/-- What an assignment operator makes of the expressions before it. -/
def assignmentKind? (operator : Kind) : Option Kind :=
  if operator = .define then some .shortVariableDeclaration
  else if operator = .assign || operator.isCompoundAssignment then some .assignStatement
  else none

/-- An assignment behind its left side, or the clause of a `range` loop where one is allowed. -/
def assignment (g : Nested) (allowRange : Bool) (k : Kind) : Parser Kind := wrapBy do
  let operator ← peek
  advance
  if ← pure (allowRange && (operator == .define || operator == .assign)) <&&> isAt .rangeKeyword then
    advance
    expression g
    pure .rangeClause
  else
    expressionList g
    pure k

/-- What follows the first expressions of a simple statement. -/
def simpleRest (g : Nested) (allowRange : Bool) (first : Kind) : Parser Kind := do
  let operator ← peek
  match assignmentKind? operator with
  | some k => assignment g allowRange k
  | none =>
    match operator with
    | .increment | .decrement =>
      wrapBy do
        advance
        pure .stepStatement
    | .arrow =>
      wrapBy do
        advance
        expression g
        pure .sendStatement
    | _ => pure first

/-- A simple statement. An expression alone is not wrapped, so that headers can use it as a
condition. -/
def simpleStatement? (g : Nested) (allowRange : Bool) : Parser (Option Kind) := do
  if ← pure allowRange <&&> isAt .rangeKeyword then
    some <$> nodeBy do
      advance
      expression g
      pure .rangeClause
  else
    match ← expressionList? g with
    | none => pure none
    | some first => some <$> simpleRest g allowRange first

/-- A simple statement, wrapped if it is an expression alone. -/
def wholeStatement (g : Nested) : Parser Unit := do
  if let some k ← simpleStatement? g false then asStatement k

/-! ## Branches -/

/-- A keyword and a label that may be missing. -/
def branch (k : Kind) : Parser Unit := node k do
  advance
  if ← isAt .identifier then nameRef "label"

/-- A keyword and an expression. -/
def spawn (g : Nested) (k : Kind) : Parser Unit := node k do
  advance
  expression g

/-! ## Blocks with headers -/

/-- A block, or a report that it is missing. -/
def requiredBlock (g : Nested) : Parser Unit := do
  if ← isAt .leftBrace then block g else expected "'\x7b'"

/-- The header of `if` and `switch`: a statement and a semicolon that may be missing, and a condition. -/
def header (g : Nested) : Parser Unit := withComposites false do
  unless ← isAt .leftBrace do
    otherwise (isAt .semicolon) (discard (simpleStatement? g false))
    if ← eat .semicolon then
      unless ← isAt .leftBrace do discard (simpleStatement? g false)

/-- An `if` with its `else` branches; `links` bounds how many further ones can follow, and there is no
text in which more do. -/
def ifChain (g : Nested) : (links : Nat) → Parser Unit
  | 0 => fail .stuck
  | links + 1 => node .ifStatement do
    advance
    given (isAt .leftBrace) (error .missingCondition)
    header g
    requiredBlock g
    if ← eat .elseKeyword then
      match ← peek with
      | .ifKeyword => ifChain g links
      | .leftBrace => block g
      | _ => expected "'if' or '\x7b'"

/-- An `if` with its `else` branches. -/
def ifStatement (g : Nested) : Parser Unit := do ifChain g (← remaining)

/-- The three parts between the `for` and its block, behind the first of them. -/
def forParts (g : Nested) : Parser Unit := do
  advance
  otherwise (isAt .semicolon) (expression g)
  expect .semicolon
  unless ← isAt .leftBrace do wholeStatement g

/-- The header of a `for`: a condition, the clause of a `range` loop, or three parts. -/
def forHeader (g : Nested) : Parser Unit := do
  let init ← choose (isAt .semicolon) (pure none) (simpleStatement? g true)
  if init = some .rangeClause then pure ()
  else if ← isAt .semicolon then
    match init with
    | some k =>
      asStatement k
      wrap .forClause (forParts g)
    | none => node .forClause (forParts g)

/-- A `for` loop. -/
def forStatement (g : Nested) : Parser Unit := node .forStatement do
  advance
  withComposites false do
    unless ← isAt .leftBrace do forHeader g
  requiredBlock g

/-- What a `case` stands before: a communication, or values. -/
def caseSubject (g : Nested) (k : Kind) : Parser Unit :=
  if k = .communicationClause then discard (simpleStatement? g false) else expressionList g

/-- A clause of a `switch` or `select`. -/
def clause (g : Nested) (k : Kind) : Parser Unit := node k do
  choose (eat .caseKeyword) (caseSubject g k) advance
  expect .colon
  statements g

/-- A clause of a `switch` or `select`, or what stands in its place. -/
def clauseOrSkip (g : Nested) (k : Kind) : Parser Unit := do
  match ← peek with
  | .caseKeyword | .defaultKeyword => clause g k
  | .semicolon => advance
  | _ => expectedAndAdvance "'case' or 'default'"

/-- The clauses of a `switch` or `select` between braces. -/
def clauses (g : Nested) (k : Kind) : Parser Unit := do
  if ← eat .leftBrace then
    withComposites true <| repeatWhile do
      if ← isAt .rightBrace <||> isAt .endOfInput <||> breaksBlock then pure false
      else
        clauseOrSkip g k
        pure true
    expect .rightBrace
  else expected "'\x7b'"

/-! ## Statements -/

/-- A label and the statement it stands before. -/
def labeledStatement (g : Nested) : Parser Unit := node .labeledStatement do
  name "label"
  advance
  unless ← isAt .rightBrace <||> isAt .endOfInput do g.statement

/-- A statement, one level down. Where no statement starts, nothing is taken. -/
def statementInner (g : Nested) : Parser Unit := do
  match ← peek with
  | .varKeyword | .constKeyword | .typeKeyword => node .declarationStatement (declaration g)
  | .returnKeyword =>
    node .returnStatement do
      advance
      if ← isAtAny expressionStart then expressionList g
  | .breakKeyword => branch .breakStatement
  | .continueKeyword => branch .continueStatement
  | .gotoKeyword =>
    node .gotoStatement do
      advance
      nameRef "label"
  | .fallthroughKeyword => node .fallthroughStatement advance
  | .goKeyword => spawn g .goStatement
  | .deferKeyword => spawn g .deferStatement
  | .ifKeyword => ifStatement g
  | .forKeyword => forStatement g
  | .switchKeyword =>
    node .switchStatement do
      advance
      header g
      clauses g .caseClause
  | .selectKeyword =>
    node .selectStatement do
      advance
      clauses g .communicationClause
  | .leftBrace => block g
  | k =>
    if ← pure (k == .identifier) <&&> nthIs 1 .colon then labeledStatement g
    else if ← isAtAny expressionStart then wholeStatement g

end GoFront.Source
