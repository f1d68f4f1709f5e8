import GoFront.Parse.Source.Basic

/-!
# The source grammar: signatures

Parameters, results and type parameters of functions and types.
-/

namespace GoFront.Source

open GoFront.Parser

/-- Whether the identifier at hand names a parameter, judged by the words behind it. -/
def namesParameter : Parser Bool := do
  match ← nth 1 with
  | .identifier | .star | .mapKeyword | .chanKeyword | .funcKeyword | .structKeyword
  | .interfaceKeyword | .ellipsis | .leftParen | .arrow => pure true
  | .leftBracket =>
    match ← nth 2 with
    | .rightBracket | .intNumber | .ellipsis => pure true
    | _ => pure false
  | _ => pure false

/-- A parameter: a name that may be missing, dots that may be missing, and a type. False if the next
word cannot start one. -/
def parameter (g : Nested) : Parser Bool := do
  if ← isAtAny typeStart <||> isAt .ellipsis then
    node .parameter do
      given (isAt .identifier <&&> namesParameter) (name "parameter name")
      let _ ← eat .ellipsis
      type g
    pure true
  else pure false

/-- Parameters between parentheses. -/
def parameterList (g : Nested) (k : Kind) : Parser Unit := node k do
  advance
  repeatWhile do
    if ← isAt .rightParen <||> isAt .endOfInput then pure false
    else if ← parameter g then eat .comma
    else pure false
  expect .rightParen

/-- The parameters and the result of a function or a function type. -/
def signature (g : Nested) : Parser Unit := do
  choose (isAt .leftParen) (parameterList g .parameterList) (expected "'('")
  if ← isAt .leftParen then node .result (parameterList g .parameterList)
  else if ← isAtAny typeStart then node .result (discard (type? g))

/-- A union of type terms such as `~int | string`. One plain term alone is not wrapped. -/
def typeElement (g : Nested) : Parser Unit := nodeIf .typeElement do
  loop false fun union => do
    let tilde ← eat .tilde
    type g
    if ← eat .pipe then pure (.yield true) else pure (.done (union || tilde))

/-- Type parameters between brackets. -/
def typeParameters (g : Nested) : Parser Unit := node .typeParameterList do
  advance
  repeatWhile do
    if ← isAt .identifier then
      node .typeParameter do
        name "type parameter"
        if ← isAtAny typeStart <||> isAt .tilde then typeElement g
      eat .comma
    else pure false
  expect .rightBracket

end GoFront.Source
