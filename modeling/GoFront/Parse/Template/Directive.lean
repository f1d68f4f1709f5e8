import GoFront.Parse.Template.Pipeline

/-!
# The template grammar: directives

A template is a sequence of host text and directives. A block directive runs up to its `end` and holds
a sequence of its own, and `else` branches if it is a condition or a loop.
-/

namespace GoFront.Template

open GoFront.Parser

/-! ## Opening and closing a directive -/

/-- Takes the opening marker and the keyword behind it. -/
def openAction : Parser Unit := do
  advance
  advance

/-- Takes words up to the closing marker. -/
def skipAction : Parser Unit := repeatWhile do
  if ← isAtActionEnd then pure false
  else
    advance
    pure true

/-- The end of a directive. What stands before the closing marker is skipped; it is reported unless it
starts with a lexical error, which has been reported already. -/
def closeAction (d : Delimiters) : Parser Unit := do
  if ← eat .rightDelimiter then pure ()
  else if ← isAt .endOfInput then error .unclosedAction
  else
    node .error do
      otherwise (Kind.isLexicalError <$> peek) (expected ("'" ++ String.ofList d.right ++ "'"))
      skipAction
    let _ ← eat .rightDelimiter

/-- The quoted name of a template. -/
def templateName : Parser Unit := do
  if ← isAt .string <||> isAt .rawString then advance
  else expectedOr "template name string" (.ofList [.rightDelimiter])

/-- A pipeline, if the directive does not end here. -/
def pipelineIfAny (g : Nested) : Parser Unit := do
  unless ← isAtActionEnd do pipeline g

/-- The pipeline of a directive that needs one. -/
def requiredPipeline (g : Nested) (subject : String) : Parser Unit := do
  if ← isAtActionEnd then error (.missingValue subject) else pipeline g

/-! ## Directives without a body -/

/-- A `break` or `continue`. -/
def loopControl (d : Delimiters) (inLoop : Bool) (k : Kind) (keyword : String) : Parser Unit := node k do
  let start ← currentStart
  openAction
  closeAction d
  unless inLoop do errorSince start (.outsideLoop d keyword)

/-- A directive that stands alone. -/
def simpleAction (g : Nested) (d : Delimiters) (inLoop : Bool) : Kind → Parser Unit
  | .templateKeyword => node .templateCall do
    openAction
    templateName
    pipelineIfAny g
    closeAction d
  | .breakKeyword => loopControl d inLoop .templateBreak "break"
  | .continueKeyword => loopControl d inLoop .templateContinue "continue"
  | .returnKeyword => node .templateReturn do
    openAction
    pipelineIfAny g
    closeAction d
  | .blockComment | .unterminatedComment => node .templateAction do
    openAction
    closeAction d
  | _ => node .templateAction do
    advance
    requiredPipeline g "command"
    closeAction d

/-! ## Sequences -/

/-- Whether a keyword opens a block, which an `end` has to close. -/
def opensBlock : Kind → Bool
  | .ifKeyword | .rangeKeyword | .withKeyword | .defineKeyword | .blockKeyword => true
  | _ => false

/-- Host text, or a directive. -/
def item (g : Nested) (d : Delimiters) (inLoop : Bool) : Parser Unit := do
  if ← isAt .leftDelimiter then
    let keyword ← nth 1
    if opensBlock keyword then g.block inLoop else simpleAction g d inLoop keyword
  else advance

/-- Whether an `else` or an `end` follows. -/
def isAtListEnd : Parser Bool := isAt .leftDelimiter <&&> do
  let keyword ← nth 1
  pure (keyword == .elseKeyword || keyword == .endKeyword)

/-- The sequence in a block, up to its `else` or `end`. -/
def list (g : Nested) (d : Delimiters) (inLoop : Bool) : Parser Unit := node .templateList <| repeatWhile do
  if ← isAt .endOfInput <||> isAtListEnd then pure false
  else
    item g d inLoop
    pure true

/-- One round of skipping, inside `depth` blocks: the `else` or `end` of the block around them all ends
it. -/
def skipDirectives (depth : Nat) : Parser (ForInStep Nat) := do
  if ← isAt .endOfInput then pure (.done depth)
  else if ← isAt .leftDelimiter then
    let keyword ← nth 1
    if (keyword = .elseKeyword || keyword = .endKeyword) && depth = 0 then pure (.done depth)
    else
      advance
      pure <| .yield <|
        if opensBlock keyword then depth + 1 else if keyword = .endKeyword then depth - 1 else depth
  else
    advance
    pure (.yield depth)

/-- Skips a block that is nested too deep, along with the rest of the sequence it stands in. -/
def skipBlocks : Parser Unit := node .error do
  error .nestingTooDeep
  discard (loop 0 skipDirectives)

/-! ## Blocks -/

/-- The `end` of a block. One that is missing is reported on the directive that opens the block. -/
def blockEnd (d : Delimiters) (keyword : String) (opener : Span) : Parser Unit := do
  if ← isAt .leftDelimiter <&&> nthIs 1 .endKeyword then
    node .templateEnd do
      openAction
      closeAction d
  else errorAt opener (.missingEnd d keyword)

/-- The keyword of an `else` branch with a condition of its own. -/
def chainedKeyword (k : Kind) : String := if k = .ifKeyword then "if" else "with"

/-- The condition of an `else` branch that has one. -/
def chainedCondition (g : Nested) : Parser Unit := do
  let chain ← peek
  advance
  requiredPipeline g (chainedKeyword chain)

/-- What is wrong with an `else` branch as a whole: it follows a plain one, or it has a condition though
it belongs to a loop. -/
def elseFault (d : Delimiters) (start : Nat) (isLoop : Bool) (keyword : String)
    (plainBefore chained : Bool) : Parser Unit :=
  if plainBefore then errorSince start (.elseBehindElse d)
  else if chained && isLoop then errorSince start (.chainedElse d keyword)
  else pure ()

/-- An `else` branch of a block. `plainBefore` tells whether a branch without a condition came before,
`chained` whether this one has a condition. -/
def elseBranch (g : Nested) (d : Delimiters) (inLoop isLoop : Bool) (keyword : String)
    (plainBefore chained : Bool) : Parser Unit := node .templateElse do
  let start ← currentStart
  openAction
  given (pure chained) (chainedCondition g)
  closeAction d
  elseFault d start isLoop keyword plainBefore chained
  list g d inLoop

/-- An `else` branch, if one follows. `plainBefore` tells whether a branch without a condition came
before. -/
def elseRound (g : Nested) (d : Delimiters) (inLoop isLoop : Bool) (keyword : String) (plainBefore : Bool) :
    Parser (ForInStep Bool) := do
  if ← isAt .leftDelimiter <&&> nthIs 1 .elseKeyword then
    let second ← nth 2
    let chained := second == .ifKeyword || second == .withKeyword
    elseBranch g d inLoop isLoop keyword plainBefore chained
    pure (.yield (plainBefore || !chained))
  else pure (.done plainBefore)

/-- The `else` branches of a block. -/
def elseBranches (g : Nested) (d : Delimiters) (inLoop isLoop : Bool) (keyword : String) : Parser Unit :=
  discard (loop false (elseRound g d inLoop isLoop keyword))

/-- A condition or a loop: a pipeline, a body, `else` branches and an `end`. -/
def control (g : Nested) (d : Delimiters) (inLoop : Bool) (k : Kind) (keyword : String) : Parser Unit :=
  node k do
    let isLoop := k == .templateRange
    let start ← currentStart
    openAction
    requiredPipeline g keyword
    closeAction d
    let opener ← spanSince start
    list g d (inLoop || isLoop)
    elseBranches g d inLoop isLoop keyword
    blockEnd d keyword opener

/-- A definition: a name, for `block` a pipeline, and a body, which no loop around it reaches into. -/
def namedBlock (g : Nested) (d : Delimiters) (k : Kind) (keyword : String) : Parser Unit := node k do
  let start ← currentStart
  openAction
  templateName
  given (pure (k = .templateBlock)) (pipelineIfAny g)
  closeAction d
  let opener ← spanSince start
  list g d false
  blockEnd d keyword opener

/-- The block directive that opens with a keyword. -/
def keywordBlock (g : Nested) (d : Delimiters) (inLoop : Bool) : Kind → Parser Unit
  | .ifKeyword => control g d inLoop .templateIf "if"
  | .rangeKeyword => control g d inLoop .templateRange "range"
  | .withKeyword => control g d inLoop .templateWith "with"
  | .defineKeyword => namedBlock g d .templateDefine "define"
  | _ => namedBlock g d .templateBlock "block"

/-- A block directive, one level down. -/
def blockInner (g : Nested) (d : Delimiters) (inLoop : Bool) : Parser Unit := do
  keywordBlock g d inLoop (← nth 1)

end GoFront.Template
