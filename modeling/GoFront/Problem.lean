import GoFront.Kind.Spelling
import GoFront.Token.Basic
import GoFront.Token.Delimiters

/-!
# Problems

What can be wrong with a file or a template, by cause. The wording of each cause is in one place,
`Problem.message`.
-/

namespace GoFront

/-- A reason why a text is not well formed. -/
inductive Problem where
  /-- Something else stands where `what` had to stand. -/
  | expected (what : String) (got : Kind)
  /-- An operator lacks the operand behind it. -/
  | missingOperand (operator : Kind)
  /-- An `if` is followed by its block at once. -/
  | missingCondition
  /-- A package clause stands behind the start of a file. -/
  | misplacedPackage
  /-- The text nests deeper than the parser descends. -/
  | nestingTooDeep
  /-- A token that stands for a lexical error. -/
  | lexical (kind : Kind) (text : Text)
  /-- A command or a directive lacks its value. -/
  | missingValue (subject : String)
  /-- The text ends inside a directive. -/
  | unclosedAction
  /-- A block directive is never closed. -/
  | missingEnd (d : Delimiters) (keyword : String)
  /-- An `else` follows the plain `else` of the same block. -/
  | elseBehindElse (d : Delimiters)
  /-- An `else` with a condition of its own, in a block that takes none. -/
  | chainedElse (d : Delimiters) (keyword : String)
  /-- An `end` or an `else` without a block. -/
  | stray (d : Delimiters) (keyword : String)
  /-- A loop control without a loop. -/
  | outsideLoop (d : Delimiters) (keyword : String)
  /-- Any other reason, in words. -/
  | other (message : String)
  deriving DecidableEq

namespace Problem

/-- The wording of a lexical error; a character that fits nowhere is quoted. -/
def lexicalMessage (kind : Kind) (text : Text) : String :=
  let message := kind.lexicalMessage?.getD ""
  if kind = .badCharacter then message ++ " " ++ String.ofList text.quote else message

/-- The wording of a problem. -/
def message : Problem → String
  | .expected what got => "expected " ++ what ++ ", got " ++ got.describe
  | .missingOperand operator => "missing operand after " ++ operator.describe
  | .missingCondition => "missing condition in if statement"
  | .misplacedPackage => "unexpected package clause"
  | .nestingTooDeep => "nesting too deep"
  | .lexical kind text => lexicalMessage kind text
  | .missingValue subject => "missing value for " ++ subject
  | .unclosedAction => "unclosed action"
  | .missingEnd d keyword => "missing " ++ d.around "end" ++ " for " ++ d.around keyword
  | .elseBehindElse d => "expected " ++ d.around "end" ++ ", found " ++ d.around "else"
  | .chainedElse d keyword => "unexpected chained " ++ d.around "else" ++ " in " ++ d.around keyword
  | .stray d keyword => "unexpected " ++ d.around keyword
  | .outsideLoop d keyword => d.around keyword ++ " outside " ++ d.around "range"
  | .other message => message

end Problem

end GoFront
