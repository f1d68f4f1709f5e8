import GoFront.Parse.Replay
import GoFront.Parse.Source.Expression
import GoFront.Parse.Source.Statement
import GoFront.Parse.Source.Type
import GoFront.Token.Source

/-!
# The source grammar: files

The productions that lead one level down are tied together by recursion on the number of levels that
may still be entered. A file is a package clause followed by declarations; whatever does not start one
is skipped up to the next line that does.

`parse` gives a tree that covers the whole text, and what is wrong is among the errors of the tree.
`parse?` is the same with every assertion checked on the way.
-/

namespace GoFront.Source

open GoFront.Parser

/-- The nested productions when `levels` further levels may be entered. -/
def nested : (levels : Nat) → Nested
  | 0 => .bottom
  | levels + 1 =>
    let g := nested levels
    { operand := operandInner g
      type := typeInner g
      statement := statementInner g
      literalValue := literalValue g }

/-- The number of levels a file may nest. -/
def nestingLimit : Nat := 256

/-- The productions as seen from the top level. -/
def top : Nested := nested nestingLimit

/-- The package clause. -/
def packageClause : Parser Unit := do
  if ← isAt .packageKeyword then
    node .packageClause do
      advance
      name "package name"
    let _ ← eat .semicolon
  else expected "package clause"

/-- A stretch that starts no declaration, up to the next line that does. The line end before that line
stays outside. -/
def skipToDeclaration : Parser Unit := node .error do
  expected "declaration"
  advance
  repeatWhile do
    if ← isAt .endOfInput <||> startsDeclaration 0 <||> (isAt .semicolon <&&> startsDeclaration 1) then
      pure false
    else
      advance
      pure true

/-- A package clause in the wrong place. -/
def misplacedPackage : Parser Unit := node .error do
  error .misplacedPackage
  advance
  let _ ← eat .identifier

/-- A declaration at the top level, or what stands in its place. -/
def declarationOrSkip : Parser Unit := do
  match ← peek with
  | .importKeyword => declare .importDeclaration importSpec
  | .funcKeyword => functionDeclaration top
  | .typeKeyword | .varKeyword | .constKeyword => declaration top
  | .semicolon => advance
  | .packageKeyword => misplacedPackage
  | _ => skipToDeclaration

/-- A declaration at the top level, or what stands in its place, and the semicolon behind it. -/
def topLevel : Parser Unit := do
  declarationOrSkip
  discard (eat .semicolon)

/-- The parts of a file. -/
def file : Parser Unit := do
  packageClause
  repeatWhile do
    if ← isAt .endOfInput then pure false
    else
      topLevel
      pure true

/-- The tree of a source file. -/
def parse (text : Text) : SyntaxTree :=
  file.tree .sourceFile Kind.isTrivia text 0 (tokens text)

/-- The tree of a source file, if no assertion fails. -/
def parse? (text : Text) : Except ParseFailure SyntaxTree :=
  file.tree? .sourceFile Kind.isTrivia text 0 (tokens text)

end GoFront.Source
