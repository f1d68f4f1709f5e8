import GoFront.Parse.Replay
import GoFront.Parse.Template.Directive
import GoFront.Token.Template

/-!
# The template grammar: documents

The productions that lead one level down are tied together by recursion on the number of levels that
may still be entered. At the top level an `else` or `end` without a block is reported and skipped.

`parse` gives a tree that covers the whole text, and what is wrong is among the errors of the tree.
`parseRange?` does so for a stretch of a document, with every assertion checked on the way.
-/

namespace GoFront.Template

open GoFront.Parser

/-- The nested productions when `levels` further levels may be entered. -/
def nested (d : Delimiters) : (levels : Nat) → Nested
  | 0 => ⟨fun _ => skipBlocks, skipPipeline⟩
  | levels + 1 =>
    let g := nested d levels
    ⟨blockInner g d, pipeline g⟩

/-- The number of levels a template may nest. -/
def nestingLimit : Nat := 256

/-- The condition of an `else` without a block. -/
def strayChain (g : Nested) (k : Kind) : Parser Unit := do
  if k = .templateElse then
    match ← peek with
    | .ifKeyword | .withKeyword =>
      advance
      pipelineIfAny g
    | _ => pure ()

/-- An `end` or `else` without a block. -/
def stray (g : Nested) (d : Delimiters) (k : Kind) (keyword : String) : Parser Unit := node k do
  let start ← currentStart
  openAction
  strayChain g k
  closeAction d
  errorSince start (.stray d keyword)

/-- Host text or a directive at the top level. -/
def topLevel (g : Nested) (d : Delimiters) : Parser Unit := do
  if ← isAtListEnd then
    if ← nthIs 1 .endKeyword then stray g d .templateEnd "end" else stray g d .templateElse "else"
  else item g d false

/-- The parts of a template. -/
def document (d : Delimiters) : Parser Unit :=
  let g := nested d nestingLimit
  repeatWhile do
    if ← isAt .endOfInput then pure false
    else
      topLevel g d
      pure true

/-- Words of the template grammar are separated by blanks; comments are words. -/
def isTrivia (k : Kind) : Bool := k == .whitespace

/-- The tree of a template that is a piece of a document and starts at an offset in it. -/
def parse (d : Delimiters) (host : HostLanguage) (offset : Nat) (text : Text) : SyntaxTree :=
  (document d).tree .template isTrivia text offset (tokens d host offset text)

/-- The tree of a template that is a piece of a document, if no assertion fails. -/
def parse? (d : Delimiters) (host : HostLanguage) (offset : Nat) (text : Text) :
    Except ParseFailure SyntaxTree :=
  (document d).tree? .template isTrivia text offset (tokens d host offset text)

/-- The tree of the template between two offsets of a text, if no assertion fails. -/
def parseRange? (d : Delimiters) (host : HostLanguage) (text : Text) (start stop : Nat) :
    Except ParseFailure SyntaxTree :=
  match text.slice? start stop with
  | none => .error .brokenRange
  | some piece => parse? d host start piece

end GoFront.Template
