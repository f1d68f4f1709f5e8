import GoFront.Parse.Basic
import GoFront.Tree.Basic

/-!
# Weaving

A parser grows sprouts without blanks and comments. Weaving turns them into a concrete tree: the
blanks and comments go back between the words, elements get their numbers, and nodes the stretch they
cover.

Blanks and comments before a word stand in front of the outermost node that starts with the word; those
behind the last word end the outermost node of all. A token that stands for a lexical error brings its
error with it, which belongs to the nearest statement, declaration or template action around it.
-/

namespace GoFront

/-- What is left to weave, and the numbers given so far. -/
structure Loom where
  /-- The words to come; the gap before the first may already be woven. -/
  words : List Word
  /-- The blanks and comments behind the last word. -/
  tail : List Token
  /-- The offset of what comes next. -/
  position : Nat
  /-- The number of the next node. -/
  nodes : Nat := 0
  /-- The number of the next token. -/
  tokens : Nat := 0
  /-- The errors so far, last first. -/
  errors : List SyntaxError := []

/-- A node that is not finished: its number and its kind. -/
abbrev OpenNode := Nat × Kind

/-- The number of the innermost open node. -/
def innermost (opened : List OpenNode) : Nat := (opened.head?.map Prod.fst).getD 0

/-- The number of the node a lexical error belongs to: the innermost open statement, declaration or
template action, or the innermost open node if there is none. -/
def anchor (opened : List OpenNode) : Nat :=
  ((opened.find? (·.2.isAnchor)).map Prod.fst).getD (innermost opened)

namespace Loom

/-- The loom after an error. -/
def withError (l : Loom) (e : SyntaxError) : Loom := { l with errors := e :: l.errors }

/-- Places one token. -/
def placeToken (opened : List OpenNode) (t : Token) (l : Loom) : Element × Loom :=
  let l :=
    if t.kind.isLexicalError then l.withError ⟨.lexical t.kind t.text, t.span, anchor opened⟩ else l
  (.token l.tokens t, { l with tokens := l.tokens + 1, position := t.stop })

/-- Places tokens one after another. -/
def place (opened : List OpenNode) : List Token → Loom → List Element × Loom
  | [], l => ([], l)
  | t :: ts, l =>
    let (e, l) := l.placeToken opened t
    let (es, l) := place opened ts l
    (e :: es, l)

/-- Places the blanks and comments before the next word, or the last ones if there is no word left. -/
def placeGap (opened : List OpenNode) (l : Loom) : List Element × Loom :=
  match l.words with
  | [] => place opened l.tail { l with tail := [] }
  | w :: ws => place opened w.gap { l with words := { w with gap := [] } :: ws }

/-- Places the next word and the blanks and comments before it. -/
def placeWord (opened : List OpenNode) (l : Loom) : List Element × Loom :=
  match l.words with
  | [] => place opened l.tail { l with tail := [] }
  | w :: ws => place opened (w.gap ++ [w.token]) { l with words := ws }

/-- Places everything that is left. -/
def placeRest (opened : List OpenNode) (l : Loom) : List Element × Loom :=
  place opened (Words.mk l.words l.tail).toTokens { l with words := [], tail := [] }

end Loom

namespace Sprout

mutual

/-- The elements of a sprout inside open nodes. -/
def weave (opened : List OpenNode) : Sprout → Loom → List Element × Loom
  | .word _, l => l.placeWord opened
  | .error p r, l => ([], l.withError ⟨p, r, innermost opened⟩)
  | .node k cs, l =>
    let (gap, l) := l.placeGap opened
    let (children, m) := weaveIn ((l.nodes, k) :: opened) cs { l with nodes := l.nodes + 1 }
    (gap ++ [.node l.nodes k (.between l.position m.position) children], m)

/-- The elements of sprouts that follow one another inside open nodes. -/
def weaveIn (opened : List OpenNode) : List Sprout → Loom → List Element × Loom
  | [], l => ([], l)
  | s :: ss, l =>
    let (es, l) := weave opened s l
    let (es', l) := weaveIn opened ss l
    (es ++ es', l)

end

/-- The tree of a text at an offset, given its words and what a parser grew from them in the outermost
node. -/
def tree (k : Kind) (sprouts : List Sprout) (text : Text) (offset : Nat) (ws : Words) : SyntaxTree :=
  let opened : List OpenNode := [(0, k)]
  let start : Loom := { words := ws.words, tail := ws.tail, position := offset, nodes := 1 }
  let (children, l) := weaveIn opened sprouts start
  let (last, l) := l.placeRest opened
  { text, offset, errors := l.errors.reverse,
    root := ⟨0, k, .between offset l.position, children ++ last⟩ }

end Sprout

/-- The tree that a parser for the parts of the outermost node makes of a text at an offset. -/
def Parser.tree (k : Kind) (body : Parser Unit) (isTrivia : Kind → Bool) (text : Text) (offset : Nat)
    (tokens : List Token) : SyntaxTree :=
  let ws := Words.ofTokens isTrivia tokens
  let s := (body.run (.start isTrivia text offset tokens)).2
  Sprout.tree k s.grown.reverse text offset ws

end GoFront
