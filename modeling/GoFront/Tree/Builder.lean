import GoFront.Tree.Basic

/-!
# Building a tree step by step

A tree can be put together by starting and finishing nodes and adding the tokens of a text in between.
The steps have to fit: the nodes form one bracketing with a single root, every token stands in a node
and starts where the one before it ends, and in the end the whole text is covered. A step that does not
fit is refused with its reason.

## Numbers without a bound

Nodes, tokens, the parts of nodes and the events of a parser are counted and numbered by natural numbers, and so are
the bytes of a text. Where these numbers are kept in 32 bits, it is assumed that none of them wraps around: the text
has fewer than `2 ^ 32` bytes, and there are fewer than `2 ^ 32` nodes, tokens, parts and events. A step adds at most
one node, one token and one part, so for these it is enough that fewer than `2 ^ 32` steps are taken. Up to there, the
numbers are the same; nothing is said about what lies beyond.
-/

namespace GoFront

/-- Which of the open nodes an error belongs to. -/
inductive Anchor where
  /-- The innermost one. -/
  | innermost
  /-- The innermost statement, declaration or template action, or the innermost node if there is none. -/
  | statement
  deriving DecidableEq, Repr

/-- A step in building a tree. -/
inductive BuildStep where
  /-- Start a node. -/
  | start (kind : Kind)
  /-- Finish the node started last. -/
  | finish
  /-- Add a token that lies between two offsets. -/
  | token (kind : Kind) (start stop : Nat)
  /-- Record an error that lies between two offsets. -/
  | error (message : String) (start stop : Nat) (anchor : Anchor)
  deriving DecidableEq, Repr

/-- Why a step, or the end of the building, is refused. -/
inductive BuildError where
  /-- A node starts behind the finished root. -/
  | secondRoot
  /-- A node is finished and none is open. -/
  | nothingOpen
  /-- A token or an error ends before it starts. -/
  | reversedSpan
  /-- A token does not start where the one before it ends. -/
  | misplacedToken
  /-- A token ends inside a character or behind the text. -/
  | brokenToken
  /-- A token stands outside of all nodes. -/
  | looseToken
  /-- A node is still open at the end. -/
  | unfinishedNode
  /-- There is no node at the end. -/
  | noRoot
  /-- A part of the text is not covered at the end. -/
  | uncoveredText
  deriving DecidableEq, Repr

namespace Builder

/-- A node that is still open. -/
structure Open where
  /-- The number of the node. -/
  id : Nat
  /-- The kind of the node. -/
  kind : Kind
  /-- The offset the node starts at. -/
  start : Nat
  /-- The parts so far, last first. -/
  children : List Element := []

end Builder

/-- A tree that is being built. -/
structure Builder where
  /-- The whole text. -/
  text : Text
  /-- The offset of the text in its document. -/
  offset : Nat
  /-- The part of the text that no token covers yet. -/
  rest : Text
  /-- The offset of that part. -/
  position : Nat
  /-- The open nodes, innermost first. -/
  opened : List Builder.Open := []
  /-- The root, once it is finished. -/
  root : Option Node := none
  /-- The number of nodes started. -/
  nodes : Nat := 0
  /-- The number of tokens added. -/
  tokens : Nat := 0
  /-- The errors so far, last first. -/
  errors : List SyntaxError := []

namespace Builder

/-- The empty tree over a text at an offset. -/
def new (text : Text) (offset : Nat) : Builder := { text, offset, rest := text, position := offset }

/-- Starts a node. -/
def start (b : Builder) (kind : Kind) : Except BuildError Builder :=
  if b.opened.isEmpty && b.nodes ≠ 0 then .error .secondRoot
  else .ok { b with
    opened := { id := b.nodes, kind, start := b.position } :: b.opened
    nodes := b.nodes + 1 }

/-- Finishes the node started last. -/
def finish (b : Builder) : Except BuildError Builder :=
  match b.opened with
  | [] => .error .nothingOpen
  | o :: os =>
    let span := Span.between o.start b.position
    match os with
    | [] => .ok { b with opened := [], root := some ⟨o.id, o.kind, span, o.children.reverse⟩ }
    | p :: ps =>
      let e := Element.node o.id o.kind span o.children.reverse
      .ok { b with opened := { p with children := e :: p.children } :: ps }

/-- Adds a token. -/
def token (b : Builder) (kind : Kind) (span : Span) : Except BuildError Builder :=
  if span.start ≠ b.position then .error .misplacedToken
  else match b.rest.cut? span.length with
    | none => .error .brokenToken
    | some (piece, rest) =>
      match b.opened with
      | [] => .error .looseToken
      | o :: os =>
        let e := Element.token b.tokens ⟨kind, b.position, piece⟩
        .ok { b with
          opened := { o with children := e :: o.children } :: os
          rest, position := span.stop, tokens := b.tokens + 1 }

/-- The number of the node an error belongs to; the root if no node is open. -/
def anchorId (b : Builder) (anchor : Anchor) : Nat :=
  let innermost := (b.opened.head?.map Open.id).getD 0
  match anchor with
  | .innermost => innermost
  | .statement => ((b.opened.find? (·.kind.isAnchor)).map Open.id).getD innermost

/-- Records a problem. -/
def report (b : Builder) (problem : Problem) (span : Span) (anchor : Anchor) : Builder :=
  { b with errors := ⟨problem, span, b.anchorId anchor⟩ :: b.errors }

/-- Records an error in words. -/
def error (b : Builder) (message : String) (span : Span) (anchor : Anchor) : Builder :=
  b.report (.other message) span anchor

/-- Takes one step. -/
def step (b : Builder) : BuildStep → Except BuildError Builder
  | .start kind => b.start kind
  | .finish => b.finish
  | .token kind start stop =>
    if start ≤ stop then b.token kind (.between start stop) else .error .reversedSpan
  | .error message start stop anchor =>
    if start ≤ stop then .ok (b.error message (.between start stop) anchor) else .error .reversedSpan

/-- The finished tree. -/
def tree (b : Builder) : Except BuildError SyntaxTree :=
  if !b.opened.isEmpty then .error .unfinishedNode
  else match b.root with
    | none => .error .noRoot
    | some root =>
      if !b.rest.isEmpty then .error .uncoveredText
      else .ok { text := b.text, offset := b.offset, root, errors := b.errors.reverse }

/-- Takes steps one after another; a refusal comes with the number of steps taken before it. -/
def steps (b : Builder) (taken : Nat) : List BuildStep → Except (Nat × BuildError) (Nat × Builder)
  | [] => .ok (taken, b)
  | s :: ss =>
    match b.step s with
    | .error e => .error (taken, e)
    | .ok b' => b'.steps (taken + 1) ss

/-- The tree that steps build over a text at an offset; a refusal comes with the number of steps taken
before it. -/
def build (text : Text) (offset : Nat) (ss : List BuildStep) : Except (Nat × BuildError) SyntaxTree :=
  match (new text offset).steps 0 ss with
  | .error e => .error e
  | .ok (n, b) =>
    match b.tree with
    | .error e => .error (n, e)
    | .ok t => .ok t

end Builder

end GoFront
