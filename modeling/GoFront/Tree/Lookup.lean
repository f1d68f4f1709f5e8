import GoFront.Tree.Walk

/-!
# Looking things up in a tree

Nodes and tokens by number, the nodes around them, the tokens at an offset, the smallest element
around a stretch of text, and the errors of a node.
-/

namespace GoFront

namespace Element

mutual

/-- The node with a number, followed by the nodes around it from the inside out, up to the element
itself. -/
def pathTo? (id : Nat) : Element → Option (List Node)
  | .token _ _ => none
  | .node i k s cs =>
    if i = id then some [⟨i, k, s, cs⟩] else (pathToIn? id cs).map (· ++ [⟨i, k, s, cs⟩])

/-- The path to a node in the first of several elements that holds it. -/
def pathToIn? (id : Nat) : List Element → Option (List Node)
  | [] => none
  | e :: es =>
    match pathTo? id e with
    | some p => some p
    | none => pathToIn? id es

end

mutual

/-- The smallest element at or below a node that covers a stretch: the walk goes down into the first
part that covers it. An empty part covers only empty stretches. -/
def covering (r : Span) : Element → Element
  | .token i t => .token i t
  | .node i k s cs => (coveringIn? r cs).getD (.node i k s cs)

/-- The smallest element at or below the first of several elements that covers a stretch. -/
def coveringIn? (r : Span) : List Element → Option Element
  | [] => none
  | e :: es =>
    if e.span.covers r && !(e.span.length = 0 && r.length ≠ 0) then some (covering r e)
    else coveringIn? r es

end

mutual

/-- The innermost node around an offset in an element that is a node and holds the offset: the walk goes
down into the first part of which the same is true. -/
def innermost? (offset : Nat) : Element → Option Node
  | .token _ _ => none
  | .node i k s cs =>
    if s.holds offset then some ((innermostIn? offset cs).getD ⟨i, k, s, cs⟩) else none

/-- The innermost node around an offset in the first of several elements that has one. -/
def innermostIn? (offset : Nat) : List Element → Option Node
  | [] => none
  | e :: es =>
    match innermost? offset e with
    | some n => some n
    | none => innermostIn? offset es

end

end Element

/-- The tokens at an offset. -/
inductive TokenAt where
  /-- There is none. -/
  | nothing
  /-- The offset lies in a token, or at an end of one that has no neighbour there. -/
  | single (l : Leaf)
  /-- The offset lies between two tokens. -/
  | between (left right : Leaf)

namespace TokenAt

/-- The tokens, in the order of the text. -/
def toList : TokenAt → List Leaf
  | .nothing => []
  | .single l => [l]
  | .between l r => [l, r]

/-- The token at the offset, the left one of two. -/
def leftBiased (t : TokenAt) : Option Leaf := t.toList.head?

/-- The token at the offset, the right one of two. -/
def rightBiased (t : TokenAt) : Option Leaf := t.toList.getLast?

/-- The tokens at an offset among tokens that tile a text, given the last token so far that ends
there. -/
def scan (offset : Nat) : Option Leaf → List Leaf → TokenAt
  | left, [] =>
    match left with
    | some l => .single l
    | none => .nothing
  | left, l :: ls =>
    if l.span.length = 0 then scan offset left ls
    else if l.span.holds offset then
      match left with
      | some p => if l.span.start = offset then .between p l else .single l
      | none => .single l
    else if l.span.stop = offset then scan offset (some l) ls
    else if offset < l.span.start then
      match left with
      | some p => .single p
      | none => .nothing
    else scan offset left ls

end TokenAt

namespace Node

/-- The tokens at an offset below a node. -/
def tokenAt (n : Node) (offset : Nat) : TokenAt :=
  if n.span.touches offset then TokenAt.scan offset none n.leaves else .nothing

/-- The smallest element at or below a node that covers a stretch. -/
def covering (n : Node) (r : Span) : Element := n.element.covering r

/-- The innermost node around an offset at or below a node; the node itself if no part holds the offset. -/
def innermost (n : Node) (offset : Nat) : Node := (Element.innermostIn? offset n.children).getD n

end Node

namespace SyntaxTree

/-- The node with a number, followed by the nodes around it from the inside out. -/
def ancestors (t : SyntaxTree) (id : Nat) : List Node := (t.root.element.pathTo? id).getD []

/-- The node with a number. -/
def node? (t : SyntaxTree) (id : Nat) : Option Node := (t.ancestors id).head?

/-- The node around the node with a number. -/
def parent? (t : SyntaxTree) (id : Nat) : Option Node := (t.ancestors id)[1]?

/-- The innermost node of a kind among the node with a number and those around it. -/
def ancestorOf? (t : SyntaxTree) (id : Nat) (k : Kind) : Option Node :=
  (t.ancestors id).find? (·.kind == k)

/-- The token with a number. -/
def leaf? (t : SyntaxTree) (id : Nat) : Option Leaf := t.root.leaves.find? (·.id == id)

/-- The node that directly holds the token with a number. -/
def leafParent? (t : SyntaxTree) (id : Nat) : Option Node :=
  t.root.descendants.find? fun n => n.tokens.any (·.id == id)

/-- The token before the one with a number. -/
def previousLeaf? (t : SyntaxTree) : Nat → Option Leaf
  | 0 => none
  | id + 1 => t.leaf? id

/-- The token behind the one with a number. -/
def nextLeaf? (t : SyntaxTree) (id : Nat) : Option Leaf := t.leaf? (id + 1)

/-- The errors of a node. -/
def errorsOf (t : SyntaxTree) (n : Node) : List SyntaxError := t.errors.filter (·.node == n.id)

/-- The errors of a node and of those below it. -/
def subtreeErrors (t : SyntaxTree) (n : Node) : List SyntaxError :=
  let ids := n.descendants.map Node.id
  t.errors.filter fun e => ids.contains e.node

end SyntaxTree

end GoFront
