import GoFront.Tree.Basic

/-!
# Walks

A walk visits a node and everything below it in the order of the text. It can be told to leave out
what lies below some nodes, and the walk over nodes alone can also be stopped.
-/

namespace GoFront

/-- One step of a walk. -/
inductive WalkEvent where
  /-- The walk comes to a node, before its parts. -/
  | enter (n : Node)
  /-- The walk leaves a node, behind its parts. -/
  | leave (n : Node)
  /-- The walk passes a token. -/
  | token (l : Leaf)

namespace Element

mutual

/-- The walk over an element, without the parts of the nodes that `skip` chooses. -/
def events (skip : Node → Bool) : Element → List WalkEvent
  | .token i t => [.token ⟨i, t⟩]
  | .node i k s cs =>
    let inner := if skip ⟨i, k, s, cs⟩ then [] else eventsIn skip cs
    .enter ⟨i, k, s, cs⟩ :: (inner ++ [.leave ⟨i, k, s, cs⟩])

/-- The walk over elements that follow one another. -/
def eventsIn (skip : Node → Bool) : List Element → List WalkEvent
  | [] => []
  | e :: es => events skip e ++ eventsIn skip es

end

mutual

/-- The nodes at and below an element, in the order in which they start. -/
def descendants : Element → List Node
  | .token _ _ => []
  | .node i k s cs => ⟨i, k, s, cs⟩ :: descendantsIn cs

/-- The nodes at and below elements that follow one another. -/
def descendantsIn : List Element → List Node
  | [] => []
  | e :: es => descendants e ++ descendantsIn es

end

mutual

/-- The tokens at and below an element, in the order of the text. -/
def leaves : Element → List Leaf
  | .token i t => [⟨i, t⟩]
  | .node _ _ _ cs => leavesIn cs

/-- The tokens at and below elements that follow one another. -/
def leavesIn : List Element → List Leaf
  | [] => []
  | e :: es => leaves e ++ leavesIn es

end

end Element

/-- How a walk over nodes goes on from a node. -/
inductive Decision where
  /-- Go on with the parts of the node. -/
  | proceed
  /-- Leave the parts of the node out. -/
  | skipChildren
  /-- End the walk. -/
  | stop
  deriving DecidableEq, Repr

namespace Element

mutual

/-- The nodes a walk visits as `decide` directs it, and whether it was stopped. -/
def visit (decide : Node → Decision) : Element → List Node × Bool
  | .token _ _ => ([], false)
  | .node i k s cs =>
    match decide ⟨i, k, s, cs⟩ with
    | .stop => ([⟨i, k, s, cs⟩], true)
    | .skipChildren => ([⟨i, k, s, cs⟩], false)
    | .proceed =>
      let r := visitIn decide cs
      (⟨i, k, s, cs⟩ :: r.1, r.2)

/-- The nodes a walk over several elements visits, and whether it was stopped. -/
def visitIn (decide : Node → Decision) : List Element → List Node × Bool
  | [] => ([], false)
  | e :: es =>
    let r := visit decide e
    if r.2 then r
    else
      let r' := visitIn decide es
      (r.1 ++ r'.1, r'.2)

end

end Element

namespace Node

/-- The walk over a node, without the parts of the nodes that `skip` chooses. -/
def events (n : Node) (skip : Node → Bool) : List WalkEvent := n.element.events skip

/-- The nodes at and below a node, in the order in which they start. -/
def descendants (n : Node) : List Node := n.element.descendants

/-- The tokens below a node, in the order of the text. -/
def leaves (n : Node) : List Leaf := n.element.leaves

/-- The nodes a walk from a node visits as `decide` directs it. -/
def visit (n : Node) (decide : Node → Decision) : List Node := (n.element.visit decide).1

/-- The characters below a node. -/
def text (n : Node) : Text := n.leaves.flatMap Leaf.text

/-- The tokens below a node without the blanks and comments at both ends. -/
def trimmedLeaves (n : Node) : List Leaf :=
  ((n.leaves.dropWhile (·.kind.isTrivia)).reverse.dropWhile (·.kind.isTrivia)).reverse

/-- The stretch of text a node covers without the blanks and comments at both ends. -/
def trimmedSpan (n : Node) : Span :=
  match n.leaves.filter (fun l => !l.kind.isTrivia) with
  | [] => .emptyAt n.span.start
  | l :: ls => .between l.span.start ((ls.getLast?.getD l).span.stop)

/-- The characters of a node without the blanks and comments at both ends. -/
def trimmedText (n : Node) : Text := n.trimmedLeaves.flatMap Leaf.text

end Node

end GoFront
