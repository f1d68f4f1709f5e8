import GoFront.Tree.Builder
import GoFront.Tree.Walk

/-!
# Arenas

A tree can be kept flat: its nodes in one list, its tokens in another, and the parts of all nodes, by number, in a
third. A node says which stretch of that list holds its parts. Nodes are listed in the order in which they start, but a
node only knows its parts when it is finished, so the stretches stand in the order in which nodes are finished.

`Arena.build` takes the same steps as `Builder.build` and fills an arena directly. The parts of an open node are
collected in a buffer of its own; the buffer of a finished node is emptied and used again. `SyntaxTree.arena` lays out a
tree that is there already.

The numbers of nodes and tokens, and the places and counts of parts, have no bound; what this assumes is said in
`GoFront.Tree.Builder`.
-/

namespace GoFront

/-- A part of a node, by its number. -/
inductive Child where
  /-- A node. -/
  | node (id : Nat)
  /-- A token. -/
  | token (id : Nat)
  deriving DecidableEq, Repr

namespace Child

/-- The number of a part that is a node. -/
def node? : Child → Option Nat
  | .node i => some i
  | .token _ => none

/-- The number of a part that is a token. -/
def token? : Child → Option Nat
  | .node _ => none
  | .token i => some i

end Child

namespace Arena

/-- What is kept of a node. -/
structure NodeEntry where
  /-- The kind of the node. -/
  kind : Kind
  /-- The stretch of text the node covers. -/
  span : Span
  /-- Where its parts start in the list of parts. -/
  first : Nat := 0
  /-- The number of its parts. -/
  count : Nat := 0
  deriving DecidableEq, Repr

/-- The offset in the list of parts behind the parts of a node. -/
def NodeEntry.stop (n : NodeEntry) : Nat := n.first + n.count

/-- What is kept of a token. -/
structure TokenEntry where
  /-- The kind of the token. -/
  kind : Kind
  /-- The stretch of text the token covers. -/
  span : Span
  deriving DecidableEq, Repr

end Arena

/-- A tree in flat form. -/
structure Arena where
  /-- The text the tree covers. -/
  text : Text
  /-- The offset of that text in its document. -/
  offset : Nat
  /-- The nodes, each at its number. -/
  nodes : List Arena.NodeEntry := []
  /-- The parts of all nodes. -/
  children : List Child := []
  /-- The tokens, each at its number. -/
  tokens : List Arena.TokenEntry := []
  /-- The errors, in the order in which they were found. -/
  errors : List SyntaxError := []
  deriving DecidableEq

namespace Arena

/-- The parts of the node with a number. -/
def parts (a : Arena) (i : Nat) : List Child :=
  match a.nodes[i]? with
  | some n => (a.children.drop n.first).take n.count
  | none => []

/-- The stretch of text a part covers. -/
def span? (a : Arena) : Child → Option Span
  | .node i => a.nodes[i]?.map NodeEntry.span
  | .token i => a.tokens[i]?.map TokenEntry.span

/-- The walk from a part on, a node before its parts, down to a depth. -/
def walk (a : Arena) : Nat → Child → List Child
  | d + 1, .node i => .node i :: (a.parts i).flatMap (a.walk d)
  | _, c => [c]

/-! ## Filling an arena step by step -/

/-- An arena that is being filled. -/
structure Filling extends Arena where
  /-- The number of bytes of the text that tokens cover. -/
  covered : Nat := 0
  /-- The numbers of the open nodes, innermost first, each with the parts it has so far. -/
  opened : List (Nat × List Child) := []
  /-- The buffers of finished nodes. -/
  pool : List (List Child) := []

namespace Filling

/-- The offset behind the tokens so far. -/
def position (f : Filling) : Nat := f.offset + f.covered

/-- Puts a node below the innermost open one, and opens it. -/
def enter (f : Filling) (kind : Kind) (parents : List (Nat × List Child)) : Filling :=
  { f with
    nodes := f.nodes ++ [⟨kind, .emptyAt f.position, 0, 0⟩]
    opened := (f.nodes.length, f.pool.headD []) :: parents
    pool := f.pool.tail }

/-- Starts a node. -/
def start (f : Filling) (kind : Kind) : Except BuildError Filling :=
  match f.opened with
  | [] => if f.nodes.isEmpty then .ok (f.enter kind []) else .error .secondRoot
  | (p, cs) :: os => .ok (f.enter kind ((p, cs ++ [.node f.nodes.length]) :: os))

/-- Closes the innermost open node and goes back to the others. Its buffer goes to the list of parts, and is empty
then. -/
def leave (f : Filling) (id : Nat) (cs : List Child) (others : List (Nat × List Child)) : Filling :=
  { f with
    nodes := f.nodes.modify id fun n =>
      { n with span := .between n.span.start f.position, first := f.children.length, count := cs.length }
    children := f.children ++ cs
    opened := others
    pool := [] :: f.pool }

/-- Finishes the node started last. -/
def finish (f : Filling) : Except BuildError Filling :=
  match f.opened with
  | [] => .error .nothingOpen
  | (id, cs) :: os => .ok (f.leave id cs os)

/-- Puts a token below the innermost open node. -/
def place (f : Filling) (kind : Kind) (span : Span) (id : Nat) (cs : List Child) (others : List (Nat × List Child)) :
    Filling :=
  { f with
    tokens := f.tokens ++ [⟨kind, span⟩]
    covered := f.covered + span.length
    opened := (id, cs ++ [.token f.tokens.length]) :: others }

/-- Adds a token. -/
def token (f : Filling) (kind : Kind) (span : Span) : Except BuildError Filling :=
  if span.start ≠ f.position then .error .misplacedToken
  else if (f.text.cut? (f.covered + span.length)).isNone then .error .brokenToken
  else match f.opened with
    | [] => .error .looseToken
    | (id, cs) :: os => .ok (f.place kind span id cs os)

/-- The number of the node an error belongs to; the root if no node is open. -/
def anchorId (f : Filling) (anchor : Anchor) : Nat :=
  let innermost := (f.opened.head?.map Prod.fst).getD 0
  match anchor with
  | .innermost => innermost
  | .statement =>
    ((f.opened.find? fun o => (f.nodes[o.1]?).any (·.kind.isAnchor)).map Prod.fst).getD innermost

/-- Records an error. -/
def error (f : Filling) (message : String) (span : Span) (anchor : Anchor) : Filling :=
  { f with errors := f.errors ++ [⟨.other message, span, f.anchorId anchor⟩] }

/-- Takes one step. -/
def step (f : Filling) : BuildStep → Except BuildError Filling
  | .start kind => f.start kind
  | .finish => f.finish
  | .token kind start stop =>
    if start ≤ stop then f.token kind (.between start stop) else .error .reversedSpan
  | .error message start stop anchor =>
    if start ≤ stop then .ok (f.error message (.between start stop) anchor) else .error .reversedSpan

/-- The filled arena. -/
def arena (f : Filling) : Except BuildError Arena :=
  if !f.opened.isEmpty then .error .unfinishedNode
  else if f.nodes.isEmpty then .error .noRoot
  else if f.covered ≠ f.text.size then .error .uncoveredText
  else .ok f.toArena

/-- Takes steps one after another; a refusal comes with the number of steps taken before it. -/
def steps (f : Filling) (taken : Nat) : List BuildStep → Except (Nat × BuildError) (Nat × Filling)
  | [] => .ok (taken, f)
  | s :: ss =>
    match f.step s with
    | .error e => .error (taken, e)
    | .ok f' => f'.steps (taken + 1) ss

end Filling

/-- The arena that steps fill over a text at an offset; a refusal comes with the number of steps taken before it. -/
def build (text : Text) (offset : Nat) (ss : List BuildStep) : Except (Nat × BuildError) Arena :=
  match Filling.steps { text, offset } 0 ss with
  | .error e => .error e
  | .ok (n, f) =>
    match f.arena with
    | .error e => .error (n, e)
    | .ok a => .ok a

end Arena

/-! ## Laying out a tree -/

namespace Element

/-- An element by its number. -/
def child : Element → Child
  | .token i _ => .token i
  | .node i _ _ _ => .node i

mutual

/-- The parts of the nodes at and below an element, in the order in which the nodes end. -/
def parts : Element → List Child
  | .token _ _ => []
  | .node _ _ _ cs => partsIn cs ++ cs.map child

/-- The parts of the nodes at and below elements that follow one another. -/
def partsIn : List Element → List Child
  | [] => []
  | e :: es => parts e ++ partsIn es

end

mutual

/-- The nodes at and below an element, in the order in which they start; their parts are listed from a place on. -/
def entries (place : Nat) : Element → List Arena.NodeEntry
  | .token _ _ => []
  | .node _ k s cs => ⟨k, s, place + (partsIn cs).length, cs.length⟩ :: entriesIn place cs

/-- The nodes at and below elements that follow one another. -/
def entriesIn (place : Nat) : List Element → List Arena.NodeEntry
  | [] => []
  | e :: es => entries place e ++ entriesIn (place + (parts e).length) es

end

end Element

/-- What an arena keeps of a token. -/
def Leaf.entry (l : Leaf) : Arena.TokenEntry := ⟨l.kind, l.span⟩

/-- A tree in flat form. -/
def SyntaxTree.arena (t : SyntaxTree) : Arena where
  text := t.text
  offset := t.offset
  nodes := t.root.element.entries 0
  children := t.root.element.parts
  tokens := t.root.leaves.map Leaf.entry
  errors := t.errors

end GoFront
