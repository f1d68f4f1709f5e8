import GoFront.Problem

/-!
# Concrete trees

A concrete tree keeps every token of a text, blanks and comments included. Its elements are tokens
and nodes, each with a number: nodes are numbered in the order in which they start, tokens in the
order in which they stand. The errors found on the way are kept beside the tree, each with the number
of the node it belongs to.
-/

namespace GoFront

/-- A token or a node of a tree. -/
inductive Element where
  /-- A token and its number. -/
  | token (id : Nat) (token : Token)
  /-- A node: its number, its kind, the stretch of text it covers, and its parts. -/
  | node (id : Nat) (kind : Kind) (span : Span) (children : List Element)

/-- A token of a tree. -/
structure Leaf where
  /-- The number of the token. -/
  id : Nat
  /-- The token. -/
  token : Token
  deriving DecidableEq, Repr

/-- A node of a tree. -/
structure Node where
  /-- The number of the node. -/
  id : Nat
  /-- The kind of the node. -/
  kind : Kind
  /-- The stretch of text the node covers. -/
  span : Span
  /-- The parts of the node. -/
  children : List Element

/-- An error found while a tree was built. -/
structure SyntaxError where
  /-- What is wrong. -/
  problem : Problem
  /-- Where it is wrong. -/
  span : Span
  /-- The number of the node it belongs to. -/
  node : Nat
  deriving DecidableEq

/-- The wording of an error. -/
def SyntaxError.message (e : SyntaxError) : String := e.problem.message

/-- The concrete tree of a text, or of a piece of a larger document. -/
structure SyntaxTree where
  /-- The text the tree covers. -/
  text : Text
  /-- The offset of that text in its document. -/
  offset : Nat
  /-- The outermost node. -/
  root : Node
  /-- The errors, in the order in which they were found. -/
  errors : List SyntaxError

namespace Element

/-- The kind of an element. -/
def kind : Element → Kind
  | .token _ t => t.kind
  | .node _ k _ _ => k

/-- The stretch of text an element covers. -/
def span : Element → Span
  | .token _ t => t.span
  | .node _ _ s _ => s

/-- The node an element is, if it is one. -/
def node? : Element → Option Node
  | .token _ _ => none
  | .node i k s cs => some ⟨i, k, s, cs⟩

/-- The token an element is, if it is one. -/
def leaf? : Element → Option Leaf
  | .token i t => some ⟨i, t⟩
  | .node _ _ _ _ => none

/-- The written form of an element. -/
def print : Element → String
  | .token _ t => t.print
  | .node _ k s _ => k.label ++ "@" ++ s.print

end Element

namespace Leaf

/-- The kind of a token. -/
abbrev kind (l : Leaf) : Kind := l.token.kind

/-- The stretch of text a token covers. -/
abbrev span (l : Leaf) : Span := l.token.span

/-- The characters of a token. -/
abbrev text (l : Leaf) : Text := l.token.text

/-- A token as an element. -/
abbrev element (l : Leaf) : Element := .token l.id l.token

end Leaf

namespace Node

/-- A node as an element. -/
def element (n : Node) : Element := .node n.id n.kind n.span n.children

@[simp] theorem node?_element (n : Node) : n.element.node? = some n := rfl

/-- The written form `LABEL@start..stop`. -/
def print (n : Node) : String := n.kind.label ++ "@" ++ n.span.print

/-- The nodes among the parts of a node. -/
def nodes (n : Node) : List Node := n.children.filterMap Element.node?

/-- The tokens among the parts of a node. -/
def tokens (n : Node) : List Leaf := n.children.filterMap Element.leaf?

/-- The child nodes of a kind. -/
def nodesOf (n : Node) (k : Kind) : List Node := n.nodes.filter (·.kind == k)

/-- The first child node of a kind. -/
def nodeOf? (n : Node) (k : Kind) : Option Node := n.nodes.find? (·.kind == k)

/-- The first child token of a kind. -/
def tokenOf? (n : Node) (k : Kind) : Option Leaf := n.tokens.find? (·.kind == k)

end Node

namespace SyntaxTree

/-- The stretch of the document a tree covers. -/
def span (t : SyntaxTree) : Span := ⟨t.offset, t.text.size⟩

/-- Whether anything is wrong with the text. -/
def hasErrors (t : SyntaxTree) : Bool := !t.errors.isEmpty

end SyntaxTree

end GoFront
