import GoFront.Tree.Lookup

/-!
# Printed trees

The listing of a tree, one element a line and parts set in by two spaces, with its errors behind it,
and the one-line summary of a tree.
-/

namespace GoFront

namespace Element

mutual

/-- The lines of an element at a depth. -/
def lines (depth : Nat) : Element → List String
  | .token _ t => [String.ofList (List.replicate (2 * depth) ' ') ++ t.print]
  | .node _ k s cs =>
    (String.ofList (List.replicate (2 * depth) ' ') ++ k.label ++ "@" ++ s.print) ::
      linesIn (depth + 1) cs

/-- The lines of elements that follow one another at a depth. -/
def linesIn (depth : Nat) : List Element → List String
  | [] => []
  | e :: es => lines depth e ++ linesIn depth es

end

end Element

namespace SyntaxTree

/-- The line of an error: where it is, the kind of node it belongs to, and its wording. -/
def errorLine (t : SyntaxTree) (e : SyntaxError) : String :=
  let kind := ((t.node? e.node).map Node.kind).getD t.root.kind
  "error@" ++ e.span.print ++ " in " ++ kind.label ++ ": " ++ e.message

/-- The listing of a tree and its errors, each on a line of its own. -/
def dump (t : SyntaxTree) : Text :=
  (t.root.element.lines 0 ++ t.errors.map t.errorLine).flatMap fun l => l.toList ++ ['\n']

/-- The number of nodes. -/
def nodeCount (t : SyntaxTree) : Nat := t.root.descendants.length

/-- The number of tokens. -/
def tokenCount (t : SyntaxTree) : Nat := t.root.leaves.length

/-- The summary of a tree in one line. -/
def summary (t : SyntaxTree) : String :=
  "SyntaxTree \x7b range: " ++ t.span.print ++ ", nodes: " ++ toString t.nodeCount ++
    ", tokens: " ++ toString t.tokenCount ++ ", errors: " ++ toString t.errors.length ++ " \x7d"

end SyntaxTree

end GoFront
