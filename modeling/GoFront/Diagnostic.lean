import GoFront.Path
import GoFront.Text.Lines
import GoFront.Text.Row
import GoFront.Tree.Basic

/-!
# Diagnostics

A diagnostic is a message about a stretch of a text. It is shown with the line it is about, numbered, and
with carets below the stretch; at least one, also if the stretch is empty. The gutter is as wide as the
number of the line. A line without characters is not shown.

Of a line that is deeply indented the first columns are hidden: dots stand for them, and carets below them
move to the left, over the gutter if need be. All of a line of blanks is hidden.
-/

namespace GoFront

/-- A message about a stretch of a text. -/
structure Diagnostic where
  /-- What is wrong. -/
  message : String
  /-- Where it is wrong. -/
  span : Span
  deriving DecidableEq, Repr

namespace Diagnostic

/-- The diagnostic for an error of a tree. -/
def ofError (e : SyntaxError) : Diagnostic := ⟨e.message, e.span⟩

/-- The first line of a shown diagnostic. -/
def title (d : Diagnostic) : Text := ("error" ++ if d.message = "" then "" else ": " ++ d.message).toList

/-- A number in decimal digits. -/
def digits (n : Nat) : Text := (toString n).toList

/-- A gutter of a given width: what stands in it, and the bar that closes it. -/
def gutter (width : Nat) (number : Text) : Text := number.writeAt (width + 1) ['|']

/-- The column at which code stands beside a gutter. -/
def codeColumn (width : Nat) : Nat := width + 3

/-- The line that names a place in a file, its line and column counted from one. The path has a column of
its own, which stays away if the path is empty. -/
def located (width : Nat) (path : Path) (line column : Nat) : Text :=
  (Text.writeAt [] width "-->".toList).writeAt (width + 4) path ++
    ':' :: digits line ++ ':' :: digits column

/-- A line as it is drawn: a tab takes four columns. -/
def drawn (t : Text) : Text := t.flatMap fun c => if c = '\t' then List.replicate 4 ' ' else [c]

/-- The number of columns hidden at the start of a line: all of a line of blanks, and of an indentation of
more than 26 columns all but the last 22. -/
def hidden (line : Text) : Nat :=
  let indent := (line.takeWhile (· = ' ')).length
  if indent = line.length then indent else if 26 < indent then indent - 22 else 0

/-- The row of a line beside its number. Dots stand for hidden columns. -/
def codeRow (number line : Text) : Text :=
  let row := (gutter number.length number).writeAt (codeColumn number.length) (line.drop (hidden line))
  if hidden line = 0 then row else row.writeAt (codeColumn number.length) "...".toList

/-- The row of carets below the columns from `start` to `stop` of a line of which the first `skipped`
columns are hidden, and the word behind them. -/
def caretRow (width skipped start stop : Nat) : Text :=
  let code := codeColumn width
  let first := code + start - skipped
  let last := code + stop - skipped
  let labelled := (gutter width []).writeAt (code + (stop + 1 - skipped)) "here".toList
  labelled.writeAt first (List.replicate (max 1 (last - first)) '^')

/-- The lines of a diagnostic without the line of the text it is about. -/
def bare (d : Diagnostic) (path : Path) : List Text :=
  [d.title, located 0 path 1 1, gutter 0 [], gutter 0 []]

/-- The lines of a diagnostic in a line with a given number: what stands before the stretch, in it and
after it. -/
def framed (d : Diagnostic) (path : Path) (line : Nat) (before inside after : Text) : List Text :=
  let number := digits (line + 1)
  let width := number.length
  let code := drawn (before ++ inside ++ after)
  let start := (drawn before).length
  let stop := start + max 1 (drawn inside).length
  [d.title, located width path (line + 1) (before.length + 1), gutter width [], codeRow number code,
    caretRow width (hidden code) start stop, gutter width []]

/-- The lines that show a diagnostic about a text; none if its stretch is not one of the text. -/
def render? (d : Diagnostic) (path : Path) (text : Text) : Option (List Text) := do
  let (before, rest) ← text.cut? d.span.start
  let (inside, after) ← rest.cut? d.span.length
  pure (if before.lastLine ++ inside ++ after.firstLine = [] then d.bare path
    else d.framed path before.endPlace.line before.lastLine inside after.firstLine)

end Diagnostic

end GoFront
