import GoFront.Text.Basic

/-!
# Lines and columns

Only a line feed ends a line. A place in a text is named by the zero-based number of its line and
its distance in bytes from the start of that line.
-/

namespace GoFront.Text

/-- A place in a text. -/
structure Place where
  /-- The number of line ends before the place. -/
  line : Nat
  /-- The number of bytes between the start of the line and the place. -/
  column : Nat
  deriving DecidableEq, Repr

/-- The place reached by reading one character. -/
def Place.next (p : Place) (c : Char) : Place :=
  if c = '\n' then ⟨p.line + 1, 0⟩ else ⟨p.line, p.column + c.utf8Size⟩

/-- The place right behind a text. -/
def endPlace (t : Text) : Place := t.foldl Place.next ⟨0, 0⟩

/-- The place of a byte offset; none if it lies past the end or inside a character. -/
def place? (t : Text) (offset : Nat) : Option Place :=
  (cut? offset t).map fun p => endPlace p.1

/-- The last line of a text: what follows its last line end. -/
def lastLine (t : Text) : Text := (t.reverse.takeWhile (· ≠ '\n')).reverse

/-- The first line of a text: what precedes its first line end. -/
def firstLine (t : Text) : Text := t.takeWhile (· ≠ '\n')

/-- Lines with one more character in front: a line end opens a line, any other character joins the first
line. -/
def consLine (c : Char) (ls : List Text) : List Text :=
  if c = '\n' then [] :: ls
  else match ls with
    | [] => [[c]]
    | l :: ls => (c :: l) :: ls

/-- The lines of a text; a final line end opens no further line. -/
def lines (t : Text) : List Text := t.foldr consLine []

end GoFront.Text
