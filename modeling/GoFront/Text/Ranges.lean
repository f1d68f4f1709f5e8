/-!
# Tables of code points

A class of characters is given by a table of inclusive intervals of code points.
-/

namespace GoFront.Text

/-- Whether a code point lies in one of the intervals. -/
def inRanges (table : List (Nat × Nat)) (n : Nat) : Bool :=
  table.any fun r => r.1 ≤ n && n ≤ r.2

end GoFront.Text
