import GoFront.Text.Basic

/-!
# Rows

A row is a line of a drawing. It is written at columns: blanks fill the columns up to the first one
written, and what was there before is overwritten. Writing says exactly which characters stand in the
columns written (`take_drop_writeAt`), leaves the columns before them as they were (`take_writeAt`) and
makes the row as long as it has to be (`length_writeAt`).
-/

namespace GoFront.Text

/-- The row with a text written from a column on; no text leaves the row as it is. -/
def writeAt (row : Text) (column : Nat) (t : Text) : Text :=
  if t = [] then row
  else row.take column ++ List.replicate (column - row.length) ' ' ++ t ++ row.drop (column + t.length)

@[simp] theorem writeAt_nil (row : Text) (column : Nat) : row.writeAt column [] = row := by
  simp [writeAt]

/-- The columns before a text that is written make up as many characters. -/
theorem length_take_append_replicate (row : Text) (column : Nat) :
    (row.take column ++ List.replicate (column - row.length) ' ').length = column := by
  simp; omega

/-- A row reaches as far as it did, or as far as it is written. -/
theorem length_writeAt {row : Text} {column : Nat} {t : Text} (h : t ≠ []) :
    (row.writeAt column t).length = max row.length (column + t.length) := by
  simp [writeAt, h]; omega

/-- A text that is written stands in its columns. -/
theorem take_drop_writeAt (row : Text) (column : Nat) {t : Text} (h : t ≠ []) :
    ((row.writeAt column t).drop column).take t.length = t := by
  have hl := length_take_append_replicate row column
  rw [writeAt, if_neg h, List.append_assoc, List.drop_append_of_le_length (by omega),
    List.drop_eq_nil_of_le (by omega), List.nil_append, List.take_left]

/-- The columns before a text that is written are kept. -/
theorem take_writeAt {row : Text} {column : Nat} {t : Text} (h : column ≤ row.length) :
    (row.writeAt column t).take column = row.take column := by
  by_cases ht : t = []
  · simp [ht]
  · have hr : column - row.length = 0 := by omega
    simp [writeAt, ht, hr, h]

/-- Writing at the end of a row appends. -/
theorem writeAt_length (row t : Text) : row.writeAt row.length t = row ++ t := by
  by_cases h : t = [] <;> simp [writeAt, h]

end GoFront.Text
