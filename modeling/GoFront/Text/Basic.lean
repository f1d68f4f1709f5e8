/-!
# Texts and spans

A text is a list of characters. Positions in a text are byte offsets of its UTF-8 form, so a text
has a size, can be cut at an offset that lies on a character boundary, and a stretch of it is given
by a span: an offset and a length.
-/

namespace GoFront

/-- The characters of a document, or of a piece of one. -/
abbrev Text := List Char

namespace Text

/-- The number of bytes of the UTF-8 form of a text. -/
def size : Text → Nat
  | [] => 0
  | c :: cs => c.utf8Size + size cs

@[simp] theorem size_nil : size [] = 0 := rfl

@[simp] theorem size_cons (c : Char) (cs : Text) : size (c :: cs) = c.utf8Size + size cs := rfl

@[simp] theorem size_append (s t : Text) : size (s ++ t) = size s + size t := by
  induction s with
  | nil => simp
  | cons c s ih => simp [ih, Nat.add_assoc]

/-- Only the empty text has size 0. -/
theorem size_eq_zero {t : Text} : size t = 0 ↔ t = [] := by
  cases t with
  | nil => simp
  | cons c cs => simp [Nat.pos_iff_ne_zero.1 c.utf8Size_pos]

/-- The two parts of a text before and after a byte offset; none if the offset lies past the end or
inside a character. -/
def cut? : Nat → Text → Option (Text × Text)
  | 0, t => some ([], t)
  | _ + 1, [] => none
  | n + 1, c :: cs =>
    if c.utf8Size ≤ n + 1 then (cut? (n + 1 - c.utf8Size) cs).map fun p => (c :: p.1, p.2) else none

/-- Cutting loses nothing, and the first part ends at the offset. -/
theorem eq_append_of_cut? {n : Nat} {t a b : Text} (h : cut? n t = some (a, b)) :
    t = a ++ b ∧ size a = n := by
  fun_induction cut? n t generalizing a b with
  | case1 t => simp_all
  | case2 => simp at h
  | case3 n c cs hc ih =>
    simp only [Option.map_eq_some_iff, Prod.mk.injEq, Prod.exists] at h
    obtain ⟨x, y, hxy, rfl, rfl⟩ := h
    obtain ⟨rfl, hs⟩ := ih hxy
    exact ⟨rfl, by simp [hs]; omega⟩
  | case4 => simp at h

/-- Any text can be cut where one part of it ends. -/
theorem cut?_append (a b : Text) : cut? (size a) (a ++ b) = some (a, b) := by
  induction a with
  | nil => simp [cut?]
  | cons c a ih =>
    have hc := c.utf8Size_pos
    obtain ⟨m, hm⟩ : ∃ m, c.utf8Size + size a = m + 1 := ⟨c.utf8Size + size a - 1, by omega⟩
    have : m + 1 - c.utf8Size = size a := by omega
    simp [hm, cut?, this, ih]
    omega

/-- The characters between two byte offsets; none if they are out of order, past the end or inside
a character. -/
def slice? (start stop : Nat) (t : Text) : Option Text :=
  if start ≤ stop then do
    let (_, rest) ← cut? start t
    let (piece, _) ← cut? (stop - start) rest
    pure piece
  else none

/-- The number of characters before the first occurrence of `pat`. -/
def find? (pat : Text) : Text → Option Nat
  | [] => if pat.isEmpty then some 0 else none
  | c :: cs => if pat.isPrefixOf (c :: cs) then some 0 else (find? pat cs).map (· + 1)

/-- An occurrence lies inside the text. -/
theorem add_length_le_of_find? {pat t : Text} {n : Nat} (h : find? pat t = some n) :
    n + pat.length ≤ t.length := by
  induction t generalizing n with
  | nil =>
    simp only [find?, List.isEmpty_iff, Option.ite_none_right_eq_some, Option.some.injEq] at h
    obtain ⟨rfl, rfl⟩ := h
    simp
  | cons c cs ih =>
    simp only [find?] at h
    split at h
    · next hp =>
      obtain ⟨s, hs⟩ := List.isPrefixOf_iff_prefix.1 hp
      have := congrArg List.length hs
      simp only [Option.some.injEq] at h
      subst h
      simp only [List.length_append] at this
      omega
    · obtain ⟨m, hm, rfl⟩ := Option.map_eq_some_iff.1 h
      have := ih hm
      simp only [List.length_cons]
      omega

/-- Whether a text holds a line end. -/
def hasNewline (t : Text) : Bool := t.contains '\n'

end Text

/-- A stretch of a text: the offset it starts at and the number of bytes it takes. -/
structure Span where
  /-- The offset of the first byte. -/
  start : Nat
  /-- The number of bytes. -/
  length : Nat
  deriving DecidableEq, Repr

namespace Span

/-- The offset behind the last byte. -/
def stop (s : Span) : Nat := s.start + s.length

/-- The stretch from one offset to another; empty if they are out of order. -/
def between (start stop : Nat) : Span := ⟨start, stop - start⟩

/-- The stretch between two offsets, if they are in order. -/
def ofBounds? (start stop : Nat) : Option Span :=
  if start ≤ stop then some (between start stop) else none

/-- The empty stretch at an offset. -/
def emptyAt (offset : Nat) : Span := ⟨offset, 0⟩

@[simp] theorem start_between (a b : Nat) : (between a b).start = a := rfl

theorem stop_between {a b : Nat} (h : a ≤ b) : (between a b).stop = b := by
  simp [between, stop]; omega

theorem start_le_stop (s : Span) : s.start ≤ s.stop := by simp [stop]

/-- Whether every byte and both ends of `t` lie in `s`. -/
def covers (s t : Span) : Bool := s.start ≤ t.start && t.stop ≤ s.stop

/-- Whether an offset lies in a stretch, its end included. -/
def touches (s : Span) (offset : Nat) : Bool := s.start ≤ offset && offset ≤ s.stop

/-- Whether an offset lies in a stretch, its end not included. -/
def holds (s : Span) (offset : Nat) : Bool := s.start ≤ offset && offset < s.stop

/-- The written form `start..stop`. -/
def print (s : Span) : String := toString s.start ++ ".." ++ toString s.stop

end Span

end GoFront
