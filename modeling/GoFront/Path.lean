import GoFront.Text.Basic

/-!
# Paths

A path is a text whose names are separated by slashes. Empty names and the name `.` say nothing about
where a path leads, so the last name of a path is the last one that is neither.
-/

namespace GoFront

/-- The written form of a place in a tree of files and folders. -/
abbrev Path := Text

namespace Path

/-- The pieces of a text between the occurrences of a separator. -/
def splitAt (separator : Char) : Text → List Text
  | [] => [[]]
  | c :: cs =>
    if c = separator then [] :: splitAt separator cs
    else match splitAt separator cs with
      | [] => [[c]]
      | p :: ps => (c :: p) :: ps

/-- A text has at least one piece. -/
theorem splitAt_ne_nil (separator : Char) (t : Text) : splitAt separator t ≠ [] := by
  cases t with
  | nil => simp [splitAt]
  | cons c cs =>
    simp only [splitAt]
    split
    · simp
    · split <;> simp

/-- The pieces with the separator between them make up the text again. -/
theorem intercalate_splitAt (separator : Char) (t : Text) :
    List.intercalate [separator] (splitAt separator t) = t := by
  induction t with
  | nil => rfl
  | cons c cs ih =>
    simp only [splitAt]
    obtain ⟨p, ps, hp⟩ := List.exists_cons_of_ne_nil (splitAt_ne_nil separator cs)
    rw [hp] at ih ⊢
    split
    · next h => simp [List.intercalate, h, ← ih]
    · cases ps <;> simp_all [List.intercalate]

/-- Whether a piece of a path stays where it is. -/
def isIdle (piece : Text) : Bool := piece = [] || piece = ['.']

/-- The names of a path, in order. -/
def names (p : Path) : List Text := (splitAt '/' p).filter (!isIdle ·)

/-- The last name of a path; none if the path has no name or leads up at its end. -/
def fileName? (p : Path) : Option Text := (names p).getLast?.filter (· ≠ ['.', '.'])

/-- What follows the last dot of the last name; none if there is no dot or the name starts with its
only dot. -/
def extension? (p : Path) : Option Text := do
  let name ← fileName? p
  match (splitAt '.' name).reverse with
  | [] | [_] | [_, []] => none
  | last :: _ => some last

/-- The path `q` as seen from `p`: an absolute `q` stands for itself, any other is put behind `p`, with
one slash between them unless `p` is empty or ends with a slash. -/
def join (p q : Path) : Path :=
  if q.head? = some '/' then q
  else if p = [] || p.getLast? = some '/' then p ++ q
  else p ++ '/' :: q

end Path

/-- What a file holds, as far as its name tells. -/
inductive FileKind where
  /-- Go source. -/
  | source
  /-- A template. -/
  | template
  /-- Anything else. -/
  | other
  deriving DecidableEq, Repr

namespace FileKind

/-- The ending of a template that is named for the page it renders. -/
def pageEnding : Text := ".go.html".toList

/-- The kind of the file at a path. -/
def ofPath (p : Path) : FileKind :=
  match p.fileName? with
  | none => .other
  | some name =>
    if pageEnding.isSuffixOf name then .template
    else if p.extension? = some "go".toList then .source
    else if p.extension? = some "tmpl".toList || p.extension? = some "gohtml".toList then .template
    else .other

/-- Whether a file is a template. -/
def isTemplate (k : FileKind) : Bool := k = .template

end FileKind

end GoFront
