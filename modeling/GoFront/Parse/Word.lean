import GoFront.Token.Basic

/-!
# Words

A parser looks at the significant tokens only. A word is such a token together with the blanks and
comments before it, so that they are at hand when the tree is put together, and a note whether it is
the first word on its line.
-/

namespace GoFront

/-- A significant token and what comes before it. -/
structure Word where
  /-- The blanks and comments between the previous significant token and this one. -/
  gap : List Token
  /-- The significant token. -/
  token : Token
  /-- Whether a line ends between the start of the previous significant token and this one; also true
  of the first word. -/
  lineStart : Bool
  deriving DecidableEq, Repr

/-- The kind of a word. -/
abbrev Word.kind (w : Word) : Kind := w.token.kind

/-- A text as its words, and the blanks and comments behind the last of them. -/
structure Words where
  /-- The words. -/
  words : List Word
  /-- The blanks and comments behind the last word. -/
  tail : List Token
  deriving DecidableEq, Repr

namespace Words

/-- Whether a line ends in a blank or comment. -/
def breaksLine (t : Token) : Bool :=
  t.kind == .newline || (t.kind == .blockComment && t.text.hasNewline)

/-- Groups tokens into words. `fresh` tells whether a line ended since the start of the previous
significant token, `gap` holds the blanks and comments since its end, last first. -/
def group (isTrivia : Kind → Bool) (fresh : Bool) (gap : List Token) : List Token → Words
  | [] => ⟨[], gap.reverse⟩
  | t :: ts =>
    if isTrivia t.kind then group isTrivia (fresh || breaksLine t) (t :: gap) ts
    else
      let r := group isTrivia t.text.hasNewline [] ts
      ⟨⟨gap.reverse, t, fresh⟩ :: r.words, r.tail⟩

/-- The words of a text, given its tokens and the kinds that do not count as significant. -/
def ofTokens (isTrivia : Kind → Bool) (ts : List Token) : Words := group isTrivia true [] ts

/-- The tokens of words in the order of the text. -/
def toTokens (ws : Words) : List Token := ws.words.flatMap (fun w => w.gap ++ [w.token]) ++ ws.tail

/-- Grouping loses no token and keeps their order. -/
theorem toTokens_group (isTrivia : Kind → Bool) (fresh : Bool) (gap ts : List Token) :
    (group isTrivia fresh gap ts).toTokens = gap.reverse ++ ts := by
  induction ts generalizing fresh gap with
  | nil => simp [group, toTokens]
  | cons t ts ih =>
    by_cases h : isTrivia t.kind
    · simp [group, h, ih]
    · have := ih t.text.hasNewline []
      simp only [toTokens, List.reverse_nil, List.nil_append] at this
      simp [group, h, toTokens, this]

/-- The words of a text hold exactly its tokens. -/
@[simp] theorem toTokens_ofTokens (isTrivia : Kind → Bool) (ts : List Token) :
    (ofTokens isTrivia ts).toTokens = ts := by
  simp [ofTokens, toTokens_group]

end Words

end GoFront
