import GoFront.Kind.Class
import GoFront.Text.Quoted

/-!
# Tokens

A token is a kind, the offset it starts at and the characters it covers. Where it ends follows from
these, so tokens that tile a text are those whose characters concatenate to it and whose offsets
add up.
-/

namespace GoFront

/-- A piece of a document with a kind. -/
structure Token where
  /-- What the piece is. -/
  kind : Kind
  /-- The byte offset of the piece in the document. -/
  start : Nat
  /-- The characters of the piece. -/
  text : Text
  deriving DecidableEq, Repr

namespace Token

/-- The offset behind the token. -/
def stop (t : Token) : Nat := t.start + t.text.size

/-- The stretch of the document a token covers. -/
def span (t : Token) : Span := ⟨t.start, t.text.size⟩

@[simp] theorem start_span (t : Token) : t.span.start = t.start := rfl

@[simp] theorem stop_span (t : Token) : t.span.stop = t.stop := rfl

/-- The written form `LABEL@start..stop "text"`. -/
def print (t : Token) : String :=
  t.kind.label ++ "@" ++ t.span.print ++ " " ++ String.ofList t.text.quote

/-- Tokens that follow one another without gap from an offset on. -/
inductive Tile : Nat → List Token → Prop
  /-- No tokens. -/
  | nil (n : Nat) : Tile n []
  /-- A token at the offset, and the others behind it. -/
  | cons {t : Token} {ts : List Token} (rest : Tile t.stop ts) : Tile t.start (t :: ts)

end Token

end GoFront
