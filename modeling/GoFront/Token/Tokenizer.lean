import GoFront.Token.Source

/-!
# Tokens of source files, one at a time

The lexer as a machine that yields one token at each step. A block comment behind which a semicolon is supplied takes
two steps: the comment is yielded first, and the semicolon is due at the next step.
-/

namespace GoFront.Source

/-- A lexer on its way through a text. -/
structure Tokenizer where
  /-- The characters that are left. -/
  rest : Text
  /-- The offset of the first character that is left. -/
  offset : Nat
  /-- What the lexer remembers of the tokens so far. -/
  state : State := {}
  /-- The offset of a semicolon that has to be yielded next. -/
  due : Option Nat := none
  deriving DecidableEq, Repr

namespace Tokenizer

/-- A lexer at an offset of a text, which remembers nothing of what comes before; none if the offset lies past the end
or inside a character. -/
def at? (text : Text) (offset : Nat) : Option Tokenizer := (text.cut? offset).map fun p => ⟨p.2, offset, {}, none⟩

/-- One step: the next token, and the lexer behind it. -/
def next? (t : Tokenizer) : Option (Token × Tokenizer) :=
  match t.due with
  | some offset => some (⟨.semicolon, offset, []⟩, { t with due := none })
  | none =>
    match t.rest with
    | [] =>
      if t.state.pending then some (⟨.semicolon, t.offset, []⟩, { t with state := t.state.supplied }) else none
    | c :: cs =>
      let (kind, n) := lexeme c cs
      let text : Text := c :: cs.take n
      let behind : Tokenizer := { t with rest := cs.drop n, offset := t.offset + text.size }
      if kind = .newline && t.state.lineEnds then
        some (⟨.semicolon, t.offset, text⟩, { behind with state := t.state.supplied })
      else if kind = .blockComment && text.hasNewline && t.state.lineEnds then
        some (⟨kind, t.offset, text⟩, { behind with state := t.state.supplied, due := some behind.offset })
      else if kind.isTrivia then some (⟨kind, t.offset, text⟩, behind)
      else some (⟨kind, t.offset, text⟩, { behind with state := t.state.track kind })

end Tokenizer

end GoFront.Source
