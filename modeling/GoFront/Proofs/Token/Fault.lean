import GoFront.Proofs.Token.Terminator

/-!
# Tokens that stand for lexical errors

A token that stands for a lexical error holds at least one character, and one that fits nowhere holds exactly one
(`Token.Sane`). So no two of them stand at the same place, and a message can quote the one character. No lexer yields a
token for the end of the input, which is what a parser sees behind the last one.
-/

namespace GoFront

/-- A token is not the end of the input; it holds a character if it stands for a lexical error, and no second one if it
fits nowhere. -/
structure Token.Sane (t : Token) : Prop where
  ends : t.kind ≠ .endOfInput
  filled : t.kind.isLexicalError = true → t.text ≠ []
  single : t.kind = .badCharacter → ∃ c, t.text = [c]

namespace Lexeme

/-- A piece of text, as its kind and the number of characters behind the first, that makes a sane token. -/
structure Sane (r : Kind × Nat) : Prop where
  ends : r.1 ≠ .endOfInput
  single : r.1 = .badCharacter → r.2 = 0

namespace Sane

variable {r : Kind × Nat} {ks : List Kind}

lemma of_mem (hr : r.1 ∈ ks) (hks : Kind.endOfInput ∉ ks ∧ Kind.badCharacter ∉ ks) : Sane r where
  ends h := hks.1 (h ▸ hr)
  single h := absurd (h ▸ hr) hks.2

/-- A character that fits nowhere. -/
lemma bad : Sane (.badCharacter, 0) := ⟨by decide, fun _ => rfl⟩

lemma ite {p : Prop} [Decidable p] {a b : Kind × Nat} (ha : Sane a) (hb : Sane b) : Sane (if p then a else b) := by
  split
  · exact ha
  · exact hb

lemma closed {k unclosed : Kind} (hks : Kind.endOfInput ∉ [k, unclosed] ∧ Kind.badCharacter ∉ [k, unclosed])
    (r : Bool × Nat) : Sane (closed k unclosed r) :=
  .of_mem (closed_mem k unclosed r) hks

lemma number (c : Char) (cs : Text) : Sane (number c cs) := .of_mem (number_mem c cs) (by decide)

lemma blockComment (cs : Text) : Sane (blockComment cs) := .of_mem (blockComment_mem cs) (by decide)

/-- The token for a piece that starts with a character. -/
lemma token (hr : Sane r) (offset : Nat) (c : Char) (cs : Text) :
    Token.Sane ⟨r.1, offset, c :: cs.take r.2⟩ where
  ends := hr.ends
  filled _ := List.cons_ne_nil _ _
  single h := ⟨c, by rw [hr.single h, List.take_zero]⟩

end Sane

end Lexeme

open Lexeme

/-! ## Source files -/

namespace Source

lemma sane_word (c : Char) (cs : Text) : Sane (word c cs) := .of_mem (word_mem c cs) (by decide)

lemma sane_operator (t : Text) : Sane ((operator? t).getD (.badCharacter, 0)) := by
  cases h : operator? t with
  | none => exact .bad
  | some r =>
    obtain ⟨hmem, -⟩ := spelling?_of_operator? (k := r.1) (n := r.2) h
    exact .of_mem hmem (by decide)

lemma sane_lexeme (c : Char) (cs : Text) : Sane (lexeme c cs) := by
  have hkind : ∀ k ∈ [Kind.newline, .whitespace, .lineComment], ∀ n, Sane (k, n) := fun k hk n => .of_mem hk (by decide)
  refine .ite (hkind _ (by decide) _) (.ite (hkind _ (by decide) _) (.ite (hkind _ (by decide) _)
    (.ite (.blockComment cs) ?_)))
  refine .ite (.number c cs) (.ite (.number c cs) (.ite (.closed (by decide) _) (.ite (.closed (by decide) _)
    (.ite (.closed (by decide) _) (.ite (sane_word c cs) (sane_operator _))))))

/-- The tokens for one piece of text are sane if the piece is. -/
lemma sane_step {k : Kind} {n : Nat} (h : Sane (k, n)) (s : State) (offset : Nat) (c : Char) (cs : Text) :
    ∀ t ∈ (s.step offset k (c :: cs.take n)).1, t.Sane := by
  have hpiece := h.token offset c cs
  have hsemicolon : ∀ offset text, Token.Sane ⟨.semicolon, offset, text⟩ := fun offset text =>
    ⟨by simp, by simp [Kind.isLexicalError], by simp⟩
  unfold State.step
  split
  · exact List.forall_mem_singleton.2 (hsemicolon _ _)
  split
  · exact List.forall_mem_cons.2 ⟨hpiece, List.forall_mem_singleton.2 (hsemicolon _ _)⟩
  split
  · exact List.forall_mem_singleton.2 hpiece
  · exact List.forall_mem_singleton.2 hpiece

lemma sane_scan (s : State) (offset : Nat) (text : Text) : ∀ t ∈ scan s offset text, t.Sane := by
  fun_induction scan s offset text with
  | case1 => exact List.forall_mem_singleton.2 ⟨by simp, by simp [Kind.isLexicalError], by simp⟩
  | case2 => simp
  | case3 s offset c cs kind n hlex piece ts s' hstep ih =>
    have hsane : Sane (kind, n) := hlex ▸ sane_lexeme c cs
    have hpiece := sane_step hsane s offset c cs
    rw [hstep] at hpiece
    exact List.forall_mem_append.2 ⟨hpiece, ih⟩

end Source

/-! ## Templates -/

namespace Template

lemma sane_wordKind (w : Text) (n : Nat) : Sane (wordKind w, n) := .of_mem (wordKind_mem w) (by decide)

lemma sane_operator (c : Char) (next : Option Char) : Sane (operator c next) := by
  have hkind : ∀ k ∈ [Kind.logicOperator, .pipe, .compareOperator, .assign, .define, .leftParen, .rightParen, .comma],
      ∀ n, Sane (k, n) := fun k hk n => .of_mem hk (by decide)
  refine .ite (.ite ?_ ?_) (.ite ?_ (.ite (.ite ?_ ?_) (.ite (.ite ?_ ?_) (.ite ?_ (.ite ?_ (.ite ?_ (.ite ?_
    (.ite ?_ .bad))))))))
  all_goals exact hkind _ (by simp) _

lemma sane_lexeme (c : Char) (cs : Text) : Sane (lexeme c cs) := by
  have hkind : ∀ k ∈ [Kind.whitespace, .field, .dot, .variable], ∀ n, Sane (k, n) :=
    fun k hk n => .of_mem hk (by decide)
  refine .ite (hkind _ (by decide) _) (.ite (.blockComment cs) ?_)
  refine .ite (.closed (by decide) _) (.ite (.closed (by decide) _) (.ite (.closed (by decide) _)
    (.ite (.number c cs) ?_)))
  refine .ite (.ite (.number c cs) ?_) (.ite (.ite (hkind _ (by decide) _) (hkind _ (by decide) _)) ?_)
  · split
    · exact .of_mem (number_mem _ _) (by decide)
    · exact .bad
  · exact .ite (hkind _ (by decide) _) (.ite (sane_wordKind _ _) (sane_operator _ _))

/-- A token of a template is sane: outside directives it does not stand for an error at all. -/
lemma sane_piece (d : Delimiters) (host : HostLanguage) (s : State) (offset : Nat) (c : Char) (cs : Text) :
    Token.Sane ⟨(piece d host s c cs).kind, offset, c :: cs.take ((piece d host s c cs).length - 1)⟩ := by
  have hplain : ∀ k ∈ [Kind.whitespace, .text, .leftDelimiter, .rightDelimiter], ∀ n,
      Token.Sane ⟨k, offset, c :: cs.take n⟩ :=
    fun k hk n => (Sane.of_mem (r := (k, n)) hk (by decide)).token offset c cs
  unfold piece
  split
  · unfold actionPiece
    split
    · exact hplain _ (by simp) _
    · exact (sane_lexeme c cs).token offset c cs
  · have hturns := turns_textPiece d host s.trimAfter (c :: cs)
    refine hplain _ ?_ _
    generalize (textPiece d host s.trimAfter (c :: cs)).inAction = mode at hturns
    generalize (textPiece d host s.trimAfter (c :: cs)).kind = k at hturns ⊢
    cases hturns with
    | host h => rcases h with rfl | rfl <;> simp
    | opens => simp

lemma sane_scan (d : Delimiters) (host : HostLanguage) (s : State) (offset : Nat) (text : Text) :
    ∀ t ∈ (scan d host s offset text).map Drawn.token, t.Sane := by
  fun_induction scan d host s offset text with
  | case1 => simp
  | case2 s offset c cs p piece ih =>
    rw [List.map_cons]
    exact List.forall_mem_cons.2 ⟨sane_piece d host s offset c cs, ih⟩

end Template

end GoFront
