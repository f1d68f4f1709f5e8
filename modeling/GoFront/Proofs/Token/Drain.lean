import GoFront.Proofs.Token.Terminator
import GoFront.Token.Tokenizer

/-!
# The lexer comes to an end

Not every step of the lexer takes a character: the semicolons it supplies behind a comment and at the end are empty.
`Drains` relates a lexer to the tokens it yields until there are no more. The steps of a lexer are those of `scan`
(`drains_scan`), so every lexer is drained, and what holds of scanned tokens holds of the tokens it yields:
`tokenizer_drained`.
-/

namespace GoFront.Source

namespace Tokenizer

/-- A lexer yields some tokens and then no more. -/
inductive Drains : Tokenizer → List Token → Tokenizer → Prop
  /-- There is no further token. -/
  | last {t : Tokenizer} (h : t.next? = none) : Drains t [] t
  /-- A token, and those of the steps that follow. -/
  | next {t t' last : Tokenizer} {u : Token} {us : List Token} (h : t.next? = some (u, t')) (rest : Drains t' us last) :
    Drains t (u :: us) last

/-- The lexer behind one piece of text. -/
def behind (s : State) (offset : Nat) (text rest : Text) : Tokenizer := ⟨rest, offset + text.size, s, none⟩

/-- One piece of text is yielded in one step, or in two if a semicolon is supplied behind it. -/
lemma drains_step {s s' : State} {offset : Nat} {c : Char} {cs : Text} {kind : Kind} {n : Nat} {ts us : List Token}
    {last : Tokenizer} (hlex : lexeme c cs = (kind, n)) (hstep : s.step offset kind (c :: cs.take n) = (ts, s'))
    (h : Drains (behind s' offset (c :: cs.take n) (cs.drop n)) us last) :
    Drains ⟨c :: cs, offset, s, none⟩ (ts ++ us) last := by
  unfold State.step at hstep
  split at hstep
  · next hline =>
    obtain ⟨rfl, rfl⟩ := Prod.mk.inj hstep
    refine .next ?_ h
    simp only [next?, hlex, hline, if_true, behind]
  · next hline =>
    split at hstep
    · next hcomment =>
      obtain ⟨rfl, rfl⟩ := Prod.mk.inj hstep
      -- the semicolon behind the comment is due at the second step
      have hsecond : Drains ⟨cs.drop n, offset + Text.size (c :: cs.take n), s.supplied,
          some (offset + Text.size (c :: cs.take n))⟩ (⟨.semicolon, _, []⟩ :: us) last := .next rfl h
      refine .next ?_ hsecond
      simp only [next?, hlex, hline, hcomment, if_true]
      rfl
    · next hcomment =>
      split at hstep
      · next htrivia =>
        obtain ⟨rfl, rfl⟩ := Prod.mk.inj hstep
        refine .next ?_ h
        simp only [next?, hlex, hline, hcomment, htrivia, if_true, behind]
        rfl
      · next htrivia =>
        obtain ⟨rfl, rfl⟩ := Prod.mk.inj hstep
        refine .next ?_ h
        simp only [next?, hlex, hline, hcomment, htrivia, behind]
        rfl

/-- A lexer yields what is scanned from its state on, and ends behind its text. -/
lemma drains_scan (s : State) (offset : Nat) (text : Text) :
    ∃ s', Drains ⟨text, offset, s, none⟩ (scan s offset text) ⟨[], offset + text.size, s', none⟩ := by
  fun_induction scan s offset text with
  | case1 s offset hp =>
    refine ⟨s.supplied, .next ?_ (.last rfl)⟩
    simp only [next?, hp, if_true]
    rfl
  | case2 s offset hp =>
    refine ⟨s, .last ?_⟩
    simp only [next?, hp]
    rfl
  | case3 s offset c cs kind n hlex piece ts s' hstep ih =>
    obtain ⟨s'', hrest⟩ := ih
    have hsize : offset + piece.size + Text.size (cs.drop n) = offset + Text.size (c :: cs) := by
      rw [Nat.add_assoc, ← Text.size_append]
      simp [piece]
    rw [hsize] at hrest
    exact ⟨s'', drains_step hlex hstep hrest⟩

/-- The tokens that a lexer yields from an offset of a text on: they tile the rest of the text. -/
structure Drained (text : Text) (offset : Nat) (ts : List Token) : Prop where
  /-- The tokens follow one another from the offset to the end, and their characters are those of the rest. -/
  covers : ∃ before after, text = before ++ after ∧ before.size = offset ∧ Token.Covers offset after ts
  /-- No token starts or ends inside a character. -/
  boundary : ∀ t ∈ ts, text.IsBoundary t.start ∧ text.IsBoundary t.stop
  /-- Only semicolons have no characters. -/
  nonempty : ∀ t ∈ ts, t.kind ≠ .semicolon → t.text ≠ []
  /-- Of two tokens next to one another, one has characters. -/
  apart : ts.IsChain fun a b => a.text ≠ [] ∨ b.text ≠ []

/-- No token that covers part of a text starts or ends inside a character. -/
lemma isBoundary_of_covers {before after : Text} {ts : List Token} (h : Token.Covers before.size after ts) :
    ∀ t ∈ ts, (before ++ after).IsBoundary t.start ∧ (before ++ after).IsBoundary t.stop := by
  intro t ht
  obtain ⟨us, vs, rfl⟩ := List.append_of_mem ht
  have hstart : t.start = before.size + Text.size (us.flatMap Token.text) := h.tile.behind.start_eq
  have hchars := h.chars
  simp only [List.flatMap_append, List.flatMap_cons] at hchars
  rw [Token.stop, hstart, Nat.add_assoc, Text.isBoundary_append, Text.isBoundary_append, ← hchars]
  exact ⟨⟨_, _, rfl, rfl⟩, ⟨us.flatMap Token.text ++ t.text, _, by rw [List.append_assoc], Text.size_append _ _⟩⟩

/-- An empty token never follows another one: both would be semicolons, and no statement ends behind a semicolon. -/
lemma apart_of_placed {ts : List Token} (h : Throughout Placed [] ts) :
    ts.IsChain fun a b => a.text ≠ [] ∨ b.text ≠ [] := by
  rw [List.isChain_iff_forall_rel_of_append_cons_cons]
  intro a b before after heq
  by_contra hempty
  obtain ⟨ha, hb⟩ := not_or.1 hempty
  have hplaced : Placed before a (b :: after) := h before a (b :: after) heq
  have hplaced' : Placed (before ++ [a]) b after := h (before ++ [a]) b after (by simpa using heq)
  have hnot : ¬EndsStatement (before ++ [a]) := not_endsStatement_of_semicolon (hplaced.nonempty (not_not.1 ha))
  rcases hplaced'.supplied (hplaced'.nonempty (not_not.1 hb)) (by simp [not_not.1 hb]) with h | h | h
  · exact hnot h.2.1
  · exact hnot h.2.2.1
  · exact hnot h.2.2

/-- **A lexer comes to its end at the end of the text**, wherever in the text it starts, and the tokens it yields on the
way tile what it goes through. -/
theorem tokenizer_drained (text : Text) (offset : Nat) (h : text.IsBoundary offset) :
    ∃ start ts last, at? text offset = some start ∧ tokensFrom? text offset = some ts ∧ Drains start ts last ∧
      last.offset = text.size ∧ Drained text offset ts := by
  obtain ⟨before, after, rfl, rfl⟩ := h
  have hcovers := covers_scan {} before.size after
  have hplaced : Throughout Placed [] (scan {} before.size after) := (placed_scan {} before.size after [] .initial).1
  obtain ⟨s, hdrains⟩ := drains_scan {} before.size after
  refine ⟨_, scan {} before.size after, _, ?_, ?_, hdrains, (Text.size_append before after).symm, ?_⟩
  · rw [at?, Text.cut?_append]
    rfl
  · rw [tokensFrom?, Text.cut?_append]
    rfl
  · refine ⟨⟨before, after, rfl, rfl, hcovers⟩, isBoundary_of_covers hcovers, fun t ht hkind hempty => ?_,
      apart_of_placed hplaced⟩
    obtain ⟨us, vs, heq⟩ := List.append_of_mem ht
    exact hkind ((hplaced us t vs heq).nonempty hempty)

theorem tokenizer_drained_behind_line : Text.IsBoundary "é\nb".toList 3 ∧
    ∃ start ts last, at? "é\nb".toList 3 = some start ∧ tokensFrom? "é\nb".toList 3 = some ts ∧ Drains start ts last ∧
      last.offset = 4 ∧ Drained "é\nb".toList 3 ts := by
  have hboundary : Text.IsBoundary "é\nb".toList 3 := ⟨"é\n".toList, "b".toList, rfl, rfl⟩
  exact ⟨hboundary, tokenizer_drained "é\nb".toList 3 hboundary⟩

end Tokenizer

end GoFront.Source
