import GoFront.Proofs.Token.Lookahead
import GoFront.Proofs.Token.Terminator

/-!
# Tokens on their own

The lexer of the source language looks at characters behind a token to tell where the token ends. If the text is cut
off right there, it sees the end of the input in their place, and comes to the same decision: `lexeme_take`. So the kind
of a token depends on its own characters alone. Line ends are the exception, since whether one is a semicolon depends on
what comes before it: `tokens_alone`.
-/

namespace GoFront

namespace Lexeme

variable {x y : Text}

/-- A number that fills a piece of a text is the same number in the piece alone. -/
lemma number_append {first : Char} (h : (number first (x ++ y)).2 = x.length) :
    number first x = number first (x ++ y) := by
  rcases number_cut (Nat.le_of_eq h) with heq | ⟨hdrop, -⟩
  · exact heq
  · rw [h, List.drop_length] at hdrop
    exact nomatch hdrop

/-- A fraction takes the digit behind its point. -/
lemma number_point_pos {d : Char} (hd : d.isDigit = true) (cs : Text) : 0 < (number '.' (d :: cs)).2 := by
  have hrun : 0 < run isDigitPart (d :: cs) := by
    have hpart : isDigitPart d = true := by simp [isDigitPart, hd]
    simp [run, hpart]
  have hle : run isDigitPart (d :: cs) ≤ (number '.' (d :: cs)).2 :=
    Nat.le_of_add_right_le (le_scaled isDecimalMarker .floatNumber _ _)
  omega

lemma blockComment_pos {cs : Text} (h : cs ≠ []) : 0 < (blockComment cs).2 := by
  unfold blockComment
  split
  · exact Nat.lt_of_lt_of_le Nat.zero_lt_one (Nat.le_add_right _ _)
  · exact List.length_pos_iff.2 h

end Lexeme

namespace Source

open Lexeme

variable {c : Char} {cs y : Text}

lemma operator?_eq_none_iff {t : Text} : operator? t = none ↔
    ∀ k ∈ Kind.sourceOperators, ∀ word ∈ k.spelling?, ¬word <+: t := by
  unfold operator?
  rw [List.findSome?_eq_none_iff]
  refine forall₂_congr fun k _ => ?_
  cases k.spelling? with
  | none => simp
  | some word => simp

lemma operator?_eq_some_iff {t : Text} {r : Kind × Nat} : operator? t = some r ↔
    ∃ before k after, Kind.sourceOperators = before ++ k :: after ∧
      (∃ word ∈ k.spelling?, word <+: t ∧ (k, word.length - 1) = r) ∧
      ∀ k' ∈ before, ∀ word ∈ k'.spelling?, ¬word <+: t := by
  unfold operator?
  rw [List.findSome?_eq_some_iff]
  refine exists₃_congr fun before k after => and_congr_right fun _ => and_congr ?_ (forall₂_congr fun k' _ => ?_)
  · cases k.spelling? with
    | none => simp
    | some word => simp
  · cases k'.spelling? with
    | none => simp
    | some word => simp

/-- The longest operator at the front of a text is found in every piece that holds it. -/
lemma operator?_append {x : Text} (h : ((operator? (x ++ y)).getD (.badCharacter, 0)).2 < x.length) :
    operator? x = operator? (x ++ y) := by
  have hnone : ∀ word : Text, ¬word <+: x ++ y → ¬word <+: x :=
    fun word hword hx => hword (hx.trans (List.prefix_append x y))
  cases hxy : operator? (x ++ y) with
  | none =>
    rw [operator?_eq_none_iff] at hxy ⊢
    exact fun k hk word hword => hnone word (hxy k hk word hword)
  | some r =>
    rw [hxy, Option.getD_some] at h
    rw [operator?_eq_some_iff] at hxy ⊢
    obtain ⟨before, k, after, hops, ⟨word, hword, hfront, rfl⟩, hbefore⟩ := hxy
    have hle : word.length ≤ x.length := by
      dsimp only at h
      omega
    have hfront' : word <+: x := List.prefix_of_prefix_length_le hfront (List.prefix_append x y) hle
    exact ⟨before, k, after, hops, ⟨word, hword, hfront', rfl⟩,
      fun k' hk' word' hword' => hnone word' (hbefore k' hk' word' hword')⟩

/-- A token that fills a piece of a text is the same token in the piece alone, if it is neither a blank nor a
comment. -/
lemma significant_append (h : (significant c (cs ++ y)).2 = cs.length) :
    significant c cs = significant c (cs ++ y) := by
  unfold significant at h ⊢
  by_cases hdigit : c.isDigit
  · simp only [if_pos hdigit] at h ⊢
    exact number_append h
  simp only [if_neg hdigit] at h ⊢
  by_cases hpoint : c = '.' && (cs ++ y).head?.any Char.isDigit
  · simp only [if_pos hpoint] at h ⊢
    have hne : cs ≠ [] := by
      rintro rfl
      rw [Bool.and_eq_true, decide_eq_true_eq, Option.any_eq_true] at hpoint
      obtain ⟨rfl, d, hd, hdigit⟩ := hpoint
      obtain ⟨r, rfl⟩ := List.head?_eq_some_iff.1 hd
      exact absurd h (Nat.pos_iff_ne_zero.1 (number_point_pos hdigit r))
    rw [List.head?_append_of_ne_nil cs hne] at hpoint
    rw [if_pos hpoint]
    exact number_append h
  have hpoint' : ¬(c = '.' && cs.head?.any Char.isDigit) = true := by
    intro hp
    cases cs with
    | nil => simp at hp
    | cons b cs => exact hpoint hp
  simp only [if_neg hpoint, if_neg hpoint'] at h ⊢
  by_cases hstring : c = '"'
  · simp only [if_pos hstring] at h ⊢
    rw [quoted_append (Nat.le_of_eq h)]
  simp only [if_neg hstring] at h ⊢
  by_cases hrune : c = '\''
  · simp only [if_pos hrune] at h ⊢
    rw [quoted_append (Nat.le_of_eq h)]
  simp only [if_neg hrune] at h ⊢
  by_cases hraw : c = '`'
  · simp only [if_pos hraw] at h ⊢
    rw [raw_append (Nat.le_of_eq h)]
  simp only [if_neg hraw] at h ⊢
  by_cases hname : isNameStart c
  · simp only [if_pos hname] at h ⊢
    have hrun : run isNamePart (cs ++ y) ≤ cs.length := Nat.le_of_eq h
    unfold word
    dsimp only
    rw [run_append hrun, List.take_append_of_le_length hrun]
  · simp only [if_neg hname] at h ⊢
    have hlt : ((operator? (c :: cs ++ y)).getD (.badCharacter, 0)).2 < (c :: cs).length :=
      Nat.lt_succ_of_le (Nat.le_of_eq h)
    rw [operator?_append hlt, List.cons_append]

/-- A token that fills a piece of a text is the same token in the piece alone. -/
lemma lexeme_append (h : (lexeme c (cs ++ y)).2 = cs.length) : lexeme c cs = lexeme c (cs ++ y) := by
  have hnext : ∀ b, cs.head? = some b → (cs ++ y).head? = some b := by
    intro b hb
    obtain ⟨r, rfl⟩ := List.head?_eq_some_iff.1 hb
    rfl
  unfold lexeme at h ⊢
  by_cases hend : c = '\n'
  · simp only [if_pos hend]
  simp only [if_neg hend] at h ⊢
  by_cases hblank : isBlank c
  · simp only [if_pos hblank] at h ⊢
    rw [run_append (Nat.le_of_eq h)]
  simp only [if_neg hblank] at h ⊢
  by_cases hline : c = '/' && (cs ++ y).head? = some '/'
  · simp only [if_pos hline] at h ⊢
    have hne : cs ≠ [] := by
      rintro rfl
      rw [Bool.and_eq_true, decide_eq_true_eq, decide_eq_true_eq] at hline
      obtain ⟨r, rfl⟩ := List.head?_eq_some_iff.1 hline.2
      simp [run] at h
    rw [List.head?_append_of_ne_nil cs hne] at hline
    rw [if_pos hline, run_append (Nat.le_of_eq h)]
  have hline' : ¬(c = '/' && cs.head? = some '/') = true := by
    simp only [Bool.and_eq_true, decide_eq_true_eq] at hline ⊢
    exact fun hc => hline (hc.imp_right (hnext _))
  simp only [if_neg hline, if_neg hline'] at h ⊢
  by_cases hblock : c = '/' && (cs ++ y).head? = some '*'
  · simp only [if_pos hblock] at h ⊢
    have hne : cs ≠ [] := by
      rintro rfl
      rw [Bool.and_eq_true, decide_eq_true_eq, decide_eq_true_eq] at hblock
      obtain ⟨r, rfl⟩ := List.head?_eq_some_iff.1 hblock.2
      exact absurd h (Nat.pos_iff_ne_zero.1 (blockComment_pos (List.cons_ne_nil _ _)))
    rw [List.head?_append_of_ne_nil cs hne] at hblock
    rw [if_pos hblock, blockComment_append (Nat.le_of_eq h)]
  have hblock' : ¬(c = '/' && cs.head? = some '*') = true := by
    simp only [Bool.and_eq_true, decide_eq_true_eq] at hblock ⊢
    exact fun hc => hblock (hc.imp_right (hnext _))
  simp only [if_neg hblock, if_neg hblock'] at h ⊢
  exact significant_append h

/-- If the text is cut off right behind a token, the token stays what it is. -/
lemma lexeme_take (c : Char) (cs : Text) : lexeme c (cs.take (lexeme c cs).2) = lexeme c cs := by
  rcases Nat.le_total cs.length (lexeme c cs).2 with hle | hle
  · rw [List.take_of_length_le hle]
  · obtain ⟨n, hn⟩ : ∃ n, (lexeme c cs).2 = n := ⟨_, rfl⟩
    rw [hn] at hle ⊢
    have happend : cs.take n ++ cs.drop n = cs := List.take_append_drop n cs
    have hfills : (lexeme c (cs.take n ++ cs.drop n)).2 = (cs.take n).length := by
      rw [happend, hn, List.length_take_of_le hle]
    rw [lexeme_append hfills, happend]

/-- The first token of a text. No line end has ended a statement yet. -/
lemma head?_tokens (c : Char) (cs : Text) :
    (tokens (c :: cs)).head? = some ⟨(lexeme c cs).1, 0, c :: cs.take (lexeme c cs).2⟩ := by
  rw [tokens, scan]
  rcases State.step_cases {} 0 (lexeme c cs).1 (c :: cs.take (lexeme c cs).2) with
    ⟨-, hl, -⟩ | ⟨-, -, hl, -⟩ | ⟨-, -, heq⟩
  · cases hl
  · cases hl
  · simp only [heq]
    rfl

/-- Tokens with characters are what stands at their place in the text, line ends apart. -/
lemma exists_lexeme_of_mem {text : Text} {t : Token} (h : t ∈ tokens text) :
    t.text = [] ∨ t.text = ['\n'] ∨ ∃ c cs, t.kind = (lexeme c cs).1 ∧ t.text = c :: cs.take (lexeme c cs).2 := by
  obtain ⟨before, after, heq⟩ := List.append_of_mem h
  refine throughout_scan (Q := fun t _ => t.text = [] ∨ t.text = ['\n'] ∨
    ∃ c cs, t.kind = (lexeme c cs).1 ∧ t.text = c :: cs.take (lexeme c cs).2)
    (fun t after _ htext => ?_) (fun offset c cs k n hlex => ?_) {} 0 text [] before t after heq
  · exact htext.imp_right .inl
  · exact .inr (.inr ⟨c, cs, by rw [hlex], by rw [hlex]⟩)

/-- **A token is the same token on its own**, unless it is a line end, or a semicolon without characters. -/
theorem tokens_alone (text : Text) (t : Token) (ht : t ∈ tokens text) (hne : t.text ≠ []) (hline : t.text ≠ ['\n']) :
    (tokens t.text).head? = some ⟨t.kind, 0, t.text⟩ := by
  rcases exists_lexeme_of_mem ht with h | h | ⟨c, cs, hkind, htext⟩
  · exact absurd h hne
  · exact absurd h hline
  · rw [hkind, htext, head?_tokens, lexeme_take, List.take_take, Nat.min_self]

/-- In front of two points a number ends before the first of them. -/
theorem tokens_alone_points : ⟨.intNumber, 0, ['1']⟩ ∈ tokens "1..x".toList ∧ ['1'] ≠ [] ∧ ['1'] ≠ ['\n'] ∧
    (tokens ['1']).head? = some ⟨.intNumber, 0, ['1']⟩ := by
  have hmem : ⟨.intNumber, 0, ['1']⟩ ∈ tokens "1..x".toList := by decide +kernel
  exact ⟨hmem, by decide, by decide, tokens_alone _ _ hmem (by decide) (by decide)⟩

end Source

end GoFront
