import GoFront.Proofs.Token.Marker
import GoFront.Proofs.Token.Terminator
import Mathlib.Algebra.Group.Nat.Even
import Mathlib.Data.List.TakeWhile
import Mathlib.Data.Nat.Find

/-!
# Where quoted literals end

A literal opened by a quote goes on to the next quote that is not escaped, or to the end of the line. The lexer goes
from front to back and lets each backslash take a character with it. Seen from a quote, that comes to a rule on what
stands right in front of it: the quote closes the literal if the number of backslashes there is even (`Closing`).

`quoted_closed` and `quoted_unclosed` say that the lexer follows this rule; `literals_closed` says so of the literals
among the tokens of both lexers.
-/

namespace GoFront.Lexeme

/-- The number of backslashes a text ends with. -/
def backslashes (t : Text) : Nat := (t.reverse.takeWhile (· = '\\')).length

/-- Behind the first `n` characters of what follows the opening quote stands a quote that is not escaped. -/
structure Unescaped (q : Char) (cs : Text) (n : Nat) : Prop where
  /-- There is a quote. -/
  quote : cs[n]? = some q
  /-- Backslashes right in front of it come in pairs. -/
  even : Even (backslashes (cs.take n))

/-- Behind the first `n` characters of what follows the opening quote stands a quote that closes the literal. -/
structure Closing (q : Char) (cs : Text) (n : Nat) : Prop extends Unescaped q cs n where
  /-- It stands on the line of the opening quote. -/
  line : '\n' ∉ cs.take n

instance (q : Char) (cs : Text) (n : Nat) : Decidable (Unescaped q cs n) :=
  decidable_of_iff (cs[n]? = some q ∧ Even (backslashes (cs.take n))) ⟨fun h => ⟨h.1, h.2⟩, fun h => ⟨h.1, h.2⟩⟩

instance (q : Char) (cs : Text) (n : Nat) : Decidable (Closing q cs n) :=
  decidable_of_iff (Unescaped q cs n ∧ '\n' ∉ cs.take n) ⟨fun h => ⟨h.1, h.2⟩, fun h => ⟨h.1, h.2⟩⟩

/-! ## Backslashes -/

lemma backslashes_cons {c : Char} (hc : c ≠ '\\') (t : Text) : backslashes (c :: t) = backslashes t := by
  unfold backslashes
  rw [List.reverse_cons, List.takeWhile_append]
  split
  · next hall => simp [hc, hall]
  · rfl

/-- A backslash in front of nothing but backslashes adds one to them; else it adds nothing. -/
lemma backslashes_backslash (t : Text) :
    backslashes ('\\' :: t) = if backslashes t = t.length then t.length + 1 else backslashes t := by
  unfold backslashes
  rw [List.reverse_cons, List.takeWhile_append, List.length_reverse]
  split
  · simp
  · rfl

lemma backslashes_le (t : Text) : backslashes t ≤ t.length := by
  have := (List.takeWhile_prefix (· = '\\') (l := t.reverse)).length_le
  rwa [List.length_reverse] at this

/-- A backslash and the character it takes with it make no difference between even and odd. -/
lemma even_backslashes_escape (d : Char) (t : Text) :
    Even (backslashes ('\\' :: d :: t)) ↔ Even (backslashes t) := by
  have hle := backslashes_le t
  by_cases hd : d = '\\'
  · subst hd
    by_cases hall : backslashes t = t.length
    · rw [backslashes_backslash, backslashes_backslash, if_pos hall, List.length_cons, if_pos rfl, hall]
      simp [Nat.even_add_one]
    · rw [backslashes_backslash, backslashes_backslash, if_neg hall, List.length_cons, if_neg (by omega)]
  · rw [backslashes_backslash, backslashes_cons hd, List.length_cons, if_neg (by omega)]

/-! ## Closing quotes -/

variable {q : Char} {cs : Text} {n : Nat}

lemma closing_zero (q : Char) (cs : Text) : Closing q (q :: cs) 0 := ⟨⟨rfl, by simp [backslashes]⟩, by simp⟩

/-- An ordinary character that is no quote makes no difference. -/
lemma closing_cons {c : Char} (hn : c ≠ '\n') (hb : c ≠ '\\') (hq : c ≠ q) :
    Closing q (c :: cs) n ↔ ∃ m, n = m + 1 ∧ Closing q cs m := by
  constructor
  · intro h
    cases n with
    | zero => exact absurd (Option.some.inj h.quote) hq
    | succ m =>
      refine ⟨m, rfl, ⟨h.quote, ?_⟩, fun hmem => h.line (List.mem_cons_of_mem _ hmem)⟩
      have heven := h.even
      rwa [List.take_succ_cons, backslashes_cons hb] at heven
  · rintro ⟨m, rfl, h⟩
    refine ⟨⟨h.quote, ?_⟩, ?_⟩
    · rw [List.take_succ_cons, backslashes_cons hb]
      exact h.even
    · rw [List.take_succ_cons]
      exact List.not_mem_cons_of_ne_of_not_mem hn.symm h.line

/-- Neither do a backslash and the character that it takes with it, whatever that is. -/
lemma closing_escape {d : Char} (hq : q ≠ '\\') (hd : d ≠ '\n') :
    Closing q ('\\' :: d :: cs) n ↔ ∃ m, n = m + 2 ∧ Closing q cs m := by
  constructor
  · intro h
    rcases n with _ | _ | m
    · exact absurd (Option.some.inj h.quote).symm hq
    · exact absurd h.even (by simp [backslashes])
    · refine ⟨m, rfl, ⟨h.quote, (even_backslashes_escape d _).1 h.even⟩, fun hmem => h.line ?_⟩
      exact List.mem_cons_of_mem _ (List.mem_cons_of_mem _ hmem)
  · rintro ⟨m, rfl, h⟩
    refine ⟨⟨h.quote, (even_backslashes_escape d _).2 h.even⟩, ?_⟩
    simpa [hd.symm] using h.line

/-- No quote closes a literal behind the end of its line. -/
lemma not_closing_of_newline (hq : q ≠ '\n') : ¬Closing q ('\n' :: cs) n := by
  intro h
  cases n with
  | zero => exact absurd (Option.some.inj h.quote).symm hq
  | succ n => exact h.line List.mem_cons_self

lemma not_closing_of_lone_backslash (hq : q ≠ '\\') : ¬Closing q ['\\'] n := by
  intro h
  cases n with
  | zero => exact absurd (Option.some.inj h.quote).symm hq
  | succ n => exact nomatch h.quote

/-- A backslash does not take a line end with it. -/
lemma not_closing_of_broken_escape (hq : q ≠ '\\') (hn : q ≠ '\n') : ¬Closing q ('\\' :: '\n' :: cs) n := by
  intro h
  rcases n with _ | _ | n
  · exact absurd (Option.some.inj h.quote).symm hq
  · exact absurd (Option.some.inj h.quote).symm hn
  · exact h.line (by simp)

/-! ## The lexer -/

/-- A literal ends with the first quote that closes it. -/
lemma quoted_closed (hb : q ≠ '\\') (hn : q ≠ '\n') (h : Closing q cs n) (hfirst : ∀ m < n, ¬Closing q cs m) :
    quoted q cs = (true, n + 1) := by
  fun_induction quoted q cs generalizing n with
  | case1 => exact absurd h.quote (by simp)
  | case2 => exact absurd h (not_closing_of_newline hn)
  | case3 => exact absurd h (not_closing_of_lone_backslash hb)
  | case4 => exact absurd h (not_closing_of_broken_escape hb hn)
  | case5 d cs hd r =>
    rename_i ih
    obtain ⟨m, rfl, hm⟩ := (closing_escape hb hd).1 h
    have hrest : r = (true, m + 1) := by
      refine ih hm fun i hi hclosing => hfirst (i + 2) (by omega) ?_
      exact (closing_escape hb hd).2 ⟨i, rfl, hclosing⟩
    rw [hrest]
  | case6 cs _ _ =>
    have hzero : ¬0 < n := fun hpos => hfirst 0 hpos (closing_zero q cs)
    obtain rfl : n = 0 := by omega
    rfl
  | case7 c cs hc hc' hq r =>
    rename_i ih
    obtain ⟨m, rfl, hm⟩ := (closing_cons hc hc' hq).1 h
    have hrest : r = (true, m + 1) := by
      refine ih hm fun i hi hclosing => hfirst (i + 1) (by omega) ?_
      exact (closing_cons hc hc' hq).2 ⟨i, rfl, hclosing⟩
    rw [hrest]

/-- A literal that no quote closes ends with its line. -/
lemma quoted_unclosed (hb : q ≠ '\\') (h : ∀ n, ¬Closing q cs n) : quoted q cs = (false, run (· ≠ '\n') cs) := by
  fun_induction quoted q cs with
  | case1 => rfl
  | case2 => rfl
  | case3 => rfl
  | case4 => rfl
  | case5 d cs hd r _ ih =>
    have hrest : r = (false, run (· ≠ '\n') cs) :=
      ih fun n hclosing => h (n + 2) ((closing_escape hb hd).2 ⟨n, rfl, hclosing⟩)
    rw [hrest]
    simp [run, hd]
  | case6 cs _ _ => exact absurd (closing_zero q cs) (h 0)
  | case7 c cs hc hc' hq r ih =>
    have hrest : r = (false, run (· ≠ '\n') cs) :=
      ih fun n hclosing => h (n + 1) ((closing_cons hc hc' hq).2 ⟨n, rfl, hclosing⟩)
    rw [hrest]
    simp [run, hc]

/-- Of the quotes that close a literal, if any, there is a first one. -/
lemma exists_first_closing (h : ∃ n, Closing q cs n) : ∃ n, Closing q cs n ∧ ∀ m < n, ¬Closing q cs m := by
  classical
  exact ⟨Nat.find h, Nat.find_spec h, fun m hm => Nat.find_min h hm⟩

/-! ## Tokens -/

/-- The quotes, each with the kinds of the literals it opens: those that are closed, and those that are not. -/
def quotes : List (Char × Kind × Kind) :=
  [('"', .string, .unterminatedString), ('\'', .rune, .unterminatedRune)]

/-- What follows the opening quote of a literal that is closed: no line end, and only the last character is a quote that
is not escaped. -/
structure Enclosed (q : Char) (cs : Text) : Prop where
  line : '\n' ∉ cs
  last : ∃ n, Unescaped q cs n
  only : ∀ n, Unescaped q cs n → n + 1 = cs.length

/-- What follows the opening quote of a literal that is not closed: neither a line end nor a quote that is not escaped,
and behind it the line ends. -/
structure Dangling (q : Char) (cs after : Text) : Prop where
  line : '\n' ∉ cs
  none : ∀ n, ¬Unescaped q cs n
  stop : ∀ c ∈ after.head?, c = '\n'

/-- A token in front of some characters, if it is a quoted literal, starts with its quote and ends where it should. -/
def Literal (t : Token) (after : Text) : Prop :=
  ∀ q closed unclosed, (q, closed, unclosed) ∈ quotes →
    (t.kind = closed → ∃ cs, t.text = q :: cs ∧ Enclosed q cs) ∧
    (t.kind = unclosed → ∃ cs, t.text = q :: cs ∧ Dangling q cs after)

/-- A token of another kind is no quoted literal. -/
lemma Literal.of_ne {t : Token} {after : Text} (h : ∀ p ∈ quotes, t.kind ≠ p.2.1 ∧ t.kind ≠ p.2.2) : Literal t after :=
  fun _ _ _ hmem => ⟨fun hk => absurd hk (h _ hmem).1, fun hk => absurd hk (h _ hmem).2⟩

/-- A piece of text that starts with a character, as its kind and the number of characters behind the first: if it is a
quoted literal, it is what is found behind its quote. -/
def Quotes (c : Char) (cs : Text) (r : Kind × Nat) : Prop :=
  ∀ q k u, (q, k, u) ∈ quotes → r.1 = k ∨ r.1 = u → c = q ∧ r = closed k u (quoted q cs)

lemma quotes_ne : ∀ p ∈ quotes, p.1 ≠ '\\' ∧ p.1 ≠ '\n' ∧ p.2.1 ≠ p.2.2 := by decide

/-- Up to the end of a piece, the quotes in it are those of the text. -/
lemma unescaped_take {m : Nat} (h : Unescaped q (cs.take m) n) : n < m ∧ Unescaped q cs n := by
  have hlt : n < (cs.take m).length := (List.getElem?_eq_some_iff.1 h.quote).1
  have hnm : n < m := by
    rw [List.length_take] at hlt
    omega
  refine ⟨hnm, ?_, ?_⟩
  · rw [← h.quote, List.getElem?_take_of_lt hnm]
  · have heven := h.even
    rwa [List.take_take, Nat.min_eq_left (Nat.le_of_lt hnm)] at heven

lemma enclosed_take (hn : q ≠ '\n') (h : Closing q cs n) (hfirst : ∀ m < n, ¬Closing q cs m) :
    Enclosed q (cs.take (n + 1)) := by
  have hlt : n < cs.length := (List.getElem?_eq_some_iff.1 h.quote).1
  have hlength : (cs.take (n + 1)).length = n + 1 := List.length_take_of_le hlt
  refine ⟨?_, ⟨n, ?_, ?_⟩, fun m hm => ?_⟩
  · rw [List.take_add_one, h.quote, List.mem_append]
    rintro (hmem | hmem)
    · exact h.line hmem
    · exact hn (List.mem_singleton.1 hmem).symm
  · rw [List.getElem?_take_of_lt (Nat.lt_succ_self n), h.quote]
  · rw [List.take_take, Nat.min_eq_left (Nat.le_succ n)]
    exact h.even
  · obtain ⟨hle, hunescaped⟩ := unescaped_take hm
    by_contra hne
    have hmn : m < n := by omega
    refine hfirst m hmn ⟨hunescaped, fun hmem => h.line ?_⟩
    exact (List.take_sublist_take_left (Nat.le_of_lt hmn)).subset hmem

lemma dangling_run (h : ∀ n, ¬Closing q cs n) :
    Dangling q (cs.take (run (· ≠ '\n') cs)) (cs.drop (run (· ≠ '\n') cs)) := by
  have htake : cs.take (run (· ≠ '\n') cs) = cs.takeWhile (· ≠ '\n') :=
    (List.prefix_iff_eq_take.1 (List.takeWhile_prefix _)).symm
  have hdrop : cs.drop (run (· ≠ '\n') cs) = cs.dropWhile (· ≠ '\n') := by
    nth_rewrite 2 [← List.takeWhile_append_dropWhile (p := (· ≠ '\n')) (l := cs)]
    exact List.drop_left' rfl
  have hline : '\n' ∉ cs.take (run (· ≠ '\n') cs) := by
    rw [htake]
    intro hmem
    simpa using List.mem_takeWhile_imp hmem
  refine ⟨hline, fun n hn => ?_, fun c hc => ?_⟩
  · obtain ⟨hlt, hunescaped⟩ := unescaped_take hn
    refine h n ⟨hunescaped, fun hmem => hline ?_⟩
    exact (List.take_sublist_take_left (Nat.le_of_lt hlt)).subset hmem
  · rw [hdrop] at hc
    have hstop := List.head?_dropWhile_not (· ≠ '\n') cs
    rw [Option.mem_def.1 hc] at hstop
    simpa using hstop

namespace Quotes

variable {c : Char} {r : Kind × Nat}

/-- A piece of another kind. -/
lemma of_mem {ks : List Kind} (hr : r.1 ∈ ks) (hks : ∀ p ∈ quotes, p.2.1 ∉ ks ∧ p.2.2 ∉ ks) : Quotes c cs r := by
  rintro q k u hmem (rfl | rfl)
  · exact absurd hr (hks _ hmem).1
  · exact absurd hr (hks _ hmem).2

lemma ite {p : Prop} [Decidable p] {a b : Kind × Nat} (ha : p → Quotes c cs a) (hb : Quotes c cs b) :
    Quotes c cs (if p then a else b) := by
  split
  · next hp => exact ha hp
  · exact hb

/-- A piece behind a quote. No other quote opens a literal of the same kind. -/
lemma closed {q : Char} {k u : Kind} (hmem : (q, k, u) ∈ quotes) (hc : c = q) :
    Quotes c cs (closed k u (quoted q cs)) := by
  have hsame : ∀ p ∈ quotes, ∀ p' ∈ quotes, ∀ l ∈ [p.2.1, p.2.2], l ∈ [p'.2.1, p'.2.2] → p = p' := by decide
  intro q' k' u' hmem' hkind
  have heq : (q, k, u) = (q', k', u') :=
    hsame _ hmem _ hmem' _ (closed_mem k u (quoted q cs)) (by simpa using hkind)
  rw [Prod.mk.injEq, Prod.mk.injEq] at heq
  obtain ⟨rfl, rfl, rfl⟩ := heq
  exact ⟨hc, rfl⟩

/-- The token that is made of the piece. -/
lemma literal {k : Kind} (h : Quotes c cs (k, n)) (offset : Nat) :
    Literal ⟨k, offset, c :: cs.take n⟩ (cs.drop n) := by
  intro q k' u hmem
  obtain ⟨hb, hn, hne⟩ := quotes_ne _ hmem
  by_cases hkind : k = k' ∨ k = u
  · obtain ⟨rfl, hr⟩ := h q k' u hmem hkind
    by_cases hclosing : ∃ m, Closing c cs m
    · obtain ⟨m, hm, hfirst⟩ := exists_first_closing hclosing
      rw [quoted_closed hb hn hm hfirst] at hr
      obtain ⟨rfl, rfl⟩ := Prod.mk.inj hr
      exact ⟨fun _ => ⟨_, rfl, enclosed_take hn hm hfirst⟩, fun hu => absurd hu hne⟩
    · have hnone : ∀ m, ¬Closing c cs m := not_exists.1 hclosing
      rw [quoted_unclosed hb hnone] at hr
      obtain ⟨rfl, rfl⟩ := Prod.mk.inj hr
      exact ⟨fun hk => absurd hk.symm hne, fun _ => ⟨_, rfl, dangling_run hnone⟩⟩
  · exact ⟨fun hk => absurd (.inl hk) hkind, fun hu => absurd (.inr hu) hkind⟩

end Quotes

end GoFront.Lexeme

namespace GoFront

open Lexeme

/-! ## Source files -/

namespace Source

lemma quotes_lexeme (c : Char) (cs : Text) : Quotes c cs (lexeme c cs) := by
  have hkind : ∀ k ∈ [Kind.newline, .whitespace, .lineComment], ∀ n, Quotes c cs (k, n) :=
    fun k hk n => .of_mem hk (by decide)
  have hnumber : Quotes c cs (number c cs) := .of_mem (number_mem c cs) (by decide)
  refine .ite (fun _ => hkind _ (by decide) _) (.ite (fun _ => hkind _ (by decide) _)
    (.ite (fun _ => hkind _ (by decide) _) (.ite (fun _ => .of_mem (blockComment_mem cs) (by decide)) ?_)))
  refine .ite (fun _ => hnumber) (.ite (fun _ => hnumber) (.ite (fun hc => .closed (by decide) hc)
    (.ite (fun hc => .closed (by decide) hc) ?_)))
  exact .ite (fun _ => .of_mem (closed_mem _ _ _) (by decide))
    (.ite (fun _ => .of_mem (word_mem c cs) (by decide)) (.of_mem (operator_mem (c :: cs)) (by decide)))

lemma literal_scan (s : State) (offset : Nat) (text : Text) : ∀ past,
    Throughout (fun _ t after => Literal t (after.flatMap Token.text)) past (scan s offset text) := by
  have hne : ∀ p ∈ quotes, Kind.semicolon ≠ p.2.1 ∧ Kind.semicolon ≠ p.2.2 := by decide
  refine throughout_scan (Q := Literal) (fun t after hk _ => ?_) (fun offset c cs k n hlex => ?_) s offset text
  · exact .of_ne (hk ▸ hne)
  · have hquotes : Quotes c cs (k, n) := hlex ▸ quotes_lexeme c cs
    exact hquotes.literal offset

end Source

/-! ## Templates -/

namespace Template

lemma quotes_lexeme (c : Char) (cs : Text) : Quotes c cs (lexeme c cs) := by
  have hkind : ∀ k ∈ [Kind.whitespace, .field, .dot, .variable, .badCharacter], ∀ n, Quotes c cs (k, n) :=
    fun k hk n => .of_mem hk (by decide)
  have hnumber : ∀ d ds n, Quotes c cs ((number d ds).1, n) :=
    fun d ds n => .of_mem (number_mem d ds) (by decide)
  refine .ite (fun _ => hkind _ (by decide) _) (.ite (fun _ => .of_mem (blockComment_mem cs) (by decide)) ?_)
  refine .ite (fun hc => .closed (by decide) hc) (.ite (fun hc => .closed (by decide) hc)
    (.ite (fun _ => .of_mem (closed_mem _ _ _) (by decide)) (.ite (fun _ => hnumber c cs _) ?_)))
  refine .ite (fun _ => .ite (fun _ => hnumber c cs _) ?_) (.ite (fun _ => .ite (fun _ => hkind _ (by decide) _)
    (hkind _ (by decide) _)) ?_)
  · cases cs with
    | nil => exact hkind _ (by decide) _
    | cons d ds => exact hnumber d ds _
  · exact .ite (fun _ => hkind _ (by decide) _) (.ite (fun _ => .of_mem (wordKind_mem _) (by decide))
      (.of_mem (operator_mem c cs.head?) (by decide)))

lemma literal_piece (d : Delimiters) (host : HostLanguage) (s : State) (offset : Nat) (c : Char) (cs : Text) :
    Literal ⟨(piece d host s c cs).kind, offset, c :: cs.take ((piece d host s c cs).length - 1)⟩
      (cs.drop ((piece d host s c cs).length - 1)) := by
  have hother : ∀ k ∈ [Kind.whitespace, .text, .leftDelimiter, .rightDelimiter], ∀ text after,
      Literal ⟨k, offset, text⟩ after := by
    intro k hk text after
    have hne : ∀ k ∈ [Kind.whitespace, .text, .leftDelimiter, .rightDelimiter],
        ∀ p ∈ quotes, k ≠ p.2.1 ∧ k ≠ p.2.2 := by
      decide
    exact .of_ne (hne k hk)
  unfold piece
  split
  · rcases actionPiece_cases d s.previous c cs with ⟨n, trims, -, heq⟩ | ⟨-, -, heq⟩
    · rw [heq]
      exact hother .rightDelimiter (by decide) _ _
    · rw [heq]
      exact (quotes_lexeme c cs).literal offset
  · have hturns := turns_textPiece d host s.trimAfter (c :: cs)
    refine hother _ ?_ _ _
    generalize (textPiece d host s.trimAfter (c :: cs)).inAction = mode at hturns
    generalize (textPiece d host s.trimAfter (c :: cs)).kind = k at hturns ⊢
    cases hturns with
    | host h => rcases h with rfl | rfl <;> decide
    | opens => decide

lemma literal_scan (d : Delimiters) (host : HostLanguage) (s : State) (offset : Nat) (text : Text) : ∀ past,
    Throughout (fun _ t after => Literal t (after.flatMap Token.text)) past
      ((scan d host s offset text).map Drawn.token) := by
  fun_induction scan d host s offset text with
  | case1 => exact fun past => throughout_nil
  | case2 s offset c cs p piece ih =>
    intro past
    have hpiece := literal_piece d host s offset c cs
    rw [← (covers_scan d host _ (offset + piece.size) (cs.drop (p.length - 1))).chars] at hpiece
    exact .cons hpiece (ih _)

end Template

/-- **A quoted literal ends with the first quote on its line in front of which backslashes come in pairs**, and if there
is none, it ends with its line. So among the tokens of source files and of templates the closed literals hold no line
end and no quote that is not escaped but the last, and behind those that are not closed the line ends. -/
theorem literals_closed :
    (∀ q ∈ ['"', '\''], ∀ cs,
      ((quoted q cs).1 = true ↔ ∃ n, Closing q cs n) ∧
      (∀ n, Closing q cs n → (∀ m < n, ¬Closing q cs m) → (quoted q cs).2 = n + 1) ∧
      ((quoted q cs).1 = false → (quoted q cs).2 = run (· ≠ '\n') cs)) ∧
    (∀ text before t after, Source.tokens text = before ++ t :: after → Literal t (after.flatMap Token.text)) ∧
    ∀ d host offset text before t after, Template.tokens d host offset text = before ++ t :: after →
      Literal t (after.flatMap Token.text) := by
  refine ⟨fun q hq cs => ?_, fun text => Source.literal_scan {} 0 text [],
    fun d host offset text => Template.literal_scan d host {} offset text []⟩
  have hplain : ∀ q ∈ ['"', '\''], q ≠ '\\' ∧ q ≠ '\n' := by simp
  obtain ⟨hb, hn⟩ := hplain q hq
  by_cases hclosing : ∃ n, Closing q cs n
  · obtain ⟨n, hclose, hfirst⟩ := exists_first_closing hclosing
    have hquoted := quoted_closed hb hn hclose hfirst
    refine ⟨by simp [hquoted, hclosing], fun m hm hmin => ?_, by simp [hquoted]⟩
    rw [quoted_closed hb hn hm hmin]
  · have hquoted := quoted_unclosed hb (not_exists.1 hclosing)
    refine ⟨by simp [hquoted, hclosing], fun m hm _ => absurd ⟨m, hm⟩ hclosing, fun _ => by rw [hquoted]⟩

theorem literals_closed_escaped : '"' ∈ ['"', '\''] ∧ Closing '"' "a\\\"b\\\\\"c".toList 6 ∧
    (∀ m < 6, ¬Closing '"' "a\\\"b\\\\\"c".toList m) ∧ (quoted '"' "a\\\"b\\\\\"c".toList).2 = 7 := by
  have hclosing : Closing '"' "a\\\"b\\\\\"c".toList 6 := by decide
  have hfirst : ∀ m < 6, ¬Closing '"' "a\\\"b\\\\\"c".toList m := by decide
  exact ⟨by decide, hclosing, hfirst, (literals_closed.1 '"' (by decide) _).2.1 6 hclosing hfirst⟩

end GoFront
