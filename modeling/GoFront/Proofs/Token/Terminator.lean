import GoFront.Proofs.Run
import GoFront.Proofs.Token.Modes
import GoFront.Proofs.Token.Tiling
import Mathlib.Data.List.TakeWhile

/-!
# Where semicolons are supplied

A statement of the source language ends at a semicolon, and most semicolons are not written: the lexer supplies them.
This module says where, by looking at the tokens alone. The kinds of the significant tokens so far, last first, are the
`trail`; it decides whether a statement can end (`EndsStatement`) and which brackets are open (`openGroups`).

The main statement is `tokens_terminated`: a semicolon that is not written stands for a line end, behind a block comment
with a line end in it, or at the end of the text, and it stands at all places of these three forms where a statement
can end. The lexer decides this by the few facts it keeps; `State.Recalls` says that they are the facts of the trail.
-/

namespace GoFront.Source

/-! ## What the tokens so far decide -/

/-- Tokens a statement can end with. -/
def terminators : List Kind := [
  .identifier, .intNumber, .floatNumber, .imaginaryNumber,
  .string, .rawString, .rune, .unterminatedString, .unterminatedRawString, .unterminatedRune,
  .breakKeyword, .continueKeyword, .fallthroughKeyword, .returnKeyword,
  .increment, .decrement, .rightParen, .rightBracket, .rightBrace]

/-- Keywords behind which a parenthesis opens a group of declarations. -/
def groupKeywords : List Kind := [.varKeyword, .constKeyword, .typeKeyword, .importKeyword]

/-- The kinds of the tokens that are not trivia, last first. -/
def trail (ts : List Token) : List Kind := ((ts.map Token.kind).filter fun k => !k.isTrivia).reverse

/-- The brackets left open by tokens of the given kinds, last first; innermost bracket first. A closing bracket closes
the innermost one, whatever its form. -/
def openGroups : List Kind → List Group
  | [] => []
  | .leftParen :: ks => (if ks.head?.any (· ∈ groupKeywords) then .declarations else .paren) :: openGroups ks
  | .leftBracket :: ks => .bracket :: openGroups ks
  | .leftBrace :: ks => .brace :: openGroups ks
  | .rightParen :: ks | .rightBracket :: ks | .rightBrace :: ks => (openGroups ks).tail
  | _ :: ks => openGroups ks

/-- The closest significant token can end a statement. -/
def EndsStatement (before : List Token) : Prop := ∃ k ∈ (trail before).head?, k ∈ terminators

/-- A line end here ends a statement: one can end, and the innermost open bracket is neither an ordinary parenthesis nor
a square bracket. -/
def LineEnds (before : List Token) : Prop :=
  EndsStatement before ∧ ∀ g ∈ (openGroups (trail before)).head?, g ≠ .paren ∧ g ≠ .bracket

/-- Tokens that can go on over a line end. -/
def multiline : List Kind := [.blockComment, .unterminatedComment, .rawString, .unterminatedRawString]

/-- What holds of a token between the tokens before it and the tokens behind it. -/
structure Placed (before : List Token) (t : Token) (after : List Token) : Prop where
  /-- A semicolon that is not written is a line end, or has no characters and follows a block comment with a line end in
  it or all other tokens; a statement can end there. -/
  supplied : t.kind = .semicolon → t.text ≠ [';'] →
    t.text = ['\n'] ∧ LineEnds before ∨
    t.text = [] ∧ (∃ c ∈ before.getLast?, c.kind = .blockComment ∧ '\n' ∈ c.text) ∧ LineEnds before ∨
    t.text = [] ∧ after = [] ∧ EndsStatement before
  /-- A line end inside no other token is a token: a semicolon where it ends a statement, else a newline. -/
  newline : '\n' ∈ t.text →
    t.text = ['\n'] ∧ (t.kind = .semicolon ∧ LineEnds before ∨ t.kind = .newline ∧ ¬LineEnds before) ∨
    t.kind ∈ multiline
  /-- A block comment with a line end in it is followed by a semicolon without characters where a line end would end a
  statement. -/
  comment : t.kind = .blockComment → '\n' ∈ t.text → LineEnds before →
    ∃ rest, after = ⟨.semicolon, t.stop, []⟩ :: rest
  /-- Other tokens than semicolons have characters. -/
  nonempty : t.text = [] → t.kind = .semicolon

/-- The semicolons among the tokens of a text are the written ones and those that the end of a statement calls for. -/
structure Terminated (text : Text) (ts : List Token) : Prop where
  /-- All characters of the text are in the tokens, so that nothing is said of less than the whole text. -/
  covers : Token.Covers 0 text ts
  /-- Every token is placed as it should be. -/
  placed : ∀ before t after, ts = before ++ t :: after → Placed before t after
  /-- Where a statement can end at the end of the text, one semicolon without characters follows, whatever is open. -/
  finish : ∀ before after, ts = before ++ after → before.flatMap Token.text = text → EndsStatement before →
    after = [⟨.semicolon, text.size, []⟩]

/-! ## Trails -/

@[simp] lemma trail_nil : trail [] = [] := rfl

lemma trail_append_trivia {before : List Token} {t : Token} (h : t.kind.isTrivia = true) :
    trail (before ++ [t]) = trail before := by
  simp [trail, h]

lemma trail_append_significant {before : List Token} {t : Token} (h : t.kind.isTrivia = false) :
    trail (before ++ [t]) = t.kind :: trail before := by
  simp [trail, h]

/-- No statement can end behind a semicolon. -/
lemma not_endsStatement_of_semicolon {before : List Token} {t : Token} (h : t.kind = .semicolon) :
    ¬EndsStatement (before ++ [t]) := by
  have htrail : trail (before ++ [t]) = .semicolon :: trail before := by
    rw [trail_append_significant (by rw [h]; rfl), h]
  rintro ⟨k, hk, hmem⟩
  rw [htrail, List.head?_cons, Option.mem_some_iff] at hk
  subst hk
  exact absurd hmem (by decide)

/-! ## What the lexer remembers -/

lemma canEnd_iff {k : Kind} : canEnd k = true ↔ k ∈ terminators := by cases k <;> decide

lemma opensDeclarations_iff {k : Kind} : opensDeclarations k = true ↔ k ∈ groupKeywords := by cases k <;> decide

/-- The lexer remembers what the trail decides. -/
structure State.Recalls (s : State) (ks : List Kind) : Prop where
  /-- Whether a statement can end. -/
  pending : s.pending = true ↔ ∃ k ∈ ks.head?, k ∈ terminators
  /-- The open brackets. -/
  groups : s.groups = openGroups ks
  /-- Whether a parenthesis would open a group of declarations. -/
  declares : opensDeclarations s.last = ks.head?.any (· ∈ groupKeywords)

namespace State.Recalls

variable {s : State} {ks : List Kind} {before : List Token}

lemma initial : State.Recalls {} [] := ⟨by simp, rfl, rfl⟩

lemma pending_iff (h : s.Recalls (trail before)) : s.pending = true ↔ EndsStatement before := h.pending

lemma lineEnds_iff (h : s.Recalls (trail before)) : s.lineEnds = true ↔ LineEnds before := by
  rw [LineEnds, ← h.pending_iff, ← h.groups, State.lineEnds, Bool.and_eq_true]
  refine and_congr_right fun _ => ?_
  rcases s.groups with _ | ⟨g, gs⟩
  · simp
  · cases g <;> simp

/-- The brackets open behind a token. -/
lemma groupsAfter (h : s.Recalls ks) (k : Kind) : s.groupsAfter k = openGroups (k :: ks) := by
  cases k with
  | leftParen => simp only [State.groupsAfter, openGroups, h.groups, h.declares]
  | _ => simp only [State.groupsAfter, openGroups, h.groups]

/-- A significant token goes to the front of the trail. -/
lemma track (h : s.Recalls ks) (k : Kind) : (s.track k).Recalls (k :: ks) where
  pending := by simp [State.track, canEnd_iff]
  groups := h.groupsAfter k
  declares := by
    rw [Bool.eq_iff_iff]
    simp [State.track, opensDeclarations_iff]

/-- So does a supplied semicolon: it comes behind a token that can end a statement, which is no keyword that opens a
group. -/
lemma supplied (h : s.Recalls ks) (hp : s.pending = true) : s.supplied.Recalls (.semicolon :: ks) where
  pending := by simp [State.supplied, terminators]
  groups := h.groups
  declares := by
    obtain ⟨k, hk, hmem⟩ := h.pending.1 hp
    have hdisjoint : ∀ k ∈ terminators, k ∉ groupKeywords := by decide
    rw [State.supplied, h.declares, Option.mem_def.1 hk]
    simpa [groupKeywords] using hdisjoint k hmem

/-- A token of the text: trivia changes nothing. -/
lemma append (h : s.Recalls (trail before)) (t : Token) :
    (if t.kind.isTrivia then s else s.track t.kind).Recalls (trail (before ++ [t])) := by
  split
  · next ht =>
    rw [trail_append_trivia ht]
    exact h
  · next ht =>
    rw [trail_append_significant (Bool.eq_false_iff.2 ht)]
    exact h.track t.kind

lemma append_supplied (h : s.Recalls (trail before)) (hl : s.lineEnds = true) {t : Token} (ht : t.kind = .semicolon) :
    s.supplied.Recalls (trail (before ++ [t])) := by
  rw [trail_append_significant (by rw [ht]; rfl), ht]
  exact h.supplied (h.pending_iff.2 (h.lineEnds_iff.1 hl).1)

end State.Recalls

end GoFront.Source

/-! ## Tokens that stay on their line -/

namespace GoFront.Lexeme

/-- The first characters of a text hold no line end. -/
def OneLine (cs : Text) (n : Nat) : Prop := '\n' ∉ cs.take n

variable {isMarker : Char → Bool} {k : Kind} {n : Nat} {cs : Text}

namespace OneLine

lemma zero (cs : Text) : OneLine cs 0 := by simp [OneLine]

lemma succ {c : Char} (hc : c ≠ '\n') (h : OneLine cs n) : OneLine (c :: cs) (n + 1) := by
  simpa [OneLine, hc.symm] using h

lemma add {m : Nat} (hn : OneLine cs n) (hm : OneLine (cs.drop n) m) : OneLine cs (n + m) := by
  rw [OneLine, List.take_add, List.mem_append]
  exact not_or.2 ⟨hn, hm⟩

/-- One more character, and more behind it. -/
lemma next {m : Nat} {c : Char} {r : Text} (hn : OneLine cs n) (hr : cs.drop n = c :: r) (hc : c ≠ '\n')
    (hm : OneLine r m) : OneLine cs (n + 1 + m) := by
  rw [Nat.add_assoc, Nat.add_comm 1]
  exact hn.add (hr ▸ hm.succ hc)

lemma run {p : Char → Bool} (h : p '\n' = false) (cs : Text) : OneLine cs (run p cs) := by
  rw [OneLine, Lexeme.run, ← List.prefix_iff_eq_take.1 (List.takeWhile_prefix p)]
  intro hmem
  exact absurd (List.mem_takeWhile_imp hmem) (by simp [h])

lemma exponent (h : isMarker '\n' = false) (cs : Text) : OneLine cs (exponent isMarker cs) := by
  cases cs with
  | nil => exact zero _
  | cons m cs =>
    simp only [Lexeme.exponent]
    split
    · next hm =>
      have hne : m ≠ '\n' := by
        rintro rfl
        simp [h] at hm
      cases cs with
      | nil => exact (zero _).succ hne
      | cons s cs =>
        dsimp only
        split
        · next hs =>
          have hsign : s ≠ '\n' := by
            rintro rfl
            simp at hs
          rw [Nat.add_comm]
          exact ((run rfl cs).succ hsign).succ hne
        · rw [Nat.add_comm]
          exact (run rfl _).succ hne
    · exact zero _

lemma imaginary (h : OneLine cs n) : OneLine cs (imaginary k n cs).2 := by
  unfold Lexeme.imaginary
  split
  · next hi => exact h.next hi (by decide) (zero _)
  · exact h

lemma scaled (hm : isMarker '\n' = false) (h : OneLine cs n) : OneLine cs (scaled isMarker k n cs).2 := by
  have he := exponent hm (cs.drop n)
  unfold Lexeme.scaled
  split
  · exact h.imaginary
  · next heq =>
    rw [heq] at he
    exact (h.add he).imaginary

lemma hexNumber {c : Char} (hc : c ≠ '\n') : OneLine (c :: cs) (hexNumber (c :: cs)).2 := by
  have hdigits : OneLine (c :: cs) (1 + Lexeme.run isHexPart cs) := by
    rw [Nat.add_comm]
    exact (run rfl cs).succ hc
  unfold Lexeme.hexNumber
  dsimp only [List.drop_succ_cons, List.drop_zero]
  split
  · next r hr => exact (hdigits.next hr (by decide) (run rfl r)).scaled rfl
  · exact hdigits.scaled rfl

lemma decimalNumber (cs : Text) : OneLine cs (decimalNumber cs).2 := by
  have hdigits : OneLine cs (Lexeme.run isDigitPart cs) := run rfl cs
  unfold Lexeme.decimalNumber
  dsimp only
  split
  · exact hdigits.scaled rfl
  · next r _ hr => exact (hdigits.next hr (by decide) (run rfl r)).scaled rfl
  · exact hdigits.scaled rfl

lemma number (first : Char) (cs : Text) : OneLine cs (number first cs).2 := by
  have hradix : ∀ c r, c ≠ '\n' →
      OneLine (c :: r) (Lexeme.imaginary .intNumber (1 + Lexeme.run isDigitPart r) (c :: r)).2 := by
    intro c r hc
    rw [Nat.add_comm]
    exact ((run rfl r).succ hc).imaginary
  unfold Lexeme.number
  split
  · exact (run rfl cs).scaled rfl
  · split
    · split
      iterate 2 exact hexNumber (by decide)
      iterate 4 exact hradix _ _ (by decide)
      exact decimalNumber _
    · exact decimalNumber _

lemma quoted {q : Char} (hq : q ≠ '\n') (cs : Text) : OneLine cs (quoted q cs).2 := by
  fun_induction Lexeme.quoted q cs with
  | case1 => exact zero _
  | case2 => exact zero _
  | case3 => exact (zero _).succ (by decide)
  | case4 => exact (zero _).succ (by decide)
  | case5 _ _ hd _ _ ih => exact (ih.succ hd).succ (by decide)
  | case6 => exact (zero _).succ hq
  | case7 _ _ hc _ _ _ ih => exact ih.succ hc

end OneLine

end GoFront.Lexeme

namespace GoFront.Source

open Lexeme

/-- The spelling of an operator that stands at the front of a text. -/
lemma spelling?_of_operator? {t : Text} {k : Kind} {n : Nat} (h : operator? t = some (k, n)) :
    k ∈ Kind.sourceOperators ∧ ∃ word, k.spelling? = some word ∧ word.isPrefixOf t = true ∧ n = word.length - 1 := by
  obtain ⟨op, hop, hsome⟩ := List.exists_of_findSome?_eq_some h
  split at hsome
  · next word hword =>
    split at hsome
    · next hfront =>
      simp only [Option.some.injEq, Prod.mk.injEq] at hsome
      obtain ⟨rfl, rfl⟩ := hsome
      exact ⟨hop, word, hword, hfront, rfl⟩
    · cases hsome
  · cases hsome

lemma operator_mem (t : Text) :
    ((operator? t).getD (.badCharacter, 0)).1 ∈ .badCharacter :: Kind.sourceOperators := by
  cases h : operator? t with
  | none => exact List.mem_cons_self
  | some r => exact List.mem_cons_of_mem _ (spelling?_of_operator? (k := r.1) (n := r.2) h).1

/-- Operators are written on one line, and the semicolon alone is written as one. -/
lemma operators_spelling : ∀ k ∈ Kind.sourceOperators, ∀ word, k.spelling? = some word →
    word ≠ [] ∧ '\n' ∉ word ∧ k ≠ .newline ∧ (k = .semicolon → word = [';']) := by
  decide

/-- What the piece of text that starts with a character is like if it goes on over no line end. -/
structure Plain (c : Char) (cs : Text) (r : Kind × Nat) : Prop where
  /-- It holds no line end behind its first character. -/
  line : OneLine cs r.2
  /-- It is no line end. -/
  kind : r.1 ≠ .newline
  /-- It is a semicolon only if it is written as one. -/
  semicolon : r.1 = .semicolon → c = ';' ∧ r.2 = 0

lemma Plain.of_mem {c : Char} {cs : Text} {r : Kind × Nat} {ks : List Kind} (hline : OneLine cs r.2) (hr : r.1 ∈ ks)
    (hks : Kind.newline ∉ ks ∧ Kind.semicolon ∉ ks) : Plain c cs r where
  line := hline
  kind h := hks.1 (h ▸ hr)
  semicolon h := absurd (h ▸ hr) hks.2

lemma word_mem (c : Char) (cs : Text) : (word c cs).1 ∈ .identifier :: Kind.sourceKeywords := by
  unfold word
  dsimp only
  cases h : Kind.ofKeyword? (c :: cs.take (run isNamePart cs)) with
  | none => exact List.mem_cons_self
  | some k =>
    unfold Kind.ofKeyword? Kind.spelled? at h
    have hmem : k ∈ Kind.sourceKeywords := List.mem_of_find?_eq_some h
    exact List.mem_cons_of_mem _ hmem

lemma plain_word (c : Char) (cs : Text) : Plain c cs (word c cs) :=
  .of_mem (.run (by decide) cs) (word_mem c cs) (by decide)

lemma plain_operator (c : Char) (cs : Text) : Plain c cs ((operator? (c :: cs)).getD (.badCharacter, 0)) := by
  cases h : operator? (c :: cs) with
  | none => exact .of_mem (.zero _) (List.mem_singleton_self _) (by decide)
  | some r =>
    obtain ⟨k, n⟩ := r
    obtain ⟨hmem, word, hword, hfront, rfl⟩ := spelling?_of_operator? h
    obtain ⟨hne, hline, hnewline, hsemi⟩ := operators_spelling k hmem word hword
    obtain ⟨d, ds, rfl⟩ := List.exists_cons_of_ne_nil hne
    obtain ⟨rfl, hds⟩ := List.cons_prefix_cons.1 (List.isPrefixOf_iff_prefix.1 hfront)
    refine ⟨?_, hnewline, fun hk => ?_⟩
    · rw [Option.getD_some, List.length_cons, Nat.add_sub_cancel, OneLine, ← List.prefix_iff_eq_take.1 hds]
      exact fun hmem => hline (List.mem_cons_of_mem _ hmem)
    · obtain ⟨rfl, rfl⟩ := List.cons.inj (hsemi hk)
      exact ⟨rfl, rfl⟩

/-- A token goes on over a line end only if it is a comment or a raw literal. -/
lemma lexeme_plain {c : Char} {cs : Text} (hc : c ≠ '\n') :
    (lexeme c cs).1 ∈ multiline ∨ Plain c cs (lexeme c cs) := by
  have hclosed : ∀ q k u, q ≠ '\n' → Kind.newline ∉ [k, u] ∧ Kind.semicolon ∉ [k, u] →
      Plain c cs (closed k u (quoted q cs)) := by
    intro q k u hq hks
    exact .of_mem (.quoted hq cs) (closed_mem k u _) hks
  have hnumber : Plain c cs (number c cs) := .of_mem (.number c cs) (number_mem c cs) (by decide)
  have hsignificant : (significant c cs).1 ∈ multiline ∨ Plain c cs (significant c cs) := by
    unfold significant
    split
    · exact .inr hnumber
    split
    · exact .inr hnumber
    split
    · exact .inr (hclosed _ _ _ (by decide) (by decide))
    split
    · exact .inr (hclosed _ _ _ (by decide) (by decide))
    split
    · left
      unfold closed
      dsimp only
      split <;> decide
    split
    · exact .inr (plain_word c cs)
    · exact .inr (plain_operator c cs)
  unfold lexeme
  rw [if_neg hc]
  split
  · exact .inr ⟨.run (by decide) cs, by simp, by simp⟩
  split
  · exact .inr ⟨.run (by decide) cs, by simp, by simp⟩
  split
  · left
    unfold blockComment
    split <;> simp [multiline]
  · exact hsignificant

/-! ## One piece of text -/

/-- What the pieces of a text are like: line ends, those that may go on over a line end, and those that stay on their
line. -/
inductive Shape : Kind → Text → Prop
  /-- A line end. -/
  | newline : Shape .newline ['\n']
  /-- A comment or a raw literal. -/
  | multiline {k : Kind} {c : Char} {cs : Text} (hk : k ∈ multiline) : Shape k (c :: cs)
  /-- Any other piece. -/
  | plain {k : Kind} {c : Char} {cs : Text} (hline : '\n' ∉ c :: cs) (hk : k ≠ .newline)
    (hsemi : k = .semicolon → c :: cs = [';']) : Shape k (c :: cs)

lemma Shape.eq_newline {t : Text} (h : Shape .newline t) : t = ['\n'] := by
  cases h with
  | newline => rfl
  | multiline hk => exact absurd hk (by decide)
  | plain _ hk => exact absurd rfl hk

/-- The lexer cuts off a piece of one of these shapes. -/
lemma lexeme_shape {c : Char} {cs : Text} {k : Kind} {n : Nat} (h : lexeme c cs = (k, n)) :
    Shape k (c :: cs.take n) := by
  by_cases hc : c = '\n'
  · rw [lexeme, if_pos hc] at h
    obtain ⟨rfl, rfl⟩ := Prod.mk.inj h
    rw [hc, List.take_zero]
    exact .newline
  · have hcases : (lexeme c cs).1 ∈ multiline ∨ Plain c cs (lexeme c cs) := lexeme_plain hc
    rw [h] at hcases
    rcases hcases with hk | ⟨hline, hk, hsemi⟩
    · exact .multiline hk
    · refine .plain (List.not_mem_cons_of_ne_of_not_mem (Ne.symm hc) hline) hk fun hs => ?_
      obtain ⟨rfl, rfl⟩ := hsemi hs
      rw [List.take_zero]

section Pieces

variable {past after : List Token} {offset : Nat} {text : Text} {k : Kind}

/-- A line end that ends a statement. -/
lemma placed_supplied (h : LineEnds past) : Placed past ⟨.semicolon, offset, ['\n']⟩ after where
  supplied _ _ := .inl ⟨rfl, h⟩
  newline _ := .inl ⟨rfl, .inl ⟨rfl, h⟩⟩
  comment hk := by cases hk
  nonempty ht := by cases ht

/-- A line end that ends none. -/
lemma placed_newline (h : ¬LineEnds past) : Placed past ⟨.newline, offset, ['\n']⟩ after where
  supplied hk := by cases hk
  newline _ := .inl ⟨rfl, .inr ⟨rfl, h⟩⟩
  comment hk := by cases hk
  nonempty ht := by cases ht

/-- A block comment that a semicolon follows. -/
lemma placed_comment (ht : text ≠ []) :
    Placed past ⟨.blockComment, offset, text⟩ (⟨.semicolon, offset + text.size, []⟩ :: after) where
  supplied hk := by cases hk
  newline _ := .inr List.mem_cons_self
  comment _ _ _ := ⟨after, rfl⟩
  nonempty h := absurd h ht

/-- The semicolon behind it. -/
lemma placed_behind_comment {start : Nat} (hn : '\n' ∈ text) (h : LineEnds (past ++ [⟨.blockComment, start, text⟩])) :
    Placed (past ++ [⟨.blockComment, start, text⟩]) ⟨.semicolon, offset, []⟩ after where
  supplied _ _ := .inr (.inl ⟨rfl, ⟨_, List.getLast?_concat, rfl, hn⟩, h⟩)
  newline hmem := by cases hmem
  comment hk := by cases hk
  nonempty _ := rfl

/-- The semicolon at the end of the text. -/
lemma placed_finish (h : EndsStatement past) : Placed past ⟨.semicolon, offset, []⟩ [] where
  supplied _ _ := .inr (.inr ⟨rfl, rfl, h⟩)
  newline hmem := by cases hmem
  comment hk := by cases hk
  nonempty _ := rfl

/-- Any other piece of text. -/
lemma placed_piece (h : Shape k text) (hnewline : k = .newline → ¬LineEnds past)
    (hcomment : k = .blockComment → '\n' ∈ text → ¬LineEnds past) : Placed past ⟨k, offset, text⟩ after := by
  cases h with
  | newline => exact placed_newline (hnewline rfl)
  | multiline hk =>
    refine ⟨fun hsemi => ?_, fun _ => .inr hk, fun hc hn hl => absurd hl (hcomment hc hn), nofun⟩
    obtain rfl : k = .semicolon := hsemi
    exact absurd hk (by decide)
  | plain hline _ hsemi =>
    exact ⟨fun hk ht => absurd (hsemi hk) ht, fun hn => absurd hn hline, fun _ hn => absurd hn hline, nofun⟩

end Pieces

/-! ## The whole text -/

/-- What the lexer does with a piece of text: it supplies a semicolon for a line end or behind a comment, or takes the
piece as a token and goes on. -/
lemma State.step_cases (s : State) (offset : Nat) (kind : Kind) (text : Text) :
    (kind = .newline ∧ s.lineEnds = true ∧ s.step offset kind text = ([⟨.semicolon, offset, text⟩], s.supplied)) ∨
    (kind = .blockComment ∧ '\n' ∈ text ∧ s.lineEnds = true ∧ s.step offset kind text =
      ([⟨kind, offset, text⟩, ⟨.semicolon, offset + text.size, []⟩], s.supplied)) ∨
    ((kind = .newline → ¬s.lineEnds = true) ∧ (kind = .blockComment → '\n' ∈ text → ¬s.lineEnds = true) ∧
      s.step offset kind text = ([⟨kind, offset, text⟩], if kind.isTrivia then s else s.track kind)) := by
  have hline : text.hasNewline = true ↔ '\n' ∈ text := List.contains_iff_mem
  by_cases hn : kind = .newline ∧ s.lineEnds = true
  · exact .inl ⟨hn.1, hn.2, by simp [State.step, hn]⟩
  by_cases hb : kind = .blockComment ∧ '\n' ∈ text ∧ s.lineEnds = true
  · exact .inr (.inl ⟨hb.1, hb.2.1, hb.2.2, by simp [State.step, hb, hline]⟩)
  refine .inr (.inr ⟨fun hk hl => hn ⟨hk, hl⟩, fun hk ht hl => hb ⟨hk, ht, hl⟩, ?_⟩)
  have hskip : ¬(kind = .blockComment && text.hasNewline && s.lineEnds) = true := by
    simpa [hline] using hb
  rw [State.step, if_neg (by simpa using hn), if_neg hskip]
  split <;> rfl

/-- What holds of supplied semicolons and of the pieces of a text, given the characters behind them, holds of all
tokens. -/
lemma throughout_scan {Q : Token → Text → Prop}
    (hsemicolon : ∀ t after, t.kind = .semicolon → t.text = [] ∨ t.text = ['\n'] → Q t after)
    (hpiece : ∀ offset c cs k n, lexeme c cs = (k, n) → Q ⟨k, offset, c :: cs.take n⟩ (cs.drop n))
    (s : State) (offset : Nat) (text : Text) :
    ∀ past, Throughout (fun _ t after => Q t (after.flatMap Token.text)) past (scan s offset text) := by
  fun_induction scan s offset text with
  | case1 s offset hp => exact fun past => .cons (hsemicolon _ _ rfl (.inl rfl)) throughout_nil
  | case2 s offset hp => exact fun past => throughout_nil
  | case3 s offset c cs kind n hlex piece ts s' hstep ih =>
    intro past
    have hrest : (scan s' (offset + piece.size) (cs.drop n)).flatMap Token.text = cs.drop n := (covers_scan _ _ _).chars
    have hfirst : Q ⟨kind, offset, piece⟩ (cs.drop n) := hpiece offset c cs kind n hlex
    rcases s.step_cases offset kind piece with ⟨rfl, -, heq⟩ | ⟨rfl, -, -, heq⟩ | ⟨-, -, heq⟩
    all_goals
      rw [hstep, Prod.mk.injEq] at heq
      obtain ⟨rfl, rfl⟩ := heq
    · exact .cons (hsemicolon _ _ rfl (.inr (lexeme_shape hlex).eq_newline)) (ih _)
    · exact .cons (by simpa [hrest] using hfirst) (.cons (hsemicolon _ _ rfl (.inl rfl)) (ih _))
    · exact .cons (by simpa [hrest] using hfirst) (ih _)

/-- From a state that remembers the tokens so far, every token is placed as it should be, and a statement that can end
at the end is ended. -/
lemma placed_scan (s : State) (offset : Nat) (text : Text) : ∀ past, s.Recalls (trail past) →
    Throughout Placed past (scan s offset text) ∧ ¬EndsStatement (past ++ scan s offset text) := by
  fun_induction scan s offset text with
  | case1 s offset hp =>
    intro past h
    exact ⟨.cons (placed_finish (h.pending_iff.1 hp)) throughout_nil, not_endsStatement_of_semicolon rfl⟩
  | case2 s offset hp =>
    intro past h
    rw [List.append_nil]
    exact ⟨throughout_nil, fun hends => hp (h.pending_iff.2 hends)⟩
  | case3 s offset c cs kind n hlex piece ts s' hstep ih =>
    intro past h
    have hshape : Shape kind piece := lexeme_shape hlex
    rcases s.step_cases offset kind piece with ⟨rfl, hl, heq⟩ | ⟨rfl, hn, hl, heq⟩ | ⟨hnewline, hcomment, heq⟩
    all_goals
      rw [hstep, Prod.mk.injEq] at heq
      obtain ⟨rfl, rfl⟩ := heq
    · have hplaced : Placed past ⟨.semicolon, offset, piece⟩ (scan s.supplied (offset + piece.size) (cs.drop n)) := by
        rw [hshape.eq_newline]
        exact placed_supplied (h.lineEnds_iff.1 hl)
      obtain ⟨hrest, hend⟩ := ih _ (h.append_supplied hl (t := ⟨.semicolon, offset, piece⟩) rfl)
      exact ⟨.cons hplaced hrest, by simpa using hend⟩
    · -- a comment is trivia, so what the state remembers holds before and behind it
      have hbehind : s.Recalls (trail (past ++ [⟨.blockComment, offset, piece⟩])) := by
        rw [trail_append_trivia rfl]
        exact h
      obtain ⟨hrest, hend⟩ := ih _ (hbehind.append_supplied hl (t := ⟨.semicolon, offset + piece.size, []⟩) rfl)
      have hsupplied := hbehind.lineEnds_iff.1 hl
      exact ⟨.cons (placed_comment (List.cons_ne_nil _ _)) (.cons (placed_behind_comment hn hsupplied) hrest),
        by simpa using hend⟩
    · obtain ⟨hrest, hend⟩ := ih _ (h.append ⟨kind, offset, piece⟩)
      rw [h.lineEnds_iff] at hnewline hcomment
      exact ⟨.cons (placed_piece hshape hnewline hcomment) hrest, by simpa using hend⟩

/-- **Semicolons are supplied where statements end.** -/
theorem tokens_terminated (text : Text) : Terminated text (tokens text) := by
  obtain ⟨hplaced, hend⟩ : Throughout Placed [] (tokens text) ∧ ¬EndsStatement (tokens text) :=
    placed_scan {} 0 text [] .initial
  have hcovers := covers_tokens text
  refine ⟨hcovers, hplaced, fun before after heq hchars hends => ?_⟩
  have hempty : ∀ t ∈ after, t.text = [] := by
    have := hcovers.chars
    rw [heq, List.flatMap_append, hchars, List.append_right_eq_self, List.flatMap_eq_nil_iff] at this
    exact this
  cases after with
  | nil =>
    rw [heq, List.append_nil] at hend
    exact absurd hends hend
  | cons t rest =>
    have hkind : t.kind = .semicolon := (hplaced before t rest heq).nonempty (hempty t List.mem_cons_self)
    have hstart : t.start = text.size := by
      have htile : Token.Tile (0 + Text.size (before.flatMap Token.text)) (t :: rest) := (heq ▸ hcovers.tile).behind
      rw [hchars, Nat.zero_add] at htile
      exact htile.start_eq
    have hsemi : t = ⟨.semicolon, text.size, []⟩ := by
      rw [← hkind, ← hstart, ← hempty t List.mem_cons_self]
    cases rest with
    | nil => rw [hsemi]
    | cons u rest =>
      -- a second semicolon would need a statement to end behind the first
      have hplace := hplaced (before ++ [t]) u rest (by simpa using heq)
      have hu := hempty u (by simp)
      have hnot : ¬EndsStatement (before ++ [t]) := not_endsStatement_of_semicolon hkind
      rcases hplace.supplied (hplace.nonempty hu) (by simp [hu]) with h | h | h
      · exact absurd h.2.1 hnot
      · exact absurd h.2.2.1 hnot
      · exact absurd h.2.2 hnot

end GoFront.Source
