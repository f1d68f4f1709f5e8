import GoFront.Parse.Source.File
import GoFront.Parse.Template.Document
import GoFront.Proofs.Token.Terminator
import GoFront.Proofs.Tree.Report

/-!
# Errors follow the lines

An error is reported at the next word if that stands on the line of the last one, and else right behind the last one.
Parsers do not look at the text to tell: they go by the flags of the words, and these go by the kinds of the blanks and
comments in between. A line end is seen in a word, in a newline, and in a comment that is closed. It is overlooked in
the blanks of a template, where a line end is a blank like any other, and in a comment that is never closed; behind
that there is at most the semicolon that ends a source file.

`Words.flags_group` says what the flags are, `breaksBetween_iff` what the text is, and the rest compares the two.
-/

namespace GoFront

/-- A line ends between two offsets of a text. -/
def Text.BreaksBetween (t : Text) (start stop : Nat) : Prop := ∃ piece, t.slice? start stop = some piece ∧ '\n' ∈ piece

namespace Word

/-- Blanks and comments in which line ends are overlooked. -/
def overlooked : List Kind := [.whitespace, .unterminatedComment]

/-- From the word `u` to the word `w` there are line ends, and all of them are overlooked. -/
structure Overlooks (u w : Word) : Prop where
  /-- There is none in `u`. -/
  word : '\n' ∉ u.token.text
  /-- There is one before `w`. -/
  gap : ∃ t ∈ w.gap, '\n' ∈ t.text
  /-- Those before `w` are overlooked. -/
  kinds : ∀ t ∈ w.gap, '\n' ∈ t.text → t.kind ∈ overlooked

end Word

namespace Parser

/-- Some of the words are taken, and the others are still to come. -/
def State.StandsIn (s : State) (ws : List Word) : Prop := ∃ taken, ws = taken ++ s.rest ∧ s.previous = taken.getLast?

/-- Where an error is placed behind the word `u`, given the words still to come. -/
inductive Placement (doc : Text) (u : Word) : List Word → Span → Prop
  /-- The input has ended. -/
  | ended : Placement doc u [] (.emptyAt u.token.stop)
  /-- The next word stands on a later line. -/
  | later {w : Word} {ws : List Word} (h : doc.BreaksBetween u.token.start w.token.start) (hseen : ¬u.Overlooks w) :
    Placement doc u (w :: ws) (.emptyAt u.token.stop)
  /-- The next word stands on the same line. -/
  | same {w : Word} {ws : List Word} (h : ¬doc.BreaksBetween u.token.start w.token.start) :
    Placement doc u (w :: ws) w.token.span
  /-- The next word seems to stand on the same line. -/
  | unseen {w : Word} {ws : List Word} (h : u.Overlooks w) : Placement doc u (w :: ws) w.token.span

/-- The flags of words and the places of errors follow the lines of a document. -/
structure FollowsLines (doc : Text) (ws : List Word) : Prop where
  /-- The first word counts as the first on its line. -/
  first : ∀ w ∈ ws.head?, w.lineStart = true
  /-- Any other word does if a line ends between the start of the word before it and its own, and is not overlooked. -/
  next : ∀ before u w after, ws = before ++ u :: w :: after →
    (w.lineStart = true ↔ doc.BreaksBetween u.token.start w.token.start ∧ ¬u.Overlooks w)
  /-- Wherever a parser stands behind a word, it places an error by that. -/
  errors : ∀ s : State, s.StandsIn ws → ∀ u, s.previous = some u → ∀ p, ∃ r,
    ((error p).run s).2.grownErrors = s.grownErrors ++ [(p, r)] ∧ Placement doc u s.rest r

end Parser

/-! ## What the flags are -/

namespace Words

variable {isTrivia : Kind → Bool}

/-- A word is flagged if a line end is seen in the word before it or in the blanks and comments between. -/
lemma flags_group (first : Bool) (gap ts : List Token) :
    (∀ w ∈ (group isTrivia (first || gap.any breaksLine) gap ts).words.head?,
      w.lineStart = (first || w.gap.any breaksLine)) ∧
    (group isTrivia (first || gap.any breaksLine) gap ts).words.IsChain fun u w =>
      w.lineStart = (u.token.text.hasNewline || w.gap.any breaksLine) := by
  induction ts generalizing first gap with
  | nil => simp [group]
  | cons t ts ih =>
    by_cases h : isTrivia t.kind
    · have hgap : (first || gap.any breaksLine || breaksLine t) = (first || (t :: gap).any breaksLine) := by
        rw [List.any_cons, Bool.or_assoc, Bool.or_comm (breaksLine t)]
      rw [group, if_pos h, hgap]
      exact ih first (t :: gap)
    · obtain ⟨hhead, hchain⟩ := ih t.text.hasNewline []
      rw [List.any_nil, Bool.or_false] at hhead hchain
      rw [group, if_neg h]
      exact ⟨by simp, List.isChain_cons.2 ⟨hhead, hchain⟩⟩

lemma flags_ofTokens (isTrivia : Kind → Bool) (ts : List Token) :
    (∀ w ∈ (ofTokens isTrivia ts).words.head?, w.lineStart = true) ∧
      (ofTokens isTrivia ts).words.IsChain fun u w =>
        w.lineStart = (u.token.text.hasNewline || w.gap.any breaksLine) := by
  simpa [ofTokens] using flags_group true [] ts

/-- The tokens between two words that follow one another are those before the second. -/
lemma toTokens_of_next {ws : Words} {before after : List Word} {u w : Word}
    (h : ws.words = before ++ u :: w :: after) :
    ∃ past rest, ws.toTokens = past ++ u.token :: (w.gap ++ w.token :: rest) :=
  ⟨before.flatMap (fun w => w.gap ++ [w.token]) ++ u.gap, after.flatMap (fun w => w.gap ++ [w.token]) ++ ws.tail,
    by simp [toTokens, h]⟩

end Words

/-! ## What the text is -/

/-- Line ends between the starts of two tokens are those in the first and in the tokens between. -/
lemma breaksBetween_iff {front text back : Text} {past gap rest : List Token} {t u : Token}
    (h : Token.Covers front.size text (past ++ t :: (gap ++ u :: rest))) :
    (front ++ text ++ back).BreaksBetween t.start u.start ↔ '\n' ∈ t.text ∨ ∃ v ∈ gap, '\n' ∈ v.text := by
  obtain ⟨htile, hchars⟩ := h
  have hbehind := htile.behind
  have hstart : t.start = front.size + Text.size (past.flatMap Token.text) := hbehind.start_eq
  have hstop : u.start = t.start + Text.size (t.text ++ gap.flatMap Token.text) := by
    rw [← hstart] at hbehind
    have hrest : Token.Tile (t.start + Text.size ((t :: gap).flatMap Token.text)) (u :: rest) :=
      Token.Tile.behind (by simpa using hbehind)
    exact hrest.start_eq
  have hdoc : front ++ text ++ back = (front ++ past.flatMap Token.text) ++ (t.text ++ gap.flatMap Token.text) ++
      (u.text ++ rest.flatMap Token.text ++ back) := by
    rw [← hchars]
    simp
  have hslice : (front ++ text ++ back).slice? t.start u.start = some (t.text ++ gap.flatMap Token.text) := by
    rw [hdoc, hstop, hstart, ← Text.size_append]
    exact Template.slice?_append _ _ _
  rw [Text.BreaksBetween, hslice]
  simp

namespace Parser

/-! ## Where a parser stands -/

section

variable {isTrivia : Kind → Bool} {text : Text} {offset : Nat} {ts : List Token} {ws : List Word} {s t : State}

lemma State.standsIn_start : (State.start isTrivia text offset ts).StandsIn (Words.ofTokens isTrivia ts).words :=
  ⟨[], rfl, rfl⟩

/-- Whatever a parser does, it goes on standing in the words. -/
lemma State.StandsIn.run {α : Type} (h : s.StandsIn ws) (p : Parser α) : (p.run s).2.StandsIn ws := by
  obtain ⟨taken, rfl, hprevious⟩ := h
  obtain ⟨more, hrest, -, hmore⟩ := (p.forward s).moved
  exact ⟨taken ++ more, by rw [hrest, List.append_assoc], by rw [hmore, hprevious, List.getLast?_append]⟩

/-- Behind a word, the next one is its neighbour. -/
lemma State.StandsIn.exists_before {u : Word} (h : s.StandsIn ws) (hu : s.previous = some u) :
    ∃ before, ws = before ++ u :: s.rest := by
  obtain ⟨taken, rfl, hprevious⟩ := h
  obtain ⟨before, rfl⟩ := List.getLast?_eq_some_iff.1 (hprevious.symm.trans hu)
  exact ⟨before, by simp⟩

/-- Behind the last word, errors are placed at its end. -/
lemma State.errorSpan_last {u : Word} (hu : s.previous = some u) (hrest : s.rest = []) :
    s.errorSpan = .emptyAt u.token.stop := by
  simp [State.errorSpan, State.previousStop, hu, hrest]

/-- Behind any other word, they are placed by the flag of the next one. -/
lemma State.errorSpan_next {u w : Word} (hu : s.previous = some u) (hrest : s.rest = w :: ws) :
    s.errorSpan = if w.lineStart = true then .emptyAt u.token.stop else w.token.span := by
  simp [State.errorSpan, State.previousStop, State.currentSpan, State.nthLineStart, hu, hrest]

end

/-! ## The two compared -/

section

variable {isTrivia : Kind → Bool} {front text back : Text} {ts : List Token}
  (hcovers : Token.Covers front.size text ts)
  (hseen : ∀ t ∈ ts, isTrivia t.kind = true →
    (Words.breaksLine t = true ↔ '\n' ∈ t.text ∧ t.kind ∉ Word.overlooked))

include hcovers hseen

/-- A word is flagged if a line ends before it that is not overlooked, given that this is so of blanks and comments. -/
lemma lineStart_iff {before after : List Word} {u w : Word}
    (h : (Words.ofTokens isTrivia ts).words = before ++ u :: w :: after) :
    w.lineStart = true ↔
      (front ++ text ++ back).BreaksBetween u.token.start w.token.start ∧ ¬u.Overlooks w := by
  obtain ⟨past, rest, htokens⟩ := Words.toTokens_of_next h
  rw [Words.toTokens_ofTokens] at htokens
  have hflag : w.lineStart = (u.token.text.hasNewline || w.gap.any Words.breaksLine) :=
    List.isChain_iff_forall_rel_of_append_cons_cons.1 (Words.flags_ofTokens isTrivia ts).2 h
  have hgap : ∀ t ∈ w.gap, (Words.breaksLine t = true ↔ '\n' ∈ t.text ∧ t.kind ∉ Word.overlooked) := by
    intro t ht
    have hword : w ∈ (Words.ofTokens isTrivia ts).words := by simp [h]
    exact hseen t (by simp [htokens, ht]) ((Words.trivia_ofTokens ts).1 w hword t ht)
  have hline : u.token.text.hasNewline = true ↔ '\n' ∈ u.token.text := List.contains_iff_mem
  rw [breaksBetween_iff (htokens ▸ hcovers), hflag, Bool.or_eq_true, hline, List.any_eq_true]
  constructor
  · rintro (hword | ⟨t, ht, hbreaks⟩)
    · exact ⟨.inl hword, fun hover => hover.word hword⟩
    · obtain ⟨hn, hkind⟩ := (hgap t ht).1 hbreaks
      exact ⟨.inr ⟨t, ht, hn⟩, fun hover => hkind (hover.kinds t ht hn)⟩
  · rintro ⟨hbreaks, hover⟩
    by_contra hnone
    obtain ⟨hword, hnone⟩ := not_or.1 hnone
    refine hover ⟨hword, hbreaks.resolve_left hword, fun t ht hn => ?_⟩
    by_contra hkind
    exact hnone ⟨t, ht, (hgap t ht).2 ⟨hn, hkind⟩⟩

/-- Wherever a parser stands behind a word, errors are placed by the flag of the next word. -/
lemma placement_errorSpan {s : State} (hs : s.StandsIn (Words.ofTokens isTrivia ts).words) {u : Word}
    (hu : s.previous = some u) : Placement (front ++ text ++ back) u s.rest s.errorSpan := by
  obtain ⟨before, heq⟩ := hs.exists_before hu
  cases hrest : s.rest with
  | nil =>
    rw [State.errorSpan_last hu hrest]
    exact .ended
  | cons w ws =>
    rw [hrest] at heq
    have hiff : w.lineStart = true ↔
        (front ++ text ++ back).BreaksBetween u.token.start w.token.start ∧ ¬u.Overlooks w :=
      lineStart_iff hcovers hseen heq
    rw [State.errorSpan_next hu hrest]
    by_cases hflag : w.lineStart = true
    · obtain ⟨hbreaks, hover⟩ := hiff.1 hflag
      rw [if_pos hflag]
      exact .later hbreaks hover
    · rw [if_neg hflag]
      by_cases hbreaks : (front ++ text ++ back).BreaksBetween u.token.start w.token.start
      · exact .unseen (not_not.1 fun hover => hflag (hiff.2 ⟨hbreaks, hover⟩))
      · exact .same hbreaks

/-- Flags and errors follow the lines. -/
lemma followsLines_of_covers : FollowsLines (front ++ text ++ back) (Words.ofTokens isTrivia ts).words where
  first := (Words.flags_ofTokens isTrivia ts).1
  next _ _ _ _ h := lineStart_iff hcovers hseen h
  errors s hs _ hu _ := by
    refine ⟨s.errorSpan, ?_, placement_errorSpan hcovers hseen hs hu⟩
    simp [error, State.withError, State.looked, State.grownErrors, Sprout.errorsIn, Sprout.errors]

end

end Parser

/-! ## Source files -/

namespace Source

open Lexeme

/-- What is neither a blank nor a comment is no comment that is never closed. -/
lemma significant_ne (c : Char) (cs : Text) : (significant c cs).1 ≠ .unterminatedComment := by
  have hne : ∀ {k : Kind} {ks : List Kind}, k ∈ ks → .unterminatedComment ∉ ks → k ≠ .unterminatedComment :=
    fun hk hks heq => hks (heq ▸ hk)
  unfold significant
  split
  · exact hne (number_mem c cs) (by decide)
  split
  · exact hne (number_mem c cs) (by decide)
  split
  · exact hne (closed_mem _ _ _) (by decide)
  split
  · exact hne (closed_mem _ _ _) (by decide)
  split
  · exact hne (closed_mem _ _ _) (by decide)
  split
  · exact hne (word_mem c cs) (by decide)
  · exact hne (operator_mem (c :: cs)) (by decide)

/-- A comment that is never closed goes on to the end of the text. -/
lemma drop_of_unterminatedComment {c : Char} {cs : Text} {n : Nat} (h : lexeme c cs = (.unterminatedComment, n)) :
    cs.drop n = [] := by
  unfold lexeme at h
  split at h
  · cases h
  split at h
  · cases h
  split at h
  · cases h
  split at h
  · unfold blockComment at h
    split at h
    · cases h
    · obtain ⟨-, rfl⟩ := Prod.mk.inj h
      exact List.drop_length
  · exact absurd (congrArg Prod.fst h) (significant_ne c cs)

/-- A newline is a line end, and nothing stands behind a comment that is never closed. -/
lemma ends_tokens (text : Text) : Throughout (fun _ t after => (t.kind = .newline → '\n' ∈ t.text) ∧
    (t.kind = .unterminatedComment → after.flatMap Token.text = [])) [] (tokens text) := by
  refine throughout_scan (Q := fun t after => (t.kind = .newline → '\n' ∈ t.text) ∧
    (t.kind = .unterminatedComment → after = [])) (fun t after hk _ => ?_) (fun offset c cs k n hlex => ?_) {} 0 text []
  · exact ⟨fun h => absurd (hk.symm.trans h) (by decide), fun h => absurd (hk.symm.trans h) (by decide)⟩
  · refine ⟨?_, ?_⟩
    · rintro rfl
      rw [(lexeme_shape hlex).eq_newline]
      exact List.mem_singleton_self _
    · rintro rfl
      exact drop_of_unterminatedComment hlex

variable {text : Text}

lemma placed_tokens (text : Text) : Throughout Placed [] (tokens text) := (placed_scan {} 0 text [] .initial).1

/-- Blanks hold no line ends, so of blanks and comments only those that are never closed are overlooked. -/
lemma breaksLine_iff {t : Token} (ht : t ∈ tokens text) (htrivia : t.kind.isTrivia = true) :
    Words.breaksLine t = true ↔ '\n' ∈ t.text ∧ t.kind ∉ Word.overlooked := by
  obtain ⟨before, after, heq⟩ := List.append_of_mem ht
  obtain ⟨hnewline, -⟩ := ends_tokens text before t after heq
  have hline : t.text.hasNewline = true ↔ '\n' ∈ t.text := List.contains_iff_mem
  unfold Words.breaksLine
  rw [Bool.or_eq_true, Bool.and_eq_true, beq_iff_eq, beq_iff_eq, hline]
  constructor
  · rintro (hk | ⟨hk, hn⟩)
    · exact ⟨hnewline hk, by rw [hk]; decide⟩
    · exact ⟨hn, by rw [hk]; decide⟩
  · rintro ⟨hn, hkind⟩
    rcases (placed_tokens text before t after heq).newline hn with ⟨-, ⟨hk, -⟩ | ⟨hk, -⟩⟩ | hk
    · rw [hk] at htrivia
      cases htrivia
    · exact .inl hk
    · refine .inr ⟨?_, hn⟩
      revert hk htrivia hkind
      cases t.kind <;> decide

/-- Line ends are overlooked before the semicolon at the end of the text only. -/
lemma eq_semicolon_of_overlooks {before after : List Word} {u w : Word}
    (h : (Words.ofTokens Kind.isTrivia (tokens text)).words = before ++ u :: w :: after) (hover : u.Overlooks w) :
    w.token = ⟨.semicolon, text.size, []⟩ := by
  obtain ⟨t, ht, hn⟩ := hover.gap
  obtain ⟨gap, gap', hgap⟩ := List.append_of_mem ht
  obtain ⟨past, rest, htokens⟩ := Words.toTokens_of_next h
  rw [Words.toTokens_ofTokens, hgap] at htokens
  have htext : tokens text = (past ++ u.token :: gap) ++ t :: (gap' ++ w.token :: rest) := by simp [htokens]
  have hword : tokens text = (past ++ u.token :: (gap ++ t :: gap')) ++ w.token :: rest := by simp [htokens]
  have hcomment : t.kind = .unterminatedComment := by
    have hkind := hover.kinds t ht hn
    rcases (placed_tokens text _ t _ htext).newline hn with ⟨-, ⟨hk, -⟩ | ⟨hk, -⟩⟩ | hk
    · rw [hk] at hkind
      exact absurd hkind (by decide)
    · rw [hk] at hkind
      exact absurd hkind (by decide)
    · revert hk hkind
      cases t.kind <;> decide
  have hend := (ends_tokens text _ t _ htext).2 hcomment
  rw [List.flatMap_append, List.flatMap_cons, List.append_eq_nil_iff, List.append_eq_nil_iff] at hend
  obtain ⟨-, hempty, hrest⟩ := hend
  have hcovers := covers_tokens text
  rw [hword] at hcovers
  have hsize := congrArg Text.size hcovers.chars
  rw [List.flatMap_append, List.flatMap_cons, hempty, hrest, List.append_nil, List.append_nil] at hsize
  have hstart : w.token.start = text.size := by
    rw [hcovers.tile.behind.start_eq, hsize, Nat.zero_add]
  rw [← (placed_tokens text _ w.token rest hword).nonempty hempty, ← hstart, ← hempty]

end Source

/-! ## Both parsers -/

/-- **Errors are placed by the lines of the text**, be it read as a source file or as a template in a document: behind
the last word at the end of the input and where the next word stands on a later line, and at the next word where it does
not. In a source file that is so of every word but the semicolon at the end, in a template of every word without a blank
before it that holds a line end. -/
theorem errors_follow_lines (text : Text) (d : Delimiters) (host : HostLanguage) (front back : Text) :
    (Parser.FollowsLines text (Words.ofTokens Kind.isTrivia (Source.tokens text)).words ∧
      ∀ before u w after, (Words.ofTokens Kind.isTrivia (Source.tokens text)).words = before ++ u :: w :: after →
        u.Overlooks w → w.token = ⟨.semicolon, text.size, []⟩) ∧
    Parser.FollowsLines (front ++ text ++ back)
      (Words.ofTokens Template.isTrivia (Template.tokens d host front.size text)).words := by
  refine ⟨⟨?_, fun before u w after => Source.eq_semicolon_of_overlooks⟩, ?_⟩
  · have hfollows : Parser.FollowsLines ([] ++ text ++ []) (Words.ofTokens Kind.isTrivia (Source.tokens text)).words :=
      Parser.followsLines_of_covers (Source.covers_tokens text) fun t => Source.breaksLine_iff
    simpa using hfollows
  · refine Parser.followsLines_of_covers (Template.covers_tokens d host front.size text) fun t _ htrivia => ?_
    -- the only blanks of a template are overlooked
    have hkind : t.kind = .whitespace := by simpa [Template.isTrivia] using htrivia
    simp [Words.breaksLine, hkind, Word.overlooked]

/-- Behind a semicolon that is a line end, an error is placed by the line. -/
theorem errors_follow_lines_semicolon :
    let start := Parser.State.start Kind.isTrivia "a\n)".toList 0 (Source.tokens "a\n)".toList)
    let s := ((Parser.advance >>= fun _ => Parser.advance).run start).2
    ∃ r, ((Parser.error .misplacedPackage).run s).2.grownErrors = s.grownErrors ++ [(.misplacedPackage, r)] ∧
      Parser.Placement "a\n)".toList ⟨[], ⟨.semicolon, 1, ['\n']⟩, false⟩ s.rest r := by
  intro start s
  have hprevious : s.previous = some ⟨[], ⟨.semicolon, 1, ['\n']⟩, false⟩ := by decide +kernel
  exact (errors_follow_lines "a\n)".toList .braces .html [] []).1.1.errors s (Parser.State.standsIn_start.run _) _
    hprevious _

/-- In a directive that goes on over a line end, an error is placed at a word on a later line. -/
theorem errors_follow_lines_directive : ∃ before u w after,
    (Words.ofTokens Template.isTrivia (Template.tokens .braces .html 0 "\x7b\x7b.X\n)\x7d\x7d".toList)).words =
      before ++ u :: w :: after ∧
    Text.BreaksBetween "\x7b\x7b.X\n)\x7d\x7d".toList u.token.start w.token.start ∧ w.lineStart = false ∧
    (Template.parse .braces .html 0 "\x7b\x7b.X\n)\x7d\x7d".toList).errors.map SyntaxError.report =
      [(.expected "'\x7d\x7d'" .rightParen, w.token.span)] ∧
    w.token.span ≠ .emptyAt u.token.stop := by
  refine ⟨[⟨[], ⟨.leftDelimiter, 0, ['{', '{']⟩, true⟩], ⟨[], ⟨.field, 2, ['.', 'X']⟩, false⟩,
    ⟨[⟨.whitespace, 4, ['\n']⟩], ⟨.rightParen, 5, [')']⟩, false⟩, [⟨[], ⟨.rightDelimiter, 6, ['}', '}']⟩, false⟩], ?_⟩
  exact ⟨by decide +kernel, ⟨['.', 'X', '\n'], by decide +kernel, by decide⟩, rfl, by decide +kernel, by decide +kernel⟩

end GoFront
