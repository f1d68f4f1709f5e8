import GoFront.Proofs.Token.Drain

/-!
# Lexing from the end of a statement on

A lexer that is started behind a semicolon remembers nothing of what came before, while the lexer that comes to this
place from the start of the text may remember open brackets. Of these only parentheses and square brackets matter, since
no line end asks whether a brace or a group of declarations is open (`State.Alike`). So where no others are open the two
lexers yield the same tokens from there on: `tokenizer_restarted`.
-/

namespace GoFront.Source

/-! ## States that yield the same tokens -/

/-- Two states that do not differ but in brackets further out, none of which a line end asks for. -/
structure State.Alike (s s' : State) : Prop where
  /-- A statement can end in both states, or in neither. -/
  pending : s.pending = s'.pending
  /-- A parenthesis would open a group of declarations in both states, or in neither. -/
  declares : opensDeclarations s.last = opensDeclarations s'.last
  /-- The first state has more open brackets, around those of the second. -/
  groups : ∃ outer, (∀ g ∈ outer, g = .brace ∨ g = .declarations) ∧ s.groups = s'.groups ++ outer

/-- The last token has ended its statement, and it opens no group of declarations. -/
structure State.Settled (s : State) : Prop where
  pending : s.pending = false
  declares : opensDeclarations s.last = false

/-- Behind the end of a statement, a state in which no parenthesis and no square bracket is open is like the first
state of all. -/
lemma State.Settled.alike {s : State} (h : s.Settled) (hgroups : ∀ g ∈ s.groups, g = .brace ∨ g = .declarations) :
    s.Alike {} :=
  ⟨h.pending, h.declares, s.groups, hgroups, rfl⟩

namespace State.Alike

variable {s s' : State}

/-- The same line ends end statements. -/
lemma lineEnds_eq (h : s.Alike s') : s.lineEnds = s'.lineEnds := by
  obtain ⟨outer, houter, hgroups⟩ := h.groups
  rw [State.lineEnds, State.lineEnds, h.pending, hgroups]
  cases s'.groups with
  | cons g gs => rw [List.cons_append]; cases g <;> rfl
  | nil =>
    cases outer with
    | nil => rfl
    | cons g outer =>
      -- Inside what is open further out line ends count as they do outside of all brackets.
      obtain rfl | rfl := houter g List.mem_cons_self
      · rfl
      · rfl

/-- A closing bracket closes the same bracket in both states, or one further out in the first. -/
lemma tail_groups (h : s.Alike s') :
    ∃ outer, (∀ g ∈ outer, g = .brace ∨ g = .declarations) ∧ s.groups.tail = s'.groups.tail ++ outer := by
  obtain ⟨outer, houter, hgroups⟩ := h.groups
  rw [hgroups]
  cases s'.groups with
  | nil => exact ⟨outer.tail, fun g hg => houter g (List.mem_of_mem_tail hg), rfl⟩
  | cons g gs => exact ⟨outer, houter, rfl⟩

lemma track (h : s.Alike s') (k : Kind) : (s.track k).Alike (s'.track k) := by
  refine ⟨rfl, rfl, ?_⟩
  obtain ⟨outer, houter, hgroups⟩ := h.groups
  simp only [State.track]
  cases k with
  | leftParen => exact ⟨outer, houter, by simp only [State.groupsAfter, h.declares, hgroups, List.cons_append]⟩
  | leftBracket => exact ⟨outer, houter, by simp only [State.groupsAfter, hgroups, List.cons_append]⟩
  | leftBrace => exact ⟨outer, houter, by simp only [State.groupsAfter, hgroups, List.cons_append]⟩
  | rightParen => exact h.tail_groups
  | rightBracket => exact h.tail_groups
  | rightBrace => exact h.tail_groups
  | _ => exact ⟨outer, houter, hgroups⟩

lemma supplied (h : s.Alike s') : s.supplied.Alike s'.supplied := ⟨rfl, h.declares, h.groups⟩

/-- A piece of text gives the same tokens, and the states stay alike. -/
lemma step (h : s.Alike s') (offset : Nat) (k : Kind) (text : Text) :
    (s.step offset k text).1 = (s'.step offset k text).1 ∧
      (s.step offset k text).2.Alike (s'.step offset k text).2 := by
  rw [State.step, State.step, h.lineEnds_eq]
  split
  · exact ⟨rfl, h.supplied⟩
  · split
    · exact ⟨rfl, h.supplied⟩
    · split
      · exact ⟨rfl, h⟩
      · exact ⟨rfl, h.track k⟩

end State.Alike

/-- From states that are alike the same tokens are scanned. -/
lemma scan_eq_of_alike (s : State) (offset : Nat) (text : Text) :
    ∀ s', s.Alike s' → scan s offset text = scan s' offset text := by
  fun_induction scan s offset text with
  | case1 s offset hp =>
    intro s' h
    rw [scan, ← h.pending, if_pos hp]
  | case2 s offset hp =>
    intro s' h
    rw [scan, ← h.pending, if_neg hp]
  | case3 s offset c cs kind n hlex piece ts t hstep ih =>
    intro s' h
    obtain ⟨htokens, halike⟩ := h.step offset kind piece
    rw [hstep] at htokens halike
    rw [scan]
    simp only [hlex]
    exact congrArg₂ (· ++ ·) htokens (ih _ halike)

/-! ## A lexer on its way -/

namespace Tokenizer

/-- A lexer yields some tokens, and is another one behind them. -/
inductive Yields : Tokenizer → List Token → Tokenizer → Prop
  /-- No token has been yielded yet. -/
  | nil (t : Tokenizer) : Yields t [] t
  /-- A token, and those of the steps that follow. -/
  | cons {t t' behind : Tokenizer} {u : Token} {us : List Token} (h : t.next? = some (u, t'))
    (rest : Yields t' us behind) : Yields t (u :: us) behind

variable {t t' last last' : Tokenizer} {u : Token} {us vs : List Token}

/-- All the tokens of a lexer are some of them and those of the lexer behind these. -/
lemma Drains.split (h : Drains t (us ++ vs) last) : ∃ behind, Yields t us behind ∧ Drains behind vs last := by
  induction us generalizing t with
  | nil => exact ⟨t, .nil t, h⟩
  | cons u us ih =>
    cases h with
    | next hu h =>
      obtain ⟨behind, hyields, hdrains⟩ := ih h
      exact ⟨behind, .cons hu hyields, hdrains⟩

/-- A lexer is drained in one way only. -/
lemma Drains.unique (h : Drains t us last) (k : Drains t vs last') : us = vs := by
  induction h generalizing vs with
  | last hnone =>
    cases k with
    | last => rfl
    | next hsome => exact nomatch hnone.symm.trans hsome
  | next hu _ ih =>
    cases k with
    | last hnone => exact nomatch hnone.symm.trans hu
    | next hv k =>
      obtain ⟨rfl, rfl⟩ := Prod.mk.inj (Option.some.inj (hu.symm.trans hv))
      rw [ih k]

/-- A lexer that has yielded some tokens is in one place only. -/
lemma Yields.unique (h : Yields t us last) (k : Yields t us last') : last = last' := by
  induction h with
  | nil =>
    cases k
    rfl
  | cons hu _ ih =>
    cases k with
    | cons hv k =>
      obtain ⟨-, rfl⟩ := Prod.mk.inj (Option.some.inj (hu.symm.trans hv))
      exact ih k

/-- What a lexer does in one step. -/
inductive Steps : Tokenizer → Token → Tokenizer → Prop
  /-- It yields the semicolon that is due. -/
  | due {rest : Text} {offset o : Nat} {s : State} :
    Steps ⟨rest, offset, s, some o⟩ ⟨.semicolon, o, []⟩ ⟨rest, offset, s, none⟩
  /-- At the end of the text it supplies a semicolon. -/
  | finish {offset : Nat} {s : State} (hs : s.pending = true) :
    Steps ⟨[], offset, s, none⟩ ⟨.semicolon, offset, []⟩ ⟨[], offset, s.supplied, none⟩
  /-- It takes a line end for a semicolon. -/
  | line {c : Char} {cs : Text} {offset n : Nat} {s : State} (hs : s.lineEnds = true) :
    Steps ⟨c :: cs, offset, s, none⟩ ⟨.semicolon, offset, c :: cs.take n⟩
      (behind s.supplied offset (c :: cs.take n) (cs.drop n))
  /-- It takes a comment, behind which a semicolon is due. -/
  | comment {c : Char} {cs : Text} {offset n : Nat} {s : State} (hs : s.lineEnds = true) :
    Steps ⟨c :: cs, offset, s, none⟩ ⟨.blockComment, offset, c :: cs.take n⟩
      { behind s.supplied offset (c :: cs.take n) (cs.drop n) with due := some (offset + Text.size (c :: cs.take n)) }
  /-- It takes blanks or a comment. -/
  | trivia {c : Char} {cs : Text} {offset n : Nat} {k : Kind} {s : State} (hk : k.isTrivia = true) :
    Steps ⟨c :: cs, offset, s, none⟩ ⟨k, offset, c :: cs.take n⟩ (behind s offset (c :: cs.take n) (cs.drop n))
  /-- It takes a significant token. -/
  | significant {c : Char} {cs : Text} {offset n : Nat} {k : Kind} {s : State} :
    Steps ⟨c :: cs, offset, s, none⟩ ⟨k, offset, c :: cs.take n⟩
      (behind (s.track k) offset (c :: cs.take n) (cs.drop n))

/-- A token is yielded in one of these steps. -/
lemma steps_of_next? (h : t.next? = some (u, t')) : Steps t u t' := by
  obtain ⟨rest, offset, s, due⟩ := t
  cases due with
  | some o =>
    obtain ⟨rfl, rfl⟩ := Prod.mk.inj (Option.some.inj h)
    exact .due
  | none =>
    cases rest with
    | nil =>
      simp only [next?, Option.ite_none_right_eq_some, Option.some.injEq, Prod.mk.injEq] at h
      obtain ⟨hs, rfl, rfl⟩ := h
      exact .finish hs
    | cons c cs =>
      simp only [next?] at h
      split at h
      · next hline =>
        obtain ⟨rfl, rfl⟩ := Prod.mk.inj (Option.some.inj h)
        exact .line (Bool.and_eq_true _ _ ▸ hline).2
      · split at h
        · next hcomment =>
          simp only [Bool.and_eq_true, decide_eq_true_eq] at hcomment
          obtain ⟨rfl, rfl⟩ := Prod.mk.inj (Option.some.inj h)
          rw [hcomment.1.1]
          exact .comment hcomment.2
        · split at h
          · next htrivia =>
            obtain ⟨rfl, rfl⟩ := Prod.mk.inj (Option.some.inj h)
            exact .trivia htrivia
          · obtain ⟨rfl, rfl⟩ := Prod.mk.inj (Option.some.inj h)
            exact .significant

/-- A lexer stands at its offset in a text. Where a statement can end, the last token opens no group of declarations,
and a semicolon that is due ends its statement here. -/
structure Stands (text : Text) (t : Tokenizer) : Prop where
  rest : ∃ before, text = before ++ t.rest ∧ before.size = t.offset
  declares : t.state.pending = true → opensDeclarations t.state.last = false
  due : ∀ offset ∈ t.due, offset = t.offset ∧ t.state.Settled

/-- A lexer at the end of a statement: nothing is due, and a new statement begins. -/
structure Rests (offset : Nat) (t : Tokenizer) : Prop where
  offset : t.offset = offset
  due : t.due = none
  settled : t.state.Settled

/-- No token at which a statement can end opens a group of declarations. -/
lemma not_opensDeclarations_of_canEnd {k : Kind} (h : canEnd k = true) : opensDeclarations k = false := by
  revert h
  cases k <;> decide

namespace Stands

variable {text : Text}

/-- The lexer at the start of a text. -/
lemma start (text : Text) : Stands text ⟨text, 0, {}, none⟩ := ⟨⟨[], rfl, rfl⟩, nofun, nofun⟩

/-- Behind a piece of text a lexer stands in the text again. -/
lemma behind {c : Char} {cs : Text} {offset n : Nat} {s s' : State} (h : Stands text ⟨c :: cs, offset, s, none⟩)
    (hs : s'.pending = true → opensDeclarations s'.last = false) :
    Stands text (behind s' offset (c :: cs.take n) (cs.drop n)) := by
  obtain ⟨before, htext, hsize⟩ := h.rest
  refine ⟨⟨before ++ (c :: cs.take n), ?_, ?_⟩, hs, nofun⟩
  · rw [htext, List.append_assoc]
    exact congrArg (before ++ c :: ·) (List.take_append_drop n cs).symm
  · rw [Text.size_append, hsize]
    rfl

/-- A semicolon that is supplied ends its statement. -/
lemma settled (h : Stands text t) (hp : t.state.pending = true) : t.state.supplied.Settled := ⟨rfl, h.declares hp⟩

/-- The lexer behind a token stands in the text again, and behind a semicolon it is at the end of a statement. -/
lemma step (h : Stands text t) (hnext : t.next? = some (u, t')) :
    Stands text t' ∧ (u.kind = .semicolon → Rests u.stop t') := by
  have hpending : ∀ {s : State}, s.lineEnds = true → s.pending = true := fun hl => (Bool.and_eq_true _ _ ▸ hl).1
  cases steps_of_next? hnext with
  | due =>
    obtain ⟨rfl, hsettled⟩ := h.due _ rfl
    exact ⟨⟨h.rest, h.declares, nofun⟩, fun _ => ⟨rfl, rfl, hsettled⟩⟩
  | finish hs => exact ⟨⟨h.rest, nofun, nofun⟩, fun _ => ⟨rfl, rfl, h.settled hs⟩⟩
  | line hs => exact ⟨h.behind nofun, fun _ => ⟨rfl, rfl, h.settled (hpending hs)⟩⟩
  | @comment c cs offset n s hs =>
    -- A semicolon is due behind the comment, which itself ends nothing.
    have hbehind : Stands text (Tokenizer.behind s.supplied offset (c :: cs.take n) (cs.drop n)) := h.behind nofun
    exact ⟨⟨hbehind.rest, nofun, fun o ho => ⟨(Option.some.inj ho).symm, h.settled (hpending hs)⟩⟩,
      fun hk => nomatch hk⟩
  | trivia hk =>
    refine ⟨h.behind h.declares, ?_⟩
    rintro rfl
    exact nomatch hk
  | significant =>
    refine ⟨h.behind not_opensDeclarations_of_canEnd, ?_⟩
    rintro rfl
    exact ⟨rfl, rfl, rfl, rfl⟩

/-- A lexer stands in its text all the way. -/
lemma yields (h : Stands text t) (hyields : Yields t us t') : Stands text t' := by
  induction hyields with
  | nil => exact h
  | cons hu _ ih => exact ih (h.step hu).1

/-- Behind a semicolon a lexer is at the end of a statement. -/
lemma rests (h : Stands text t) (hyields : Yields t (us ++ [u]) t') (hu : u.kind = .semicolon) : Rests u.stop t' := by
  induction us generalizing t with
  | nil =>
    cases hyields with
    | cons hnext hyields =>
      cases hyields
      exact (h.step hnext).2 hu
  | cons v us ih =>
    cases hyields with
    | cons hnext hyields => exact ih (h.step hnext).1 hyields

end Stands

/-- **Lexing can start anew at the end of every statement.** The lexer of a text yields its tokens up to a semicolon,
one that is written or one that is supplied. If no brackets are open there but braces and those around groups of
declarations, then a lexer that starts behind the semicolon and knows nothing of what comes before yields just the
tokens that are left. -/
theorem tokenizer_restarted (text : Text) {before after : List Token} {t : Token}
    (h : tokens text = before ++ t :: after) (ht : t.kind = .semicolon) :
    ∃ start behind, at? text 0 = some start ∧ Yields start (before ++ [t]) behind ∧
      ((∀ g ∈ behind.state.groups, g = .brace ∨ g = .declarations) → ∃ restarted last,
        at? text t.stop = some restarted ∧ tokensFrom? text t.stop = some after ∧ Drains restarted after last) := by
  have hstart : at? text 0 = some ⟨text, 0, {}, none⟩ := by
    rw [at?, show text.cut? 0 = some ([], text) from Text.cut?_append [] text]
    rfl
  obtain ⟨s, hdrains⟩ := drains_scan {} 0 text
  rw [show scan {} 0 text = before ++ [t] ++ after from h.trans (List.append_cons before t after)] at hdrains
  obtain ⟨behind, hyields, hafter⟩ := hdrains.split
  refine ⟨_, behind, hstart, hyields, fun hgroups => ?_⟩
  have hstands := (Stands.start text).yields hyields
  obtain ⟨hoffset, hdue, hsettled⟩ := (Stands.start text).rests hyields ht
  obtain ⟨piece, htext, hsize⟩ := hstands.rest
  obtain ⟨rest, offset, state, due⟩ := behind
  obtain rfl : offset = t.stop := hoffset
  obtain rfl : due = none := hdue
  -- What is left is scanned from the state that the lexer came to, and as well from the first state of all.
  obtain ⟨s', hscan⟩ := drains_scan state t.stop rest
  have heq : after = scan {} t.stop rest :=
    (hafter.unique hscan).trans (scan_eq_of_alike state t.stop rest {} (hsettled.alike hgroups))
  obtain ⟨s'', hrestarted⟩ := drains_scan {} t.stop rest
  have hcut : text.cut? t.stop = some (piece, rest) := by
    rw [htext, ← show piece.size = t.stop from hsize]
    exact Text.cut?_append piece rest
  refine ⟨⟨rest, t.stop, {}, none⟩, _, ?_, ?_, heq ▸ hrestarted⟩
  · rw [at?, hcut]
    rfl
  · rw [tokensFrom?, hcut, heq]
    rfl

/-- Behind a line end in a block, where the next bracket closes the block for the first lexer and nothing for the
second. -/
theorem tokenizer_restarted_in_block : tokens "\x7ba\n)b".toList =
      [⟨.leftBrace, 0, ['{']⟩, ⟨.identifier, 1, ['a']⟩] ++ ⟨.semicolon, 2, ['\n']⟩ ::
        [⟨.rightParen, 3, [')']⟩, ⟨.identifier, 4, ['b']⟩, ⟨.semicolon, 5, []⟩] ∧
    ∃ restarted last, at? "\x7ba\n)b".toList 3 = some restarted ∧
      tokensFrom? "\x7ba\n)b".toList 3 = some [⟨.rightParen, 3, [')']⟩, ⟨.identifier, 4, ['b']⟩, ⟨.semicolon, 5, []⟩] ∧
      Drains restarted [⟨.rightParen, 3, [')']⟩, ⟨.identifier, 4, ['b']⟩, ⟨.semicolon, 5, []⟩] last := by
  have htokens : tokens "\x7ba\n)b".toList =
      [⟨.leftBrace, 0, ['{']⟩, ⟨.identifier, 1, ['a']⟩] ++ ⟨.semicolon, 2, ['\n']⟩ ::
        [⟨.rightParen, 3, [')']⟩, ⟨.identifier, 4, ['b']⟩, ⟨.semicolon, 5, []⟩] := by decide +kernel
  obtain ⟨start, behind, hstart, hyields, hrestarted⟩ := tokenizer_restarted "\x7ba\n)b".toList htokens rfl
  have hrun : Yields ⟨"\x7ba\n)b".toList, 0, {}, none⟩ _ ⟨")b".toList, 3, ⟨[.brace], false, .identifier⟩, none⟩ :=
    .cons rfl (.cons rfl (.cons rfl (.nil _)))
  obtain rfl : ⟨"\x7ba\n)b".toList, 0, {}, none⟩ = start :=
    Option.some.inj ((by decide +kernel : some _ = at? "\x7ba\n)b".toList 0).trans hstart)
  rw [← hrun.unique hyields] at hrestarted
  exact ⟨htokens, hrestarted (by simp)⟩

end Tokenizer

end GoFront.Source
