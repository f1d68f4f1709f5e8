import GoFront.Proofs.Parse.Reading

/-!
# Parsers that do not look past a piece of their input

A piece of an input can be parsed on its own, or as the front of a longer input. The two runs go side by side as long
as the parser looks at words of the piece only. `Shadows` says when two states stand at the same place: what is left
of the piece is what comes next in the longer input, and the same has grown, up to what stands before the first word.
`Parser.Local` says of a parser that it leads from such states to such states, and gives the same answer.

A piece that runs to the end of the input can also be looked past, since there is nothing behind it. So everything
that has to be known of the words ahead has to be known only if there is more behind the piece (`Sees`).

Only runs on which no assertion fails are compared, and a run that ends without a failed assertion has met none on its
way. This is what bounds the rounds of a loop.
-/

namespace GoFront

/-- A word without what depends on the words before it. -/
def Word.bare (w : Word) : Word := ⟨[], w.token, false⟩

namespace Sprout

mutual

/-- A sprout whose words are bare. -/
def bare : Sprout → Sprout
  | .word w => .word w.bare
  | .error p r => .error p r
  | .node k cs => .node k (bareIn cs)

/-- Sprouts whose words are bare. -/
def bareIn : List Sprout → List Sprout
  | [] => []
  | s :: ss => bare s :: bareIn ss

end

lemma bareIn_eq_map (ss : List Sprout) : bareIn ss = ss.map bare := by
  induction ss with
  | nil => rfl
  | cons s ss ih => rw [bareIn, ih, List.map_cons]

mutual

/-- The number of words left behind a sprout if `n` are left before it. There is none if the words run out, or if a
node starts where no word is left. -/
def spend : Sprout → Nat → Option Nat
  | .word _, n => if n = 0 then none else some (n - 1)
  | .error _ _, n => some n
  | .node _ cs, n => if n = 0 then none else spendIn cs n

/-- The number of words left behind sprouts that follow one another. -/
def spendIn : List Sprout → Nat → Option Nat
  | [], n => some n
  | s :: ss, n => (spend s n).bind (spendIn ss)

end

lemma spendIn_append (ss ts : List Sprout) (n : Nat) : spendIn (ss ++ ts) n = (spendIn ss n).bind (spendIn ts) := by
  induction ss generalizing n with
  | nil => rfl
  | cons s ss ih =>
    rw [List.cons_append, spendIn, spendIn, Option.bind_assoc]
    exact Option.bind_congr fun m _ => ih m

mutual

/-- The words spent are those of the sprout. -/
lemma eq_of_spend : (s : Sprout) → {n m : Nat} → s.spend n = some m → n = s.words.length + m
  | .word w, n, m, h => by
    rw [spend] at h
    split at h
    · exact nomatch h
    · simp only [Option.some.injEq] at h
      simp only [words, List.length_singleton]
      omega
  | .error p r, n, m, h => by
    simp only [spend, Option.some.injEq] at h
    simp [words, h]
  | .node k cs, n, m, h => by
    rw [spend] at h
    split at h
    · exact nomatch h
    · exact eq_of_spendIn cs h

lemma eq_of_spendIn : (ss : List Sprout) → {n m : Nat} → spendIn ss n = some m → n = (wordsIn ss).length + m
  | [], n, m, h => by
    simp only [spendIn, Option.some.injEq] at h
    simp [wordsIn, h]
  | s :: ss, n, m, h => by
    rw [spendIn, Option.bind_eq_some_iff] at h
    obtain ⟨i, hi, hm⟩ := h
    have h₁ := eq_of_spend s hi
    have h₂ := eq_of_spendIn ss hm
    simp only [wordsIn, List.length_append]
    omega

end

end Sprout

namespace Parser

variable {α β σ : Type}

/-! ## Two runs side by side -/

/-- The word `n` places ahead belongs to the piece, unless there is nothing behind the piece. -/
def Sees (more : List Word) (ks : List Kind) (n : Nat) : Prop := more ≠ [] → n < ks.length

/-- The state `s` stands in a piece of an input where `t` stands in the input; `more` is what follows the piece, and
`base` is what had grown before it. Until a word of the piece is taken, what stands before its first word may
differ. -/
structure Shadows (more : List Word) (base : List Sprout) (s t : State) : Prop where
  /-- The words of the piece come next. -/
  rest : ∃ ws, t.rest = ws ++ more ∧ ws.map Word.token = s.rest.map Word.token ∧ ws.tail = s.rest.tail ∧
    (s.previous.isSome = true → ws = s.rest)
  previous : s.previous.isSome = true → t.previous.map Word.token = s.previous.map Word.token
  /-- The input ends with the piece if nothing follows it. -/
  stop : more = [] → t.span.stop = s.span.stop
  grown : t.grown.map Sprout.bare = s.grown.map Sprout.bare ++ base
  /-- If something follows the piece, no node starts behind its last word. -/
  spent : more ≠ [] → Sprout.spendIn s.grown.reverse (s.grownWords.length + s.rest.length) = some s.rest.length

namespace Shadows

variable {more : List Word} {base : List Sprout} {s t : State}

lemma tokens (h : Shadows more base s t) : t.rest.map Word.token = s.rest.map Word.token ++ more.map Word.token := by
  obtain ⟨ws, hrest, htokens, -⟩ := h.rest
  rw [hrest, List.map_append, htokens]

/-- The words of the piece look the same in both states. -/
lemma token (h : Shadows more base s t) {n : Nat} (hn : Sees more s.kinds n) :
    t.rest[n]?.map Word.token = s.rest[n]?.map Word.token := by
  rw [← List.getElem?_map, ← List.getElem?_map, h.tokens]
  by_cases hmore : more = []
  · rw [hmore, List.map_nil, List.append_nil]
  · have hlt := hn hmore
    rw [State.kinds, List.length_map] at hlt
    exact List.getElem?_append_left (by rwa [List.length_map])

lemma nth (h : Shadows more base s t) {n : Nat} (hn : Sees more s.kinds n) : t.nth n = ahead s.kinds n := by
  have hkind : ∀ r : State, r.nth n = ((r.rest[n]?.map Word.token).map Token.kind).getD .endOfInput := by
    intro r
    rw [Option.map_map]
    rfl
  rw [← kindAt_eq, hkind, h.token hn, ← hkind]
  rfl

lemma currentSpan (h : Shadows more base s t) (hn : Sees more s.kinds 0) : t.currentSpan = s.currentSpan := by
  have hspan : ∀ r : State, r.currentSpan =
      ((r.rest[0]?.map Word.token).map Token.span).getD (.emptyAt r.span.stop) := by
    intro r
    rw [Option.map_map, ← List.head?_eq_getElem?]
    rfl
  rw [hspan, hspan, h.token hn]
  by_cases hmore : more = []
  · rw [h.stop hmore]
  · have hlt := hn hmore
    rw [State.kinds, List.length_map] at hlt
    rw [List.getElem?_eq_getElem hlt]
    rfl

lemma previousStop (h : Shadows more base s t) (hs : s.previous.isSome = true) : t.previousStop = s.previousStop := by
  have hstop : ∀ r : State, r.previousStop = ((r.previous.map Word.token).map Token.stop).getD r.span.start := by
    intro r
    rw [Option.map_map]
    rfl
  obtain ⟨w, hw⟩ := Option.isSome_iff_exists.1 hs
  rw [hstop, hstop, h.previous hs, hw]
  rfl

lemma errorSpan (h : Shadows more base s t) (hs : s.previous.isSome = true) (hn : Sees more s.kinds 0) :
    t.errorSpan = s.errorSpan := by
  obtain ⟨ws, hrest, -, -, hws⟩ := h.rest
  have hline : t.nthLineStart 0 = s.nthLineStart 0 ∧ t.rest.isEmpty = s.rest.isEmpty := by
    rw [State.nthLineStart, State.nthLineStart, hrest, hws hs]
    by_cases hmore : more = []
    · simp [hmore]
    · have hlt := hn hmore
      rw [State.kinds, List.length_map] at hlt
      obtain ⟨w, us, hw⟩ := List.exists_cons_of_ne_nil (List.ne_nil_of_length_pos hlt)
      rw [hw]
      exact ⟨rfl, rfl⟩
  have hprev : t.previous.isSome = s.previous.isSome := by
    rw [← Option.isSome_map, h.previous hs, Option.isSome_map]
  rw [State.errorSpan, State.errorSpan, hline.1, hline.2, hprev, h.previousStop hs, h.currentSpan hn]

/-- What is not compared may change. -/
lemma congr (h : Shadows more base s t) {s' t' : State} (hrest : s'.rest = s.rest) (hrest' : t'.rest = t.rest)
    (hprev : s'.previous = s.previous) (hprev' : t'.previous = t.previous) (hspan : s'.span = s.span)
    (hspan' : t'.span = t.span) (hgrown : s'.grown = s.grown) (hgrown' : t'.grown = t.grown) :
    Shadows more base s' t' where
  rest := by
    rw [hrest, hrest', hprev]
    exact h.rest
  previous := by
    rw [hprev, hprev']
    exact h.previous
  stop := by
    rw [hspan, hspan']
    exact h.stop
  grown := by
    rw [hgrown, hgrown']
    exact h.grown
  spent := by
    rw [State.grownWords, hrest, hgrown]
    exact h.spent

lemma looked (h : Shadows more base s t) : Shadows more base s.looked t.looked :=
  h.congr rfl rfl rfl rfl rfl rfl rfl rfl

/-- Both states take the next word. -/
lemma advance (h : Shadows more base s t) {w : Word} {ws : List Word} (hs : s.rest = w :: ws) :
    Shadows more base s.advance t.advance := by
  obtain ⟨vs, hrest, htokens, htail, -⟩ := h.rest
  rw [hs] at htokens htail
  obtain ⟨v, us, rfl, hv, -⟩ := List.map_eq_cons_iff.1 htokens
  obtain rfl : us = ws := htail
  obtain ⟨hsrest, -, -, hsgrown, hsprev⟩ := State.advance_of_cons hs
  obtain ⟨htrest, -, -, htgrown, htprev⟩ := State.advance_of_cons hrest
  exact
    { rest := ⟨us, htrest, by rw [hsrest], by rw [hsrest], fun _ => hsrest.symm⟩
      previous := fun _ => by rw [htprev, hsprev, Option.map_some, Option.map_some, hv]
      stop := by
        rw [(reaches_advance s).span, (reaches_advance t).span]
        exact h.stop
      grown := by
        rw [hsgrown, htgrown, List.map_cons, List.map_cons, h.grown, Sprout.bare, Sprout.bare, Word.bare, Word.bare, hv]
        rfl
      spent := fun hmore => by
        have hspent := h.spent hmore
        have hwords : s.advance.grownWords.length = s.grownWords.length + 1 := by
          simp [State.grownWords, hsgrown, Sprout.wordsIn, Sprout.words]
        rw [hs, List.length_cons] at hspent
        rw [hwords, hsrest, hsgrown, List.reverse_cons, Sprout.spendIn_append, Nat.add_right_comm, Nat.add_assoc, hspent]
        simp [Sprout.spendIn, Sprout.spend] }

/-- Both states report the same error. -/
lemma withError (h : Shadows more base s t) (p : Problem) (r : Span) :
    Shadows more base (s.withError p r) (t.withError p r) where
  rest := h.rest
  previous := h.previous
  stop := h.stop
  grown := by
    rw [State.withError, State.withError, List.map_cons, List.map_cons, h.grown]
    rfl
  spent := fun hmore => by
    have hwords : (s.withError p r).grownWords = s.grownWords := by
      simp [State.withError, State.grownWords, Sprout.wordsIn, Sprout.words]
    rw [hwords]
    change Sprout.spendIn (.error p r :: s.grown).reverse (s.grownWords.length + s.rest.length) = some s.rest.length
    rw [List.reverse_cons, Sprout.spendIn_append, h.spent hmore]
    rfl

/-- A new node starts in both states. -/
lemma inner (h : Shadows more base s t) : Shadows more [] s.inner t.inner where
  rest := h.rest
  previous := h.previous
  stop := h.stop
  grown := rfl
  spent := fun _ => by
    change Sprout.spendIn [] (0 + s.rest.length) = _
    rw [Nat.zero_add]
    rfl

/-- A node ends in both states. -/
lemma close (h : Shadows more base s t) {s' t' : State} (hs : Reaches s.inner s') (h' : Shadows more [] s' t')
    (hn : Sees more s.kinds 0) (k : Kind) : Shadows more base (s.close s' k) (t.close t' k) where
  rest := h'.rest
  previous := h'.previous
  stop := h'.stop
  grown := by
    change (Sprout.node k t'.grown.reverse :: t.grown).map Sprout.bare =
      (Sprout.node k s'.grown.reverse :: s.grown).map Sprout.bare ++ base
    have hgrown := h'.grown
    rw [List.append_nil] at hgrown
    rw [List.map_cons, List.map_cons, h.grown, Sprout.bare, Sprout.bare, Sprout.bareIn_eq_map, Sprout.bareIn_eq_map,
      List.map_reverse, List.map_reverse, hgrown]
    rfl
  spent := fun hmore => by
    obtain ⟨taken, hrest, hgrown, -⟩ := hs.moved
    have hnil : s.inner.grownWords = [] := rfl
    have hall : s'.grownWords.length + s'.rest.length = s.rest.length := by
      rw [hgrown, hnil, List.nil_append, ← List.length_append, ← hrest]
      rfl
    have hwords : (s.close s' k).grownWords.length = s.grownWords.length + s'.grownWords.length := by
      simp [State.close, State.grownWords, Sprout.wordsIn, Sprout.words]
    have hpos : s.rest.length ≠ 0 := by
      have := hn hmore
      rw [State.kinds, List.length_map] at this
      omega
    have hspent := h'.spent hmore
    rw [hall] at hspent
    rw [hwords, show (s.close s' k).rest = s'.rest from rfl, Nat.add_assoc, hall]
    change Sprout.spendIn (.node k s'.grown.reverse :: s.grown).reverse _ = _
    rw [List.reverse_cons, Sprout.spendIn_append, h.spent hmore, Option.bind_some]
    simp only [Sprout.spendIn, Sprout.spend, if_neg hpos, hspent, Option.bind_some]

/-- The words left before the last sprout. -/
lemma split (h : Shadows more base s t) (hmore : more ≠ []) :
    ∃ i, Sprout.spendIn (s.grown.drop 1).reverse (s.grownWords.length + s.rest.length) = some i ∧
      Sprout.spendIn (s.grown.take 1).reverse i = some s.rest.length := by
  have hsplit : s.grown.reverse = (s.grown.drop 1).reverse ++ (s.grown.take 1).reverse := by
    rw [← List.reverse_append, List.take_append_drop]
  have hspent := h.spent hmore
  rwa [hsplit, Sprout.spendIn_append, Option.bind_eq_some_iff] at hspent

/-- The last sprout starts a new node in both states. -/
lemma taken (h : Shadows more [] s t) : Shadows more [] s.taken t.taken where
  rest := h.rest
  previous := h.previous
  stop := h.stop
  grown := by
    have hgrown := h.grown
    rw [List.append_nil] at hgrown ⊢
    rw [State.taken, State.taken, List.map_take, List.map_take, hgrown]
  spent := fun hmore => by
    obtain ⟨i, -, hlast⟩ := h.split hmore
    have hi := Sprout.eq_of_spendIn _ hlast
    change Sprout.spendIn (s.grown.take 1).reverse ((Sprout.wordsIn (s.grown.take 1).reverse).length + s.rest.length) = _
    rw [← hi]
    exact hlast

/-- A node around the last sprout ends in both states. -/
lemma closeOver (h : Shadows more [] s t) {s' t' : State} (hs : Reaches s.taken s') (h' : Shadows more [] s' t')
    (hn : Sees more s.kinds 0) (k : Kind) : Shadows more [] (s.closeOver s' k) (t.closeOver t' k) where
  rest := h'.rest
  previous := h'.previous
  stop := h'.stop
  grown := by
    change (Sprout.node k t'.grown.reverse :: t.grown.drop 1).map Sprout.bare =
      (Sprout.node k s'.grown.reverse :: s.grown.drop 1).map Sprout.bare ++ []
    have hgrown := h.grown
    have hgrown' := h'.grown
    rw [List.append_nil] at hgrown hgrown' ⊢
    rw [List.map_cons, List.map_cons, Sprout.bare, Sprout.bare, Sprout.bareIn_eq_map, Sprout.bareIn_eq_map,
      List.map_reverse, List.map_reverse, hgrown', List.map_drop, List.map_drop, hgrown]
  spent := fun hmore => by
    obtain ⟨i, hfirst, hlast⟩ := h.split hmore
    have hi := Sprout.eq_of_spendIn _ hlast
    obtain ⟨taken, hrest, hgrown, -⟩ := hs.moved
    have hall : s'.grownWords.length + s'.rest.length = i := by
      have hlen := congrArg List.length hrest
      have hwords := congrArg List.length hgrown
      simp only [State.taken, State.grownWords, List.length_append] at hlen hwords hi ⊢
      omega
    have hwords : (s.closeOver s' k).grownWords.length =
        (Sprout.wordsIn (s.grown.drop 1).reverse).length + s'.grownWords.length := by
      simp [State.closeOver, State.grownWords, Sprout.wordsIn, Sprout.words]
    have hpos : i ≠ 0 := by
      have := hn hmore
      rw [State.kinds, List.length_map] at this
      omega
    have hspent := h'.spent hmore
    rw [hall] at hspent
    rw [hwords, show (s.closeOver s' k).rest = s'.rest from rfl, Nat.add_assoc, hall,
      ← Sprout.eq_of_spendIn _ hfirst]
    change Sprout.spendIn (.node k s'.grown.reverse :: s.grown.drop 1).reverse _ = _
    rw [List.reverse_cons, Sprout.spendIn_append, hfirst, Option.bind_some]
    simp only [Sprout.spendIn, Sprout.spend, if_neg hpos, hspent, Option.bind_some]

end Shadows

/-! ## Local parsers -/

/-- A parser is local on a piece whose words are of the kinds `ks`, of which `m` tells whether a word has been taken:
from states that stand at the same place it comes to states that stand at the same place, and with the same answer.
`Q` tells where that is. -/
def Local (more : List Word) (base : List Sprout) (m : Bool) (ks : List Kind) (p : Parser α)
    (Q : α → Bool → List Kind → Prop) : Prop :=
  ∀ s t : State, Shadows more base s t → s.previous.isSome = m → s.kinds = ks → (p.run s).2.panic = none →
    (p.run t).1 = (p.run s).1 ∧ Shadows more base (p.run s).2 (p.run t).2 ∧
      Q (p.run s).1 (p.run s).2.previous.isSome (p.run s).2.kinds

/-- A word has been taken, and words of the kinds `ks` are left. -/
abbrev Stays (ks : List Kind) : Unit → Bool → List Kind → Prop := fun _ m' ks' => m' = true ∧ ks' = ks

/-- A parser answers a question and takes no word. -/
abbrev Answers (more : List Word) (base : List Sprout) (m : Bool) (ks : List Kind) (q : Parser Bool) (Y N : Prop) :
    Prop :=
  Local more base m ks q fun v m' ks' => m' = m ∧ ks' = ks ∧ (v = true → Y) ∧ (v = false → N)

namespace Local

variable {more : List Word} {base : List Sprout} {m : Bool} {ks : List Kind} {p : Parser α}
  {Q Q' : α → Bool → List Kind → Prop} {k : α → Parser β} {R : β → Bool → List Kind → Prop}

lemma mono (h : Local more base m ks p Q) (hQ : ∀ a m' ks', Q a m' ks' → Q' a m' ks') :
    Local more base m ks p Q' := by
  intro s t hst hm hks hcalm
  obtain ⟨hanswer, hst', hQ'⟩ := h s t hst hm hks hcalm
  exact ⟨hanswer, hst', hQ _ _ _ hQ'⟩

/-! ### Sequences -/

lemma pure {a : α} (h : Q a m ks) : Local more base m ks (Pure.pure a) Q := by
  rintro s t hst rfl rfl -
  exact ⟨rfl, hst, h⟩

lemma bind (hp : Local more base m ks p Q) (hk : ∀ a m' ks', Q a m' ks' → Local more base m' ks' (k a) R) :
    Local more base m ks (p >>= k) R := by
  intro s t hst hm hks hcalm
  rw [run_bind] at hcalm
  obtain ⟨hanswer, hst', hQ⟩ := hp s t hst hm hks (((k (p.run s).1).forward (p.run s).2).calm hcalm)
  rw [run_bind, run_bind, hanswer]
  exact hk _ _ _ hQ _ _ hst' rfl rfl hcalm

lemma map (hp : Local more base m ks p Q) {f : α → β} (hf : ∀ a m' ks', Q a m' ks' → R (f a) m' ks') :
    Local more base m ks (f <$> p) R := by
  intro s t hst hm hks hcalm
  obtain ⟨hanswer, hst', hQ⟩ := hp s t hst hm hks hcalm
  exact ⟨congrArg f hanswer, hst', hf _ _ _ hQ⟩

/-! ### Looking -/

lemma look {f : State → α} (hf : ∀ s t, Shadows more base s t → s.previous.isSome = m → s.kinds = ks → f t = f s) :
    Local more base m ks (Parser.look f) fun _ m' ks' => m' = m ∧ ks' = ks := by
  intro s t hst hm hks _
  exact ⟨hf s t hst hm hks, hst, hm, hks⟩

lemma nth {i : Nat} {k : Kind → Parser β} (hi : Sees more ks i) (h : Local more base m ks (k (ahead ks i)) R) :
    Local more base m ks (Parser.nth i >>= k) R := by
  rintro s t hst rfl rfl hcalm
  have hs : (Parser.nth i >>= k).run s = (k (ahead s.kinds i)).run s.looked := by
    rw [← kindAt_eq]
    rfl
  have ht : (Parser.nth i >>= k).run t = (k (ahead s.kinds i)).run t.looked := by
    rw [← hst.nth hi]
    rfl
  rw [hs] at hcalm ⊢
  rw [ht]
  exact h _ _ hst.looked rfl rfl hcalm

lemma peek {k : Kind → Parser β} (hi : Sees more ks 0) (h : Local more base m ks (k (ahead ks 0)) R) :
    Local more base m ks (Parser.peek >>= k) R := nth hi h

lemma currentStart {k : Nat → Parser β} (hi : Sees more ks 0) (h : ∀ start, Local more base m ks (k start) R) :
    Local more base m ks (Parser.currentStart >>= k) R := by
  refine (look fun s t hst _ hks => ?_).bind fun start m' ks' ⟨hm, hks⟩ => hm ▸ hks ▸ h start
  rw [hst.currentSpan (hks ▸ hi)]

lemma spanSince {start : Nat} {k : Span → Parser β} (h : ∀ r, Local more base true ks (k r) R) :
    Local more base true ks (Parser.spanSince start >>= k) R := by
  refine bind (Q := fun _ m' ks' => m' = true ∧ ks' = ks) (fun s t hst hm hks _ => ?_)
    fun r m' ks' ⟨hm, hks⟩ => hm ▸ hks ▸ h r
  have hstop := hst.previousStop hm
  refine ⟨?_, ?_, ?_, ?_⟩
  · exact congrArg (Span.between start) hstop
  · simp only [Parser.spanSince, hstop]
    split
    · exact hst
    · exact hst.congr rfl rfl rfl rfl rfl rfl rfl rfl
  · simp only [Parser.spanSince]
    split <;> exact hm
  · simp only [Parser.spanSince]
    split <;> exact hks

end Local

/-! ### Questions -/

namespace Answers

variable {more : List Word} {base : List Sprout} {m : Bool} {ks : List Kind} {p q : Parser Bool}
  {Y N Y' N' : Prop}

lemma weaken (h : Answers more base m ks q Y N) (hY : Y → Y') (hN : N → N') : Answers more base m ks q Y' N' :=
  h.mono fun _ _ _ ⟨hm, hks, hyes, hno⟩ => ⟨hm, hks, fun h => hY (hyes h), fun h => hN (hno h)⟩

lemma pure (v : Bool) : Answers more base m ks (Pure.pure v) (v = true) (v = false) :=
  Local.pure ⟨rfl, rfl, id, id⟩

lemma nthIs {i : Nat} (hi : Sees more ks i) (k : Kind) :
    Answers more base m ks (Parser.nthIs i k) (ahead ks i = k) (ahead ks i ≠ k) :=
  Local.nth hi (.pure ⟨rfl, rfl, fun h => eq_of_beq h, fun h => ne_of_beq_false h⟩)

lemma isAt (hi : Sees more ks 0) (k : Kind) : Answers more base m ks (Parser.isAt k) (ahead ks 0 = k) (ahead ks 0 ≠ k) :=
  nthIs hi k

lemma isAtAny (hi : Sees more ks 0) (ls : KindSet) : Answers more base m ks (Parser.isAtAny ls)
    (ls.contains (ahead ks 0) = true) (ls.contains (ahead ks 0) = false) :=
  Local.peek hi (.pure ⟨rfl, rfl, id, id⟩)

lemma nth {i : Nat} {f : Kind → Parser Bool} (hi : Sees more ks i) (h : Answers more base m ks (f (ahead ks i)) Y N) :
    Answers more base m ks (Parser.nth i >>= f) Y N := Local.nth hi h

/-- A question about the kind of the next word. -/
lemma peek (hi : Sees more ks 0) (f : Kind → Bool) :
    Answers more base m ks (f <$> Parser.peek) (f (ahead ks 0) = true) (f (ahead ks 0) = false) :=
  Local.peek (k := fun j => Pure.pure (f j)) hi (.pure ⟨rfl, rfl, id, id⟩)

/-- The second question is only asked if the first is answered with yes. -/
lemma and (hp : Answers more base m ks p Y N) (hq : Y → Answers more base m ks q Y' N') :
    Answers more base m ks (p <&&> q) (Y ∧ Y') (N ∨ Y ∧ N') := by
  refine Local.bind hp fun v m' ks' ⟨hm, hks, hyes, hno⟩ => ?_
  subst hm hks
  cases v with
  | true => exact (hq (hyes rfl)).weaken (fun h => ⟨hyes rfl, h⟩) fun h => .inr ⟨hyes rfl, h⟩
  | false => exact Local.pure ⟨rfl, rfl, by simp, fun _ => .inl (hno rfl)⟩

/-- The second question is only asked if the first is answered with no. -/
lemma or (hp : Answers more base m ks p Y N) (hq : N → Answers more base m ks q Y' N') :
    Answers more base m ks (p <||> q) (Y ∨ N ∧ Y') (N ∧ N') := by
  refine Local.bind hp fun v m' ks' ⟨hm, hks, hyes, hno⟩ => ?_
  subst hm hks
  cases v with
  | true => exact Local.pure ⟨rfl, rfl, fun _ => .inl (hyes rfl), by simp⟩
  | false => exact (hq (hno rfl)).weaken (fun h => .inr ⟨hno rfl, h⟩) fun h => ⟨hno rfl, h⟩

lemma isAdjacent (hi : Sees more ks 0) (k : Kind) :
    Answers more base true ks (Parser.isAdjacent k) (ahead ks 0 = k) True := by
  have hlook : Answers more base true ks (Parser.look fun s => s.currentSpan.start == s.previousStop) True True := by
    refine (Local.look fun s t hst hm hks => ?_).mono fun _ _ _ ⟨hm, hks⟩ =>
      ⟨hm, hks, fun _ => trivial, fun _ => trivial⟩
    rw [hst.currentSpan (hks ▸ hi), hst.previousStop hm]
  exact (and (isAt hi k) fun _ => hlook).weaken And.left fun _ => trivial

end Answers

namespace Local

variable {more : List Word} {base : List Sprout} {m : Bool} {ks : List Kind} {p : Parser α}
  {Q : α → Bool → List Kind → Prop} {k : α → Parser β} {R : β → Bool → List Kind → Prop}

/-! ### Choices -/

lemma ask {q : Parser Bool} {k : Bool → Parser β} {Y N : Prop} (hq : Answers more base m ks q Y N)
    (yes : Y → Local more base m ks (k true) R) (no : N → Local more base m ks (k false) R) :
    Local more base m ks (q >>= k) R := by
  refine bind hq fun v m' ks' ⟨hm, hks, hyes, hno⟩ => ?_
  subst hm hks
  cases v with
  | true => exact yes (hyes rfl)
  | false => exact no (hno rfl)

variable {q : Parser Bool} {Y N : Prop}

lemma ite {y n : Parser β} (hq : Answers more base m ks q Y N) (yes : Y → Local more base m ks y R)
    (no : N → Local more base m ks n R) : Local more base m ks (q >>= fun v => if v = true then y else n) R :=
  ask hq yes no

lemma given {body : Parser Unit} {R : Unit → Bool → List Kind → Prop} (hq : Answers more base m ks q Y N)
    (yes : Y → Local more base m ks body R) (no : N → R () m ks) : Local more base m ks (Parser.given q body) R :=
  ask hq yes fun h => pure (no h)

lemma otherwise {body : Parser Unit} {R : Unit → Bool → List Kind → Prop} (hq : Answers more base m ks q Y N)
    (yes : Y → R () m ks) (no : N → Local more base m ks body R) : Local more base m ks (Parser.otherwise q body) R :=
  ask hq (fun h => pure (yes h)) no

/-! ### Taking words -/

lemma advance {j : Kind} : Local more base m (j :: ks) Parser.advance (Stays ks) := by
  intro s t hst _ hks _
  obtain ⟨w, ws, hw, -, hws⟩ := List.map_eq_cons_iff.1 hks
  obtain ⟨hrest, -, -, -, hprev⟩ := State.advance_of_cons hw
  refine ⟨rfl, hst.advance hw, ?_, ?_⟩
  · exact congrArg Option.isSome hprev
  · exact (congrArg (List.map Word.kind) hrest).trans hws

/-- Whatever follows a word that is taken. -/
lemma take {j : Kind} {k : Unit → Parser β} (h : Local more base true ks (k ()) R) :
    Local more base m (j :: ks) (Parser.advance >>= k) R :=
  advance.bind fun _ _ _ ⟨hm, hks⟩ => hm ▸ hks ▸ h

lemma eat (hi : Sees more ks 0) {j : Kind} (hj : j ≠ .endOfInput) : Local more base m ks (Parser.eat j)
    fun v m' ks' => (v = true → m' = true ∧ ks = j :: ks') ∧ (v = false → m' = m ∧ ks' = ks ∧ ahead ks 0 ≠ j) := by
  refine ite (Answers.isAt hi j) (fun h => ?_) fun h => pure ⟨by simp, fun _ => ⟨rfl, rfl, h⟩⟩
  obtain ⟨ks', rfl⟩ := eq_cons_of_ahead h hj
  exact take (pure ⟨fun _ => ⟨rfl, rfl⟩, by simp⟩)

/-- What follows depends on whether a word was taken. -/
lemma ifEat (hi : Sees more ks 0) {j : Kind} (hj : j ≠ .endOfInput) {k : Bool → Parser β}
    (yes : ∀ ks', ks = j :: ks' → Local more base true ks' (k true) R)
    (no : ahead ks 0 ≠ j → Local more base m ks (k false) R) : Local more base m ks (Parser.eat j >>= k) R := by
  refine (eat hi hj).bind fun v m' ks' ⟨hyes, hno⟩ => ?_
  cases v with
  | true =>
    obtain ⟨rfl, hks⟩ := hyes rfl
    exact yes ks' hks
  | false =>
    obtain ⟨rfl, rfl, h⟩ := hno rfl
    exact no h

/-! ### Errors -/

lemma error (hi : Sees more ks 0) (p : Problem) : Local more base true ks (Parser.error p) (Stays ks) := by
  intro s t hst hm hks _
  refine ⟨rfl, ?_, hm, hks⟩
  have hspan := hst.errorSpan hm (hks ▸ hi)
  change Shadows more base (s.looked.withError p s.errorSpan) (t.looked.withError p t.errorSpan)
  rw [hspan]
  exact hst.looked.withError p _

lemma errorAt (r : Span) (p : Problem) : Local more base true ks (Parser.errorAt r p) (Stays ks) :=
  fun _ _ hst hm hks _ => ⟨rfl, hst.withError p r, hm, hks⟩

lemma errorSince (start : Nat) (p : Problem) : Local more base true ks (Parser.errorSince start p) (Stays ks) :=
  spanSince fun r => errorAt r p

lemma expected (hi : Sees more ks 0) (what : String) : Local more base true ks (Parser.expected what) (Stays ks) :=
  peek hi (error hi _)

lemma expect (hi : Sees more ks 0) {j : Kind} (hj : j ≠ .endOfInput) : Local more base true ks (Parser.expect j)
    fun _ m' ks' => m' = true ∧ (ks' = ks ∨ ks = j :: ks') :=
  ifEat hi hj (fun _ hks => pure ⟨rfl, .inr hks⟩) fun _ =>
    (expected hi _).mono fun _ _ _ ⟨hm, hks⟩ => ⟨hm, .inl hks⟩

/-! ### Nodes -/

lemma nodeBy {p : Parser Kind} {Q : Kind → Bool → List Kind → Prop} (hi : Sees more ks 0)
    (h : Local more [] m ks p Q) : Local more base m ks (Parser.nodeBy p) Q := by
  rintro s t hst rfl rfl hcalm
  obtain ⟨hanswer, hst', hQ⟩ := h s.inner t.inner hst.inner rfl rfl hcalm
  refine ⟨hanswer, ?_, hQ⟩
  change Shadows more base (s.close (p.run s.inner).2 (p.run s.inner).1) (t.close (p.run t.inner).2 (p.run t.inner).1)
  rw [hanswer]
  exact hst.close (p.forward s.inner) hst' hi _

lemma node {k : Kind} {p : Parser Unit} {Q : Unit → Bool → List Kind → Prop} (hi : Sees more ks 0)
    (h : Local more [] m ks p Q) : Local more base m ks (Parser.node k p) Q :=
  map (nodeBy hi (bind h fun _ _ _ hQ => pure (Q := fun _ => Q ()) hQ)) fun _ _ _ hQ => hQ

lemma wrap {k : Kind} {p : Parser Unit} {Q : Unit → Bool → List Kind → Prop} (hi : Sees more ks 0)
    (h : Local more [] m ks p Q) : Local more [] m ks (Parser.wrap k p) Q := by
  rintro s t hst rfl rfl hcalm
  obtain ⟨-, hst', hQ⟩ := h s.taken t.taken hst.taken rfl rfl hcalm
  exact ⟨rfl, hst.closeOver (p.forward s.taken) hst' hi k, hQ⟩

/-! ### Repetition -/

/-- Where a round of a loop leads: `R` holds if it was the last, else `I` does. -/
def Goes (I R : σ → Bool → List Kind → Prop) : ForInStep σ → Bool → List Kind → Prop
  | .done y => R y
  | .yield y => I y

/-- A loop is local if its rounds are. `I` holds between rounds. -/
lemma loop {I R : σ → Bool → List Kind → Prop} {body : σ → Parser (ForInStep σ)} {x : σ} (hx : I x m ks)
    (h : ∀ x m ks, I x m ks → Local more base m ks (body x) (Goes I R)) :
    Local more base m ks (Parser.loop x body) R := by
  -- The longer input allows for more rounds, but there are no more of them.
  have key : ∀ n n' x (s t : State), n ≤ n' → Shadows more base s t → I x s.previous.isSome s.kinds →
      ((rounds body n x).run s).2.panic = none →
      ((rounds body n' x).run t).1 = ((rounds body n x).run s).1 ∧
        Shadows more base ((rounds body n x).run s).2 ((rounds body n' x).run t).2 ∧
        R ((rounds body n x).run s).1 ((rounds body n x).run s).2.previous.isSome
          ((rounds body n x).run s).2.kinds := by
    intro n
    induction n with
    | zero =>
      intro n' x s t _ _ _ hcalm
      exact absurd (Option.or_eq_none_iff.1 hcalm).2 (by simp)
    | succ n ih =>
      intro n' x s t hn hst hI hcalm
      obtain ⟨n', rfl⟩ : ∃ i, n' = i + 1 := ⟨n' - 1, by omega⟩
      rw [rounds, run_bind] at hcalm
      rw [rounds, rounds, run_bind, run_bind]
      have hbody : ((body x).run s).2.panic = none := by
        cases hr : ((body x).run s).1 with
        | done y =>
          rw [hr] at hcalm
          exact hcalm
        | yield y =>
          rw [hr] at hcalm
          exact ((rounds body n y).forward _).calm hcalm
      obtain ⟨hanswer, hst', hgoes⟩ := h x _ _ hI s t hst rfl rfl hbody
      rw [hanswer]
      cases hr : ((body x).run s).1 with
      | done y =>
        rw [hr] at hgoes
        exact ⟨rfl, hst', hgoes⟩
      | yield y =>
        rw [hr] at hgoes hcalm
        exact ih n' y _ _ (by omega) hst' hgoes hcalm
  rintro s t hst rfl rfl hcalm
  have hlen := congrArg List.length hst.tokens
  simp only [List.length_append, List.length_map] at hlen
  exact key (s.left + 1) (t.left + 1) x s t (by rw [s.left_eq, t.left_eq]; omega) hst hx hcalm

lemma repeatWhile {I : Bool → List Kind → Prop} {R : Unit → Bool → List Kind → Prop} {body : Parser Bool}
    (hx : I m ks) (h : ∀ m ks, I m ks →
      Local more base m ks body fun v m' ks' => (v = true → I m' ks') ∧ (v = false → R () m' ks')) :
    Local more base m ks (Parser.repeatWhile body) R := by
  refine loop (I := fun _ => I) hx fun _ m ks hI => (h m ks hI).bind fun v m' ks' ⟨hyes, hno⟩ => ?_
  cases v with
  | true => exact pure (hyes rfl)
  | false => exact pure (hno rfl)

/-! ### Recovery -/

lemma expectedAndAdvance {j : Kind} (what : String) :
    Local more base true (j :: ks) (Parser.expectedAndAdvance what) (Stays ks) := by
  have hi : Sees more (j :: ks) 0 := fun _ => Nat.zero_lt_succ _
  exact peek hi (node hi ((error hi _).bind fun _ _ _ ⟨hm, hks⟩ => hm ▸ hks ▸ advance))

/-- A word that recovery may not swallow is left. -/
lemma expectedOr (hi : Sees more ks 0) (what : String) (recovery : KindSet) :
    Local more base true ks (Parser.expectedOr what recovery) fun _ m' ks' => m' = true ∧
      (ks' = ks ∨ ∃ j, ks = j :: ks' ∧ recovery.contains j = false) := by
  refine ite (.or (.isAtAny hi recovery) fun _ => .isAt hi .endOfInput) (fun _ => ?_) fun ⟨hcontains, hend⟩ => ?_
  · exact (expected hi what).mono fun _ _ _ ⟨hm, hks⟩ => ⟨hm, .inl hks⟩
  · obtain ⟨ks', hks⟩ := eq_cons_of_ahead (rfl : ahead ks 0 = _) hend
    generalize ahead ks 0 = j at hcontains hks
    subst hks
    exact (expectedAndAdvance what).mono fun _ _ _ ⟨hm, hks⟩ => ⟨hm, .inr ⟨j, by rw [hks], hcontains⟩⟩

end Local

/-! ## Loops round by round -/

/-- The rounds of a loop lead from one state to another. -/
inductive Loops (body : Parser Bool) : State → State → Prop
  /-- The last round. -/
  | last {s : State} (h : (body.run s).1 = false) : Loops body s (body.run s).2
  /-- A round, and those that follow. -/
  | next {s u : State} (h : (body.run s).1 = true) (rest : Loops body (body.run s).2 u) : Loops body s u

namespace Loops

variable {body : Parser Bool} {s u : State}

lemma reaches (h : Loops body s u) : Reaches s u := by
  induction h with
  | last => exact body.forward _
  | next _ _ ih => exact (body.forward _).trans ih

/-- What comes behind a round that is not the last. -/
lemma behind (h : Loops body s u) (hs : (body.run s).1 = true) : Loops body (body.run s).2 u := by
  cases h with
  | last h => exact absurd (h.symm.trans hs) Bool.false_ne_true
  | next _ rest => exact rest

/-- What comes behind the last round. -/
lemma eq_of_last (h : Loops body s u) (hs : (body.run s).1 = false) : u = (body.run s).2 := by
  cases h with
  | last => rfl
  | next h _ => exact absurd (hs.symm.trans h) Bool.false_ne_true

end Loops

/-- A loop that meets no failed assertion goes through its rounds. -/
lemma loops_repeatWhile {body : Parser Bool} {s : State} (h : ((repeatWhile body).run s).2.panic = none) :
    Loops body s ((repeatWhile body).run s).2 := by
  let step : Unit → Parser (ForInStep Unit) := fun _ => do
    if ← body then pure (.yield ()) else pure (.done ())
  have key : ∀ n s, ((rounds step n ()).run s).2.panic = none → Loops body s ((rounds step n ()).run s).2 := by
    intro n
    induction n with
    | zero => exact fun s hcalm => absurd (Option.or_eq_none_iff.1 hcalm).2 (by simp)
    | succ n ih =>
      intro s hcalm
      have hstep : (step ()).run s =
          (if (body.run s).1 = true then .yield () else .done (), (body.run s).2) := by
        simp only [step, run_bind]
        split <;> rfl
      rw [rounds, run_bind, hstep] at hcalm ⊢
      cases hr : (body.run s).1 with
      | true =>
        rw [hr] at hcalm
        exact .next hr (ih _ hcalm)
      | false => exact .last hr
  exact key (s.left + 1) s h

end Parser

end GoFront
