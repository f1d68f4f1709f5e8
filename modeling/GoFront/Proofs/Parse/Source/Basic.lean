import GoFront.Parse.Source.File
import GoFront.Proofs.Parse.Effort

/-!
# The source grammar comes to its end

Every production of the source grammar fits (`Parser.Fits`), on any input that it can be entered with. The
productions that lead one level down (`Nested.Sound`) need a few looks before they take their first word,
the same number on all levels; behind their last word there are a few looks more on each level than on the
one below.
-/

namespace GoFront.Source

open GoFront.Parser

/-- The productions one level down fit. -/
structure Nested.Sound (b : Frame) (g : Nested) : Prop where
  operand : ∀ {ws}, expressionStart.contains (kindAt ws 0) = true → Fits b ws g.operand never 8 0
  type : ∀ {ws}, typeStart.contains (kindAt ws 0) = true → Fits b ws g.type never 3 0
  statement : ∀ {ws}, Fits b ws g.statement anyway 17 0
  literalValue : ∀ {ws}, kindAt ws 0 = .leftBrace → Fits b ws g.literalValue never 3 0

variable {b : Frame} {ws : List Word}

/-- There is a word where the kind is in a set that the end of the input is not in. -/
lemma ne_nil_of_contains {ks : KindSet} (h : ks.contains (kindAt ws 0) = true)
    (hk : autoParam (ks.contains .endOfInput = false) Rat.normalize._auto_1) : ws ≠ [] := by
  rintro rfl
  rw [show kindAt [] 0 = .endOfInput from rfl, hk] at h
  exact Bool.noConfusion h

/-! ## Names and starts of declarations -/

lemma fits_name {what : String} : Fits b ws (name what) anyway 3 0 :=
  .ite (.isAt _) (fun h => (Fits.node (.advance (ne_nil_of_kindAt h (by decide)))).weaken)
    fun _ => (Fits.expected what).within

lemma takes_name {what : String} (h : kindAt ws 0 = .identifier) : Fits b ws (name what) never 1 0 :=
  .ite (.isAt _) (fun h => (Fits.node (.advance (ne_nil_of_kindAt h (by decide)))).within)
    fun hne => absurd h hne

lemma fits_nameRef {what : String} : Fits b ws (nameRef what) anyway 3 0 :=
  .ite (.isAt _) (fun h => (Fits.node (.advance (ne_nil_of_kindAt h (by decide)))).weaken)
    fun _ => (Fits.expected what).within

lemma asks_startsDeclaration (n : Nat) : Asks ws (startsDeclaration n) True True 2 := by
  refine ((Asks.look _).and (.nth (Y := True) (N := True) (n := 1) n ?_)).weaken
  split
  iterate 5 exact (Asks.pure true).weaken
  · exact .nth (n + 1) (n := 0) (Asks.pure _).weaken
  · exact (Asks.pure false).weaken

lemma asks_breaksBlock : Asks ws breaksBlock True True 2 := by
  refine ((Asks.look _).and (.nth (Y := True) (N := True) (n := 1) 0 ?_)).weaken
  split
  iterate 2 exact (Asks.pure true).weaken
  · exact (Asks.nthIs 1 .identifier).weaken
  · exact (Asks.pure false).weaken

/-! ## Skipping -/

/-- A round of skipping takes a word, unless it is the last one. -/
lemma fits_skipRound {depth : Nat} : Fits b ws (skipRound depth) (fun r => ∃ y, r = .done y ∧
    (closers.contains (kindAt ws 0) = true ∨ kindAt ws 0 = .endOfInput)) 2 0 := by
  refine .ite (.isAt _) (fun h => .pure ⟨depth, rfl, .inr h⟩) fun hne => .peek ?_
  have hws : ws ≠ [] := ne_nil_of_kindAt rfl hne
  split
  iterate 3 exact .take hws fun _ _ => .pure trivial
  iterate 5
    · next h =>
      split
      · exact .pure ⟨depth, rfl, .inl (by rw [h]; decide)⟩
      · exact .take hws fun _ _ => .pure trivial
  · exact .take hws fun _ _ => .pure trivial

lemma fits_tooDeep : Fits b ws tooDeep
    (fun _ => closers.contains (kindAt ws 0) = true ∨ kindAt ws 0 = .endOfInput) 3 2 := by
  have hskip : Fits b ws skipTooDeep
      (fun _ => closers.contains (kindAt ws 0) = true ∨ kindAt ws 0 = .endOfInput) 2 2 :=
    (Fits.loop fits_skipRound fun _ _ _ => fits_skipRound.mono (fun _ ⟨y, hy, _⟩ => ⟨y, hy⟩)
      (Nat.le_refl _) (Nat.le_refl _)).map fun _ h => h
  exact .nodeBy (.andError trivial (hskip.andPure fun _ h => h))

lemma takes_tooDeep (hclose : closers.contains (kindAt ws 0) = false) (hend : kindAt ws 0 ≠ .endOfInput) :
    Fits b ws tooDeep never 3 2 := by
  refine fits_tooDeep.mono (fun _ h => ?_) (Nat.le_refl _) (Nat.le_refl _)
  rcases h with h | h
  · simp [h] at hclose
  · exact hend h

/-- A word that starts an expression or a type closes nothing. -/
lemma not_closers {k : Kind} (h : expressionStart.contains k = true ∨ typeStart.contains k = true) :
    closers.contains k = false ∧ k ≠ .endOfInput := by
  revert h
  cases k <;> decide

lemma sound_bottom (b : Frame) : Nested.bottom.Sound { b with base := b.base + 2 } where
  operand h := ((takes_tooDeep (not_closers (.inl h)).1 (not_closers (.inl h)).2).map fun _ h => h).lift.within
  type h := ((takes_tooDeep (not_closers (.inr h)).1 (not_closers (.inr h)).2).map fun _ h => h).lift.within
  statement := (fits_tooDeep.map fun _ _ => trivial).lift.within
  literalValue h := (takes_tooDeep (by rw [h]; decide) (by rw [h]; decide)).lift.within

/-! ## Types and expressions -/

section

variable {g : Nested} (hg : g.Sound b)

include hg

lemma fits_type? : Fits b ws (type? g) (· = none) 4 0 :=
  .ite (.isAtAny _) (fun h => (hg.type h).of_never) fun _ => .pure rfl

lemma takes_type? (h : typeStart.contains (kindAt ws 0) = true) : Fits b ws (type? g) never 4 0 :=
  .ite (.isAtAny _) (fun h => (hg.type h).within) fun hne => by simp [h] at hne

lemma fits_type : Fits b ws (type g) anyway 8 4 :=
  (fits_type? hg).seq fun v ws' _ => by
    cases v with
    | none => exact Fits.expectedOr.within
    | some _ => exact .pure trivial

lemma takes_type (h : typeStart.contains (kindAt ws 0) = true) : Fits b ws (type g) never 4 4 :=
  (takes_type? hg h).andThen fun v ws' _ => by
    cases v with
    | none => exact Fits.expectedOr.within
    | some _ => exact .pure trivial

lemma fits_unary? : Fits b ws (unary? g) (· = none) 9 0 :=
  .ite (.isAtAny _) (fun h => (hg.operand h).of_never) fun _ => .pure rfl

/-- A tier of binary operators adds two looks: one for the missing operand, one behind the chain. -/
lemma fits_binary? (tiers least : Nat) {ws : List Word} :
    Fits b ws (binary? g tiers least) (· = none) 9 (2 * tiers + 10) := by
  induction tiers generalizing least ws with
  | zero => exact (fits_unary? hg).within
  | succ tiers ih =>
    refine (fits_unary? hg).bind (fun v hv => by subst hv; exact .pure rfl) fun v ws' _ => ?_
    cases v with
    | none => exact .pure trivial
    | some first =>
      refine ((Fits.loopAny (a := 1) (c := 2 * tiers + 11) fun left ws'' _ => .peek ?_).map fun _ h => h).within
      split
      · exact .pure ⟨left, rfl⟩
      · next strength hstrength =>
        split
        · exact .pure ⟨left, rfl⟩
        · have hws : ws'' ≠ [] := by
            rintro rfl
            simp [kindAt, precedence?] at hstrength
          refine Fits.map (S := never) (.wrapBy (.take hws fun _ _ => ?_)) fun _ h => h.elim
          refine .andPure (S := anyway) ?_ fun _ h => h
          exact .givenAfter (Fits.map (Q := anyway) (ih _) fun _ _ => trivial) fun _ _ => (Fits.error (by exact trivial)).within

lemma fits_expression? : Fits b ws (expression? g) (· = none) 13 26 := by
  refine (fits_binary? hg 6 1).bind (fun v hv => ?_) fun v ws' _ => ?_
  · subst hv
    exact (Fits.expectedOr.andPure fun _ _ => rfl).within
  · cases v with
    | none => exact (Fits.expectedOr.andPure fun _ _ => trivial).within
    | some _ => exact .pure trivial

lemma fits_expression : Fits b ws (expression g) anyway 13 26 :=
  (fits_expression? hg).map fun _ _ => trivial

omit hg in
/-- A list that goes on as long as there are commas. -/
lemma fits_commas {body : Parser Unit} {a c : Nat} (h : ∀ ws, Fits b ws body anyway a c) :
    Fits b ws (repeatWhile do
      if ← eat .comma then
        body
        pure true
      else pure false) anyway 1 (max a c + 1) :=
  .repeatWhile fun _ _ => .ifEat (by decide)
    (fun _ ws' _ => ((h ws').andPure fun _ _ => trivial).within) fun _ => .pure rfl

lemma fits_expressionList? : Fits b ws (expressionList? g) (· = none) 13 28 := by
  refine (fits_expression? hg).bind (fun v hv => ?_) fun v ws' _ => ?_
  · subst hv
    exact .pure rfl
  · cases v with
    | none => exact .pure trivial
    | some _ =>
      refine .ite (.isAt _) (fun _ => ?_) fun _ => .pure trivial
      exact (Fits.map (Q := anyway) (.wrapBy ((fits_commas fun _ => fits_expression hg).andPure fun _ h => h))
        fun _ h => h).within

lemma fits_expressionList : Fits b ws (expressionList g) anyway 13 28 :=
  (fits_expressionList? hg).map fun _ _ => trivial

omit hg in
lemma fits_separator {closer : Kind} : Fits b ws (separator closer) anyway 4 0 :=
  .ite (.isAt _) (fun _ => .pure trivial) fun _ =>
    .ifEat (by decide) (fun _ _ _ => .pure trivial) fun _ => (Fits.expected _).within

omit hg in
lemma fits_statementEnd : Fits b ws statementEnd anyway 5 0 :=
  .ite ((Asks.isAt _).or (.peek _)) (fun _ => .pure trivial) fun _ =>
    .ifEat (by decide) (fun _ _ _ => .pure trivial) fun _ => (Fits.expected _).within

lemma fits_statementRound : Fits b ws (statementRound g) (· = false) 22 5 := by
  refine .peek ?_
  split
  iterate 4 exact .pure rfl
  · next h => exact .take (ne_nil_of_kindAt h (by decide)) fun _ _ => .pure trivial
  · next hend _ _ _ =>
    have hws : ws ≠ [] := ne_nil_of_kindAt rfl hend
    split
    · exact .andThen (.node (.advance hws)) fun _ _ _ => .pure trivial
    · refine .ite asks_breaksBlock (fun _ => .pure rfl) fun _ => ?_
      exact .andThen (Fits.orSkip (A := 19) (C := 5) hws hg.statement fun _ _ => fits_statementEnd.within)
        fun _ _ _ => .pure trivial

lemma fits_statements : Fits b ws (statements g) anyway 22 27 :=
  .repeatWhile fun _ _ => fits_statementRound hg

lemma takes_block (h : kindAt ws 0 = .leftBrace) : Fits b ws (block g) never 1 30 :=
  .node <| (Fits.expect_of_kindAt h).andThen fun _ _ _ =>
    (Fits.withComposites (fits_statements hg)).seq fun _ _ _ => (Fits.expect _).within

end

end GoFront.Source
