import GoFront.Proofs.Parse.Source.Basic
import GoFront.Proofs.Parse.Source.Type

/-!
# The source grammar comes to its end: operands
-/

namespace GoFront.Source

open GoFront.Parser

variable {b : Frame} {ws : List Word} {g : Nested} (hg : g.Sound b)

/-- Operators that stand before their operand. -/
def unaryOperators : KindSet := .ofList [.plus, .minus, .bang, .caret, .star, .amp]

/-- A word that starts an expression is such an operator or starts an operand. -/
lemma unary_or_operand {k : Kind} (h : expressionStart.contains k = true) :
    unaryOperators.contains k = true ∨ k ∈ [.intNumber, .floatNumber, .imaginaryNumber, .rune, .string,
      .rawString, .unterminatedString, .unterminatedRawString, .unterminatedRune, .identifier, .leftParen,
      .funcKeyword, .leftBracket, .mapKeyword, .chanKeyword, .structKeyword, .interfaceKeyword,
      .arrow] := by
  revert h
  cases k <;> decide

include hg

lemma takes_literalValue (h : ws ≠ []) : Fits b ws (literalValue g) never 0 47 := by
  have hvalue : ∀ ws, Fits b ws (elementValue? g) (· = none) 14 26 := fun ws =>
    .ite (.isAt _) (fun h => (Fits.map (S := never) (hg.literalValue h) fun _ => False.elim).within)
      fun _ => fits_expression? hg
  have helement : ∀ ws, Fits b ws (element g) (· = false) 14 27 := fun ws => by
    refine (hvalue ws).bind (fun v hv => by subst hv; exact .pure rfl) fun v ws' _ => ?_
    cases v with
    | none => exact .pure trivial
    | some _ =>
      refine .andPure (S := anyway) (.given (.isAt _) (fun h => ?_) fun _ => trivial) fun _ _ => trivial
      refine .wrap (.take (ne_nil_of_kindAt h (by decide)) fun ws'' _ => ?_)
      exact ((hvalue ws'').map fun _ _ => trivial).within
  have helements : ∀ ws, Fits b ws (repeatWhile do
      if ← isAt .rightBrace <||> isAt .endOfInput then pure false
      else if ← element g then eat .comma
      else pure false) anyway 16 44 := fun ws => by
    refine .repeatWhile (c := 28) fun ws' _ => .ite ((Asks.isAt _).or (.isAt _)) (fun _ => .pure rfl) fun _ => ?_
    refine (helement ws').bind (fun v hv => by subst hv; exact .pure rfl) fun v _ _ => ?_
    cases v with
    | true => exact (Fits.eat _).weaken
    | false => exact .pure trivial
  refine .nodeBy (.take h fun ws' _ => (Fits.withComposites (helements ws')).seq fun _ _ _ => ?_)
  exact ((Fits.expect _).andPure fun _ h => h).within

/-- An operand, or none if the next word starts none. -/
lemma fits_operand? : Fits b ws (operand? g)
    (fun v => v = none ∧ (expressionStart.contains (kindAt ws 0) = true →
      unaryOperators.contains (kindAt ws 0) = true)) 5 34 := by
  have hleaf : ∀ k : Kind, ws ≠ [] → Fits b ws (some <$> nodeBy do
      advance
      pure k) never 0 0 := fun k hws =>
    .map (S := never) (.nodeBy (.take hws fun _ _ => .pure trivial)) fun _ => False.elim
  refine .peek ?_
  split
  iterate 10
    · next h => exact (hleaf _ (ne_nil_of_kindAt h (by decide))).of_never
  · next h =>
    refine .map (S := never) (.nodeBy (.take (ne_nil_of_kindAt h (by decide)) fun _ _ => ?_)) fun _ => False.elim
    refine (Fits.withComposites (fits_expression hg)).seq fun _ _ _ => ?_
    exact ((Fits.expect _).andPure fun _ h => h).within
  · next h =>
    refine .map (S := never) (.nodeBy (.take (ne_nil_of_kindAt h (by decide)) fun _ _ => ?_)) fun _ => False.elim
    refine (fits_signature hg).seq fun _ _ _ => .ite (.isAt _) (fun h => ?_) fun _ => .pure trivial
    exact ((takes_block hg h).andPure fun _ _ => trivial).within
  iterate 6
    · next h => exact (takes_type? hg (by rw [h]; decide)).of_never
  · refine .pure ⟨rfl, fun hstart => (unary_or_operand hstart).resolve_right fun hmem => ?_⟩
    simp only [List.mem_cons, List.not_mem_nil, or_false] at hmem
    rcases hmem with h | h | h | h | h | h | h | h | h | h | h | h | h | h | h | h | h | h <;> contradiction

lemma takes_selector (h : ws ≠ []) : Fits b ws (selector g) never 0 13 := by
  refine .wrapBy (.take h fun ws' _ => .ifEat (by decide) (fun _ ws'' _ => ?_) fun _ => ?_)
  · have htype : Fits b ws'' (otherwise (eat .typeKeyword) (type g)) anyway 9 8 :=
      .otherwiseAfter (Fits.eat _) fun _ _ => (fits_type hg).within
    exact htype.seq fun _ _ _ => ((Fits.expect _).andPure fun _ h => h).within
  · exact (fits_nameRef.andPure fun _ h => h).within

lemma takes_argumentList (h : ws ≠ []) : Fits b ws (argumentList g) never 0 46 := by
  have harguments : ∀ ws, Fits b ws (repeatWhile do
      if ← isAt .rightParen <||> isAt .endOfInput then pure false
      else if (← expression? g).isNone then pure false
      else
        let _ ← eat .ellipsis
        eat .comma) anyway 15 43 := fun ws => by
    refine .repeatWhile (c := 28) fun ws' _ => .ite ((Asks.isAt _).or (.isAt _)) (fun _ => .pure rfl) fun _ => ?_
    refine (fits_expression? hg).bind (fun v hv => by subst hv; exact .pure rfl) fun v _ _ => ?_
    cases v with
    | none => exact .pure trivial
    | some _ => exact (Fits.eat _).seq fun _ _ _ => (Fits.eat _).weaken
  exact .node (.take h fun ws' _ => (Fits.withComposites (harguments ws')).seq
    fun _ _ _ => (Fits.expect _).within)

lemma fits_sliceBounds : Fits b ws (sliceBounds g) anyway 1 27 := by
  refine .loopAny (c := 26) fun _ ws' _ => .ifEat (by decide) (fun _ ws'' _ => ?_) fun _ => .pure ⟨_, rfl⟩
  refine .andPure (S := anyway) ?_ fun _ _ => trivial
  exact .otherwise ((Asks.isAt _).or (.isAt _)) (fun _ => trivial) fun _ => (fits_expression hg).within

lemma fits_indices : Fits b ws (indices g) anyway 14 27 := by
  refine (fits_expression hg).seq fun _ _ _ => .within (a := 1) (c := 27) ?_
  refine .repeatWhile (c := 26) fun _ _ => .ifEat (by decide) (fun _ _ _ => ?_) fun _ => .pure rfl
  refine .ite (.isAt _) (fun _ => .pure trivial) fun _ => ?_
  exact ((fits_expression hg).andPure fun _ _ => trivial).within

lemma takes_index (h : ws ≠ []) : Fits b ws (index g) never 0 31 := by
  have hbounds : ∀ ws, Fits b ws (withComposites true do
      otherwise (isAt .colon) (indices g)
      sliceBounds g) anyway 16 28 := fun ws => by
    refine .withComposites (.seq (a := 15) (c := 27) (S := anyway) ?_ fun _ _ _ => (fits_sliceBounds hg).within)
    exact .otherwise (.isAt _) (fun _ => trivial) fun _ => fits_indices hg
  refine .wrapBy (.take h fun ws' _ => (hbounds ws').seq fun _ _ _ => ?_)
  exact ((Fits.expect _).andPure fun _ h => h).within

/-- What follows an operand takes a word if there is any. -/
lemma fits_suffix {operand : Kind} : Fits b ws (suffix g operand) (fun r => ∃ y, r = .done y) 1 47 := by
  refine .peek ?_
  split
  · next h =>
    exact .map (S := never) (takes_selector hg (ne_nil_of_kindAt h (by decide))).within fun _ => False.elim
  · next h =>
    refine .map (S := never) (.wrapBy ?_) fun _ => False.elim
    exact .andThen (takes_argumentList hg (ne_nil_of_kindAt h (by decide))) fun _ _ _ => .pure trivial
  · next h =>
    exact .map (S := never) (takes_index hg (ne_nil_of_kindAt h (by decide))).within fun _ => False.elim
  · next h =>
    refine .look fun allowed => ?_
    split
    · refine .map (S := never) (.wrapBy ?_) fun _ => False.elim
      exact .andThen (takes_literalValue hg (ne_nil_of_kindAt h (by decide))) fun _ _ _ => .pure trivial
    · exact .pure ⟨_, rfl⟩
  · exact .pure ⟨_, rfl⟩

lemma fits_primary? : Fits b ws (primary? g)
    (fun v => v = none ∧ (expressionStart.contains (kindAt ws 0) = true →
      unaryOperators.contains (kindAt ws 0) = true)) 5 48 := by
  refine (fits_operand? hg).bind (fun v hv => ?_) fun v _ _ => ?_
  · obtain ⟨rfl, h⟩ := hv
    exact .pure ⟨rfl, h⟩
  · cases v with
    | none => exact .pure trivial
    | some _ => exact (Fits.map (S := anyway) (.loopAny fun _ _ _ => fits_suffix hg) fun _ h => h).within

omit hg in
lemma asks_isAtUnaryOperator : Asks ws isAtUnaryOperator
    (unaryOperators.contains (kindAt ws 0) = true ∨ kindAt ws 0 = .arrow)
    (unaryOperators.contains (kindAt ws 0) = false) 2 := by
  refine .nth 0 (n := 1) ?_
  split
  iterate 6
    · next h => exact (Asks.pure true).mono (fun _ => .inl (by rw [h]; decide)) Bool.noConfusion
  · next h => exact (Asks.nthIs 1 .chanKeyword).not.mono (fun _ => .inr h) fun _ => by rw [h]; decide
  · refine (Asks.pure false).mono Bool.noConfusion fun _ => ?_
    rw [unaryOperators, KindSet.contains_ofList]
    simp_all

lemma takes_operandInner (h : expressionStart.contains (kindAt ws 0) = true) :
    Fits b ws (operandInner g) never 7 48 := by
  refine .ite asks_isAtUnaryOperator (fun _ => .peek ?_) fun hop => ?_
  · refine .map (S := never) (.nodeBy (.take (ne_nil_of_contains h) fun _ _ => ?_)) fun _ => False.elim
    refine .andPure (S := anyway) ?_ fun _ _ => trivial
    exact .givenAfter (Fits.map (Q := anyway) (fits_unary? hg) fun _ _ => trivial)
      fun _ _ => (Fits.error (by exact trivial)).within
  · refine (fits_primary? hg).mono (fun _ hv => ?_) (by omega) (by omega)
    rw [hv.2 h] at hop
    exact Bool.noConfusion hop

end GoFront.Source
