import GoFront.Proofs.Parse.Source.Basic
import GoFront.Proofs.Parse.Source.Type

/-!
# The source grammar comes to its end: declarations and statements
-/

namespace GoFront.Source

open GoFront.Parser

variable {b : Frame} {ws : List Word} {g : Nested} (hg : g.Sound b)

/-! ## Declarations -/

/-- Specifications in a group, or one alone, if each of them fits. -/
lemma takes_declare {k : Kind} {spec : Parser Unit} {a c : Nat} (h : ws ≠ [])
    (hspec : ∀ ws, Fits b ws spec anyway a c) : Fits b ws (declare k spec) never 0 (a + c + 14) := by
  have hspecs : ∀ ws, Fits b ws (repeatWhile do
      if ← isAt .rightParen <||> isAt .endOfInput <||> startsDeclaration 0 then pure false
      else if ← eat .semicolon then pure true
      else
        orSkip spec "specification" (separator .rightParen)
        pure true) anyway (a + 7) (c + 4 + (a + 7)) := fun ws => by
    refine .repeatWhile fun ws' _ => .ite ((Asks.isAt _).or ((Asks.isAt _).or (asks_startsDeclaration 0)))
      (fun _ => .pure rfl) fun hend => ?_
    refine .ifEat (by decide) (fun _ _ _ => .pure trivial) fun _ => ?_
    have hskip : Fits b ws' (orSkip spec "specification" (separator .rightParen)) never (a + 2) (c + 4) :=
      .orSkip (ne_nil_of_kindAt rfl hend.2.1) (hspec ws') fun _ _ => fits_separator.within
    exact hskip.andThen fun _ _ _ => .pure trivial
  refine .node (.take h fun ws' _ => .ite (.isAt _) (fun h => ?_) fun _ => (hspec ws').within)
  exact .take (ne_nil_of_kindAt h (by decide)) fun ws'' _ =>
    (hspecs ws'').seq fun _ _ _ => (Fits.expect _).within

lemma fits_nameList : Fits b ws nameList anyway 5 5 := by
  refine fits_name.seq fun _ _ _ => .within (a := 2) (c := 5) ?_
  refine .repeatWhile (c := 3) fun _ _ => .ite ((Asks.isAt _).and (.nthIs 1 _)) (fun h => ?_) fun _ => .pure rfl
  refine .take (ne_nil_of_kindAt h.1 (by decide)) fun _ _ => ?_
  exact (fits_name.andPure fun _ _ => trivial).within

lemma fits_importSpec : Fits b ws importSpec anyway 7 3 := by
  refine .node (.seq (a := 4) (c := 0) (S := anyway) ?_ fun _ _ _ => .peek ?_)
  · exact .choose (.isAt _) (fun _ => fits_name.within) fun _ => (Fits.eat _).discard.weaken
  · split
    iterate 4
      · exact Fits.advance_any.within
    · exact (Fits.expected _).within

include hg

lemma fits_variableSpec : Fits b ws (variableSpec g) anyway 13 28 := by
  have hvalues : ∀ ws typed, Fits b ws (do
      given (pure typed) (discard (type? g))
      if ← eat .assign then expressionList g
      else unless typed do expected "type or '='") anyway 7 28 := fun ws typed => by
    refine .seq (a := 4) (c := 0) (S := anyway) ?_ fun _ _ _ => ?_
    · exact .given (.pure typed) (fun _ => (fits_type? hg).discard.weaken) fun _ => trivial
    · refine .ifEat (by decide) (fun _ _ _ => (fits_expressionList hg).within) fun _ => ?_
      cases typed with
      | true => exact .pure trivial
      | false => exact (Fits.expected _).within
  refine .node (fits_nameList.seq fun _ ws' _ => .looks (.isAtAny _) (fun _ => ?_) fun _ => ?_)
  · exact (hvalues ws' true).within
  · exact (hvalues ws' false).within

lemma fits_constantSpec : Fits b ws (constantSpec g) anyway 11 28 := by
  refine .node (fits_nameList.seq fun _ _ _ => .seq (a := 5) (c := 0) (S := anyway) ?_ fun _ _ _ => ?_)
  · exact .given (.isAtAny _) (fun _ => (fits_type? hg).discard.weaken) fun _ => trivial
  · exact .ifEat (by decide) (fun _ _ _ => (fits_expressionList hg).within) fun _ => .pure trivial

lemma fits_typeSpec : Fits b ws (typeSpec g) anyway 15 34 := by
  refine .node (fits_name.seq fun _ _ _ => .seq (a := 3) (c := 25) (S := anyway) ?_ fun _ _ _ => ?_)
  · refine .given ((Asks.isAt _).and ((Asks.nthIs 1 _).and (.not (.nthIs 2 _)))) (fun h => ?_) fun _ => trivial
    exact (takes_typeParameters hg (ne_nil_of_kindAt h.1 (by decide))).weaken
  · exact (Fits.eat _).seq fun _ _ _ => (fits_type hg).within

/-- A declaration is entered at its keyword only. -/
lemma takes_declaration (h : kindAt ws 0 = .varKeyword ∨ kindAt ws 0 = .constKeyword ∨
    kindAt ws 0 = .typeKeyword) : Fits b ws (declaration g) never 1 63 := by
  refine .peek ?_
  split
  · next h => exact (takes_declare (ne_nil_of_kindAt h (by decide)) fun _ => fits_variableSpec hg).within
  · next h => exact (takes_declare (ne_nil_of_kindAt h (by decide)) fun _ => fits_constantSpec hg).within
  · next h => exact (takes_declare (ne_nil_of_kindAt h (by decide)) fun _ => fits_typeSpec hg).within
  · rcases h with h | h | h <;> contradiction

lemma takes_functionDeclaration (h : ws ≠ []) : Fits b ws (functionDeclaration g) never 0 41 := by
  refine .node (.take h fun _ _ => .seq (a := 1) (c := 26) (S := anyway) ?_ fun _ _ _ => fits_name.seq
    fun _ _ _ => .seq (a := 1) (c := 25) (S := anyway) ?_ fun _ _ _ => (fits_signature hg).seq fun _ _ _ => ?_)
  · exact .given (.isAt _) (fun h => (takes_parameterList hg (ne_nil_of_kindAt h (by decide))).weaken)
      fun _ => trivial
  · exact .given (.isAt _) (fun h => (takes_typeParameters hg (ne_nil_of_kindAt h (by decide))).weaken)
      fun _ => trivial
  · exact .ite (.isAt _) (fun h => (takes_block hg h).weaken) fun _ => .pure trivial

/-! ## Simple statements -/

omit hg in
lemma fits_asStatement {k : Kind} : Fits b ws (asStatement k) anyway 0 0 := by
  unfold asStatement
  split
  · exact .pure trivial
  · exact .wrap (.pure trivial)

lemma takes_assignment {allowRange : Bool} {k : Kind} (h : ws ≠ []) :
    Fits b ws (assignment g allowRange k) never 1 28 := by
  refine .wrapBy (.peek (.take h fun _ _ => .ite ((Asks.pure _).and (.isAt _)) (fun _ => ?_) fun _ => ?_))
  · exact Fits.advance_any.seq fun _ _ _ => ((fits_expression hg).andPure fun _ h => h).within
  · exact ((fits_expressionList hg).andPure fun _ h => h).within

lemma fits_simpleRest {allowRange : Bool} {first : Kind} :
    Fits b ws (simpleRest g allowRange first) anyway 2 28 := by
  refine .peek ?_
  split
  · next k h =>
    have hws : ws ≠ [] := by
      rintro rfl
      have hnone : assignmentKind? (kindAt [] 0) = none := by decide
      exact Option.some_ne_none k (h.symm.trans hnone)
    exact (takes_assignment hg hws).weaken
  · split
    iterate 2
      · next h => exact .wrapBy (.take (ne_nil_of_kindAt h (by decide)) fun _ _ => .pure trivial)
    · next h =>
      refine .wrapBy (.take (ne_nil_of_kindAt h (by decide)) fun _ _ => ?_)
      exact ((fits_expression hg).andPure fun _ h => h).within
    · exact .pure trivial

lemma fits_simpleStatement? {allowRange : Bool} :
    Fits b ws (simpleStatement? g allowRange) (· = none) 14 30 := by
  refine .ite ((Asks.pure _).and (.isAt _)) (fun h => ?_) fun _ => ?_
  · refine .map (S := never) (.nodeBy (.take (ne_nil_of_kindAt h.2 (by decide)) fun _ _ => ?_)) fun _ => False.elim
    exact ((fits_expression hg).andPure fun _ h => h).within
  · refine (fits_expressionList? hg).bind (fun v hv => by subst hv; exact .pure rfl) fun v _ _ => ?_
    cases v with
    | none => exact .pure trivial
    | some _ => exact ((fits_simpleRest hg).map fun _ h => h).within

lemma fits_wholeStatement : Fits b ws (wholeStatement g) anyway 14 30 :=
  (fits_simpleStatement? hg).seq fun v _ _ => by
    cases v with
    | none => exact .pure trivial
    | some _ => exact fits_asStatement.within

omit hg in
lemma takes_branch {k : Kind} (h : ws ≠ []) : Fits b ws (branch k) never 0 4 :=
  .node (.take h fun _ _ => .ite (.isAt _) (fun _ => fits_nameRef.within) fun _ => .pure trivial)

lemma takes_spawn {k : Kind} (h : ws ≠ []) : Fits b ws (spawn g k) never 0 26 :=
  .node (.take h fun _ _ => (fits_expression hg).within)

/-! ## Blocks with headers -/

lemma fits_requiredBlock : Fits b ws (requiredBlock g) anyway 3 30 :=
  .ite (.isAt _) (fun h => (takes_block hg h).weaken) fun _ => (Fits.expected _).within

lemma fits_header : Fits b ws (header g) anyway 17 31 := by
  have hsimple : ∀ ws, Fits b ws (discard (simpleStatement? g false)) anyway 14 30 := fun ws =>
    (fits_simpleStatement? hg).map fun _ _ => trivial
  refine .withComposites (.ite (.isAt _) (fun _ => .pure trivial) fun _ => ?_)
  refine .seq (a := 15) (c := 30) (S := anyway) ?_ fun _ _ _ => .ifEat (by decide) (fun _ ws' _ => ?_)
    fun _ => .pure trivial
  · exact .otherwise (.isAt _) (fun _ => trivial) fun _ => hsimple ws
  · exact .ite (.isAt _) (fun _ => .pure trivial) fun _ => (hsimple ws').within

/-- Every `else if` is at least a word further on, so the links suffice. -/
lemma takes_ifChain {links : Nat} (h : kindAt ws 0 = .ifKeyword) (hlinks : ws.length ≤ links) :
    Fits b ws (ifChain g links) never 0 35 := by
  have hws : ∀ {ws : List Word}, kindAt ws 0 = .ifKeyword → ws ≠ [] := fun h => ne_nil_of_kindAt h (by decide)
  induction links generalizing ws with
  | zero => exact absurd (List.length_eq_zero_iff.1 (Nat.le_zero.1 hlinks)) (hws h)
  | succ links ih =>
    refine .node (.take (hws h) fun _ h₁ => .seq (a := 2) (c := 0) (S := anyway) ?_ fun _ _ h₂ =>
      (fits_header hg).seq fun _ _ h₃ => (fits_requiredBlock hg).seq fun _ _ h₄ =>
      .ifEat (by decide) (fun _ ws' h₅ => .peek ?_) fun _ => .pure trivial)
    · exact .given (.isAt _) (fun _ => Fits.error trivial) fun _ => trivial
    · split
      · next h => exact (ih h (by omega)).weaken
      · next h => exact (takes_block hg h).weaken
      · exact (Fits.expected _).within

lemma takes_ifStatement (h : kindAt ws 0 = .ifKeyword) : Fits b ws (ifStatement g) never 0 35 :=
  .remaining (takes_ifChain hg h (Nat.le_refl _))

lemma fits_forParts : Fits b ws (forParts g) anyway 32 44 := by
  refine Fits.advance_any.seq fun _ _ _ => .seq (a := 14) (c := 26) (S := anyway) ?_ fun _ _ _ =>
    (Fits.expect _).seq fun _ _ _ => ?_
  · exact .otherwise (.isAt _) (fun _ => trivial) fun _ => fits_expression hg
  · exact .ite (.isAt _) (fun _ => .pure trivial) fun _ => (fits_wholeStatement hg).within

lemma fits_forHeader : Fits b ws (forHeader g) anyway 48 63 := by
  refine .seq (a := 15) (c := 30) (S := anyway) ?_ fun init _ _ => ?_
  · exact .choose (.isAt _) (fun _ => .pure trivial) fun _ => (fits_simpleStatement? hg).weaken
  split
  · exact .pure trivial
  · refine .ite (.isAt _) (fun _ => ?_) fun _ => .pure trivial
    cases init with
    | none => exact .node (fits_forParts hg).within
    | some _ => exact fits_asStatement.seq fun _ _ _ => .wrap (fits_forParts hg).within

lemma takes_forStatement (h : ws ≠ []) : Fits b ws (forStatement g) never 0 66 := by
  refine .node (.take h fun _ _ => .seq (a := 49) (c := 63) (S := anyway) (.withComposites ?_) fun _ _ _ =>
    (fits_requiredBlock hg).within)
  exact .ite (.isAt _) (fun _ => .pure trivial) fun _ => fits_forHeader hg

lemma takes_clause {k : Kind} (h : ws ≠ []) : Fits b ws (clause g k) never 1 55 := by
  have hsubject : ∀ ws, Fits b ws (caseSubject g k) anyway 14 30 := fun ws => by
    unfold caseSubject
    split
    · exact (fits_simpleStatement? hg).map fun _ _ => trivial
    · exact (fits_expressionList hg).within
  have hhead : Fits b ws (choose (eat .caseKeyword) (caseSubject g k) advance) never 1 30 :=
    .ifEat (by decide) (fun _ ws' _ => (hsubject ws').within) fun _ => (Fits.advance h).within
  exact .node (hhead.andThen fun _ _ _ => (Fits.expect _).seq fun _ _ _ => (fits_statements hg).within)

lemma takes_clauseOrSkip {k : Kind} (h : ws ≠ []) : Fits b ws (clauseOrSkip g k) never 3 55 := by
  refine .peek ?_
  split
  iterate 2
    · exact (takes_clause hg h).within
  · exact (Fits.advance h).within
  · exact (Fits.expectedAndAdvance h).within

lemma fits_clauses {k : Kind} : Fits b ws (clauses g k) anyway 3 65 := by
  have hclauses : ∀ ws, Fits b ws (repeatWhile do
      if ← isAt .rightBrace <||> isAt .endOfInput <||> breaksBlock then pure false
      else
        clauseOrSkip g k
        pure true) anyway 7 62 := fun ws => by
    refine .repeatWhile (c := 55) fun ws' _ => .ite ((Asks.isAt _).or ((Asks.isAt _).or asks_breaksBlock))
      (fun _ => .pure rfl) fun hend => ?_
    exact (takes_clauseOrSkip hg (ne_nil_of_kindAt rfl hend.2.1)).andThen fun _ _ _ => .pure trivial
  refine .ifEat (by decide) (fun _ ws' _ => ?_) fun _ => (Fits.expected _).within
  exact (Fits.withComposites (hclauses ws')).seq fun _ _ _ => (Fits.expect _).within

/-! ## Statements -/

lemma takes_labeledStatement (h : kindAt ws 0 = .identifier) : Fits b ws (labeledStatement g) never 1 19 := by
  refine .node ((takes_name h).andThen fun _ _ _ => Fits.advance_any.seq fun _ _ _ => ?_)
  exact .ite ((Asks.isAt _).or (.isAt _)) (fun _ => .pure trivial) fun _ => hg.statement.within

lemma fits_statementInner : Fits b ws (statementInner g) anyway 17 66 := by
  refine .peek ?_
  split
  · next h => exact (Fits.node (takes_declaration hg (.inl h))).weaken
  · next h => exact (Fits.node (takes_declaration hg (.inr (.inl h)))).weaken
  · next h => exact (Fits.node (takes_declaration hg (.inr (.inr h)))).weaken
  · next h =>
    refine .node (.take (ne_nil_of_kindAt h (by decide)) fun _ _ => ?_)
    exact .ite (.isAtAny _) (fun _ => (fits_expressionList hg).within) fun _ => .pure trivial
  iterate 2
    · next h => exact (takes_branch (ne_nil_of_kindAt h (by decide))).weaken
  · next h => exact .node (.take (ne_nil_of_kindAt h (by decide)) fun _ _ => fits_nameRef.within)
  · next h => exact (Fits.node (.advance (ne_nil_of_kindAt h (by decide)))).weaken
  iterate 2
    · next h => exact (takes_spawn hg (ne_nil_of_kindAt h (by decide))).weaken
  · next h => exact (takes_ifStatement hg h).weaken
  · next h => exact (takes_forStatement hg (ne_nil_of_kindAt h (by decide))).weaken
  · next h =>
    refine .node (.take (ne_nil_of_kindAt h (by decide)) fun _ _ => ?_)
    exact (fits_header hg).seq fun _ _ _ => (fits_clauses hg).within
  · next h => exact .node (.take (ne_nil_of_kindAt h (by decide)) fun _ _ => (fits_clauses hg).within)
  · next h => exact (takes_block hg h).weaken
  · refine .ite ((Asks.pure _).and (.nthIs 1 _)) (fun h => ?_) fun _ => ?_
    · exact (takes_labeledStatement hg (eq_of_beq h.1)).weaken
    · exact .ite (.isAtAny _) (fun _ => (fits_wholeStatement hg).within) fun _ => .pure trivial

end GoFront.Source
