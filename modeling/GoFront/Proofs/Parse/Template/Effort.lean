import GoFront.Parse.Template.Document
import GoFront.Proofs.Parse.Total

/-!
# Every template has a tree

Every production of the template grammar fits (`Parser.Fits`), on any input that it can be entered with.
Directives report errors for stretches that start at their opening marker; the marker has been taken by
then, so such a stretch never ends before it starts (`fits_opened`).
-/

namespace GoFront.Template

open GoFront.Parser

/-- The productions one level down fit. -/
structure Nested.Sound (b : Frame) (g : Nested) : Prop where
  block : ∀ {ws inLoop}, kindAt ws 0 = .leftDelimiter → opensBlock (kindAt ws 1) = true →
    Fits b ws (g.block inLoop) never 4 0
  pipeline : ∀ {ws}, Fits b ws g.pipeline anyway 8 0

lemma Nested.Sound.raise {b : Frame} {g : Nested} (hg : g.Sound b) {m : Nat} (hm : b.floor ≤ m) :
    g.Sound { b with floor := m } :=
  ⟨fun h h' => (hg.block h h').raise hm, hg.pipeline.raise hm⟩

variable {b : Frame} {ws : List Word} {g : Nested} {d : Delimiters}

/-! ## Pipelines -/

lemma asks_isAtActionEnd : Asks ws isAtActionEnd (kindAt ws 0 = .rightDelimiter ∨ kindAt ws 0 = .endOfInput)
    (kindAt ws 0 ≠ .rightDelimiter ∧ kindAt ws 0 ≠ .endOfInput) 2 := (Asks.isAt _).or (.isAt _)

lemma fits_fields : Fits b ws fields anyway 1 1 :=
  .repeatWhile (c := 0) fun _ _ => .ite (.isAdjacent _)
    (fun h => .take (ne_nil_of_kindAt h (by decide)) fun _ _ => .pure trivial) fun _ => .pure rfl

lemma takes_leaf {k : Kind} (h : ws ≠ []) : Fits b ws (leaf k) never 0 0 :=
  .nodeBy (.take h fun _ _ => .pure trivial)

lemma fits_skipParens {depth : Nat} : Fits b ws (skipParens depth) (fun r => ∃ y, r = .done y) 3 0 := by
  refine .ite ((Asks.isAt _).or (.isAt _)) (fun _ => .pure ⟨_, rfl⟩) fun hend => .peek ?_
  have hws : ws ≠ [] := ne_nil_of_kindAt rfl hend.1
  split
  · exact .take hws fun _ _ => .pure trivial
  · split
    · exact .pure ⟨_, rfl⟩
    · exact .take hws fun _ _ => .pure trivial
  · exact .take hws fun _ _ => .pure trivial

lemma fits_skipPipeline : Fits b ws skipPipeline anyway 4 3 :=
  .node (.andError trivial (.map (S := anyway) (.loopAny fun _ _ _ => fits_skipParens) fun _ h => h))

lemma asks_isAtDeclaration : Asks ws isAtDeclaration True True 4 := by
  refine ((Asks.isAt _).and (.nth (Y := True) (N := True) (n := 2) 1 ?_)).weaken
  split
  iterate 2 exact (Asks.pure true).weaken
  · exact ((Asks.nthIs 2 _).and (.nth 3 (.pure _))).weaken
  · exact (Asks.pure false).weaken

lemma fits_declaration : Fits b ws declaration anyway 1 1 :=
  .node ((Fits.node .advance_any).seq fun _ _ _ => .seq (a := 1) (c := 0) (S := anyway)
    (.givenAfter (Fits.eat _) fun _ _ => (Fits.node .advance_any).within) fun _ _ _ => Fits.advance_any.within)

section

variable (hg : g.Sound b)

include hg

lemma fits_term? : Fits b ws (term? g) (· = none) 1 11 := by
  refine .peek ?_
  split
  · next h =>
    refine .map (S := never) (.nodeBy (.take (ne_nil_of_kindAt h (by decide)) fun _ _ => ?_)) fun _ => False.elim
    exact (fits_fields.andPure fun _ h => h).within
  · next h =>
    refine .map (S := never) (.nodeBy (.take (ne_nil_of_kindAt h (by decide)) fun _ _ => ?_)) fun _ => False.elim
    exact hg.pipeline.seq fun _ _ _ => ((Fits.expect _).andPure fun _ h => h).within
  · split
    · next label hlabel =>
      have hws : ws ≠ [] := by
        rintro rfl
        exact Option.some_ne_none label hlabel.symm
      exact .map (S := never) (takes_leaf hws).within fun _ => False.elim
    · exact .pure rfl

lemma fits_operand : Fits b ws (operand g) (· = false) 1 13 := by
  refine (fits_term? hg).bind (fun v hv => by subst hv; exact .pure rfl) fun v _ _ => ?_
  cases v with
  | none => exact .pure trivial
  | some k =>
    refine .andPure (S := anyway) ?_ fun _ h => h
    exact .given ((Asks.pure _).and (.isAdjacent _)) (fun _ => .wrap fits_fields.within) fun _ => trivial

lemma fits_command : Fits b ws (command g) anyway 2 14 := by
  refine .node ((fits_operand hg).bind (fun v hv => ?_) fun v _ _ => ?_)
  · subst hv
    exact Fits.error (by exact trivial) |>.within
  · cases v with
    | true => exact .repeatWhile fun _ _ => fits_operand hg
    | false => exact (Fits.error (by exact trivial)).within

lemma fits_pipeline : Fits b ws (pipeline g) anyway 8 18 := by
  refine .node (.seq (a := 5) (c := 1) (S := anyway) ?_ fun _ _ _ => .within (a := 3) (c := 18) ?_)
  · exact .given asks_isAtDeclaration (fun _ => fits_declaration.within) fun _ => trivial
  · refine .repeatWhile (c := 15) fun _ _ => (fits_command hg).bind (fun _ _ => ?_) fun _ _ _ => ?_
    · exact (Fits.eat _).mono (fun _ h => h.1) (by omega) (by omega)
    · exact (Fits.eat _).weaken

end

/-! ## Opening and closing a directive -/

lemma takes_openAction (h : ws ≠ []) : Fits b ws openAction never 0 0 := .take h fun _ _ => .advance_any

/-- Behind the opening marker, its start lies before the end of the last word taken. -/
lemma fits_opened {β : Type} {k : Nat → Parser β} {Q : β → Prop} {A C : Nat} (h : ws ≠ [])
    (hk : ∀ start ws', b.span.start ≤ start → b.floor ≤ start → ws'.length < ws.length →
      Fits { b with floor := start } ws' (k start) anyway C C) :
    Fits b ws (currentStart >>= fun start => openAction >>= fun _ => k start) Q A C := by
  simp only [openAction, bind_assoc]
  exact .currentStart h fun start _ hlow hfloor hlt => Fits.advance_any.seq fun _ ws' hle =>
    (hk start ws' hlow hfloor (by omega)).within

lemma fits_skipAction : Fits b ws skipAction anyway 2 2 :=
  .repeatWhile (c := 0) fun _ _ => .ite asks_isAtActionEnd (fun _ => .pure rfl) fun h =>
    .take (ne_nil_of_kindAt rfl h.2) fun _ _ => .pure trivial

lemma fits_closeAction : Fits b ws (closeAction d) anyway 8 3 := by
  refine .ifEat (by decide) (fun _ _ _ => .pure trivial) fun _ => .ite (.isAt _) (fun _ => ?_) fun _ => ?_
  · exact (Fits.error (by exact trivial)).within
  · refine .seq (a := 5) (c := 2) (S := anyway) (.node ?_) fun _ _ _ =>
      ((Fits.eat _).andPure fun _ _ => trivial).within
    refine .seq (a := 3) (c := 0) (S := anyway) ?_ fun _ _ _ => fits_skipAction.within
    exact .otherwise (.peek _) (fun _ => trivial) fun _ => (Fits.expected _).within

lemma fits_templateName : Fits b ws templateName anyway 6 0 :=
  .ite ((Asks.isAt _).or (.isAt _)) (fun _ => Fits.advance_any.within) fun _ => Fits.expectedOr.within

section

variable (hg : g.Sound b)

include hg

lemma fits_pipelineIfAny : Fits b ws (pipelineIfAny g) anyway 10 18 :=
  .ite asks_isAtActionEnd (fun _ => .pure trivial) fun _ => (fits_pipeline hg).within

lemma fits_requiredPipeline {subject : String} : Fits b ws (requiredPipeline g subject) anyway 10 18 :=
  .ite asks_isAtActionEnd (fun _ => (Fits.error (by exact trivial)).within) fun _ => (fits_pipeline hg).within

/-! ## Directives without a body -/

omit hg in
lemma takes_loopControl {inLoop : Bool} {k : Kind} {keyword : String} (h : ws ≠ []) :
    Fits b ws (loopControl d inLoop k keyword) never 0 8 := by
  refine .node (fits_opened h fun start _ hlow _ _ => fits_closeAction.seq fun _ _ _ => ?_)
  cases inLoop with
  | true => exact .pure trivial
  | false => exact (Fits.errorSince hlow (by exact trivial)).within

lemma takes_simpleAction {inLoop : Bool} {k : Kind} (h : ws ≠ []) :
    Fits b ws (simpleAction g d inLoop k) never 0 26 := by
  unfold simpleAction
  split
  · refine .node ((takes_openAction h).andThen fun _ _ _ => fits_templateName.seq fun _ _ _ => ?_)
    exact (fits_pipelineIfAny hg).seq fun _ _ _ => fits_closeAction.within
  iterate 2
    · exact (takes_loopControl h).within
  · refine .node ((takes_openAction h).andThen fun _ _ _ => ?_)
    exact (fits_pipelineIfAny hg).seq fun _ _ _ => fits_closeAction.within
  iterate 2
    · exact .node ((takes_openAction h).andThen fun _ _ _ => fits_closeAction.within)
  · refine .node (.take h fun _ _ => ?_)
    exact (fits_requiredPipeline hg).seq fun _ _ _ => fits_closeAction.within

/-! ## Sequences -/

lemma takes_item {inLoop : Bool} (h : ws ≠ []) : Fits b ws (item g d inLoop) never 6 26 := by
  refine .ite (.isAt _) (fun hleft => .nth ?_) fun _ => (Fits.advance h).within
  split
  · next hopens => exact (hg.block hleft hopens).within
  · exact (takes_simpleAction hg h).within

omit hg in
lemma asks_isAtListEnd : Asks ws isAtListEnd True True 2 :=
  ((Asks.isAt _).and (.nth 1 (.pure _))).weaken

lemma fits_list {inLoop : Bool} : Fits b ws (list g d inLoop) anyway 9 35 := by
  refine .node (.repeatWhile (c := 26) fun _ _ => .ite ((Asks.isAt _).or asks_isAtListEnd) (fun _ => .pure rfl)
    fun hend => ?_)
  exact (takes_item hg (ne_nil_of_kindAt rfl hend.1)).andThen fun _ _ _ => .pure trivial

omit hg in
/-- Skipping takes a word unless the input ends or the block around it does. -/
lemma fits_skipDirectives {depth : Nat} : Fits b ws (skipDirectives depth) (fun r => ∃ y, r = .done y ∧
    (kindAt ws 0 = .leftDelimiter → opensBlock (kindAt ws 1) = false)) 3 0 := by
  refine .ite (.isAt _) (fun h => .pure ⟨_, rfl, ?_⟩) fun hend => ?_
  · rw [h]
    exact Kind.noConfusion
  have hws : ws ≠ [] := ne_nil_of_kindAt rfl hend
  refine .ite (.isAt _) (fun hleft => .nth ?_) fun _ => .take hws fun _ _ => .pure trivial
  split
  · next hkeyword =>
    refine .pure ⟨_, rfl, fun _ => ?_⟩
    simp only [Bool.and_eq_true, Bool.or_eq_true, decide_eq_true_eq] at hkeyword
    rcases hkeyword.1 with h | h <;> rw [h] <;> rfl
  · exact .take hws fun _ _ => .pure trivial

omit hg in
lemma takes_skipBlocks (hleft : kindAt ws 0 = .leftDelimiter) (hopens : opensBlock (kindAt ws 1) = true) :
    Fits b ws skipBlocks never 4 3 := by
  refine .node (.andError trivial (.map (S := never) (.loop (c := 0) ?_ fun _ _ _ => ?_) fun _ h => h))
  · refine fits_skipDirectives.mono (fun _ ⟨y, hy, h⟩ => ?_) (Nat.le_refl _) (Nat.le_refl _)
    rw [h hleft] at hopens
    exact Bool.noConfusion hopens
  · exact fits_skipDirectives.mono (fun _ ⟨y, hy, _⟩ => ⟨y, hy⟩) (Nat.le_refl _) (Nat.le_refl _)

/-! ## Blocks -/

omit hg in
lemma fits_blockEnd {keyword : String} {opener : Span} (ho : b.span.covers opener) :
    Fits b ws (blockEnd d keyword opener) anyway 2 8 := by
  refine .ite ((Asks.isAt _).and (.nthIs 1 _)) (fun h => ?_) fun _ => (Fits.errorAt ho (by exact trivial)).within
  refine .node (.andThen (takes_openAction (ne_nil_of_kindAt h.1 (by decide))) fun _ _ _ => ?_)
  exact fits_closeAction.within

lemma fits_chainedCondition : Fits b ws (chainedCondition g) anyway 11 18 :=
  .peek (Fits.advance_any.seq fun _ _ _ => (fits_requiredPipeline hg).within)

omit hg in
lemma fits_elseFault {start : Nat} {isLoop plainBefore chained : Bool} {keyword : String}
    (hlow : b.span.start ≤ start) : Fits { b with floor := start } ws
      (elseFault d start isLoop keyword plainBefore chained) anyway 0 0 := by
  unfold elseFault
  split
  · exact .errorSince hlow trivial
  · split
    · exact .errorSince hlow trivial
    · exact .pure trivial

lemma takes_elseBranch {inLoop isLoop plainBefore chained : Bool} {keyword : String} (h : ws ≠ []) :
    Fits b ws (elseBranch g d inLoop isLoop keyword plainBefore chained) never 0 35 := by
  refine .node (fits_opened h fun start _ hlow hfloor _ => .seq (a := 11) (c := 18) (S := anyway) ?_
    fun _ _ _ => fits_closeAction.seq fun _ _ _ => (fits_elseFault hlow).seq fun _ _ _ =>
    (fits_list (hg.raise hfloor)).within)
  exact .given (.pure _) (fun _ => fits_chainedCondition (hg.raise hfloor)) fun _ => trivial

lemma fits_elseBranches {inLoop isLoop : Bool} {keyword : String} :
    Fits b ws (elseBranches g d inLoop isLoop keyword) anyway 3 38 := by
  refine .map (S := anyway) (.loopAny (c := 35) fun _ _ _ => ?_) fun _ h => h
  refine .ite ((Asks.isAt _).and (.nthIs 1 _)) (fun h => .nth ?_) fun _ => .pure ⟨_, rfl⟩
  exact .andThen (takes_elseBranch hg (ne_nil_of_kindAt h.1 (by decide))) fun _ _ _ => .pure trivial

lemma takes_control {inLoop : Bool} {k : Kind} {keyword : String} (h : ws ≠ []) :
    Fits b ws (control g d inLoop k keyword) never 0 40 := by
  refine .node (fits_opened h fun start _ hlow hfloor _ => (fits_requiredPipeline (hg.raise hfloor)).seq
    fun _ _ _ => fits_closeAction.seq fun _ _ _ => .spanSince hlow fun opener ho => ?_)
  exact (fits_list (hg.raise hfloor)).seq fun _ _ _ => (fits_elseBranches (hg.raise hfloor)).seq
    fun _ _ _ => (fits_blockEnd (b := { b with floor := start }) ho).within

lemma takes_namedBlock {k : Kind} {keyword : String} (h : ws ≠ []) :
    Fits b ws (namedBlock g d k keyword) never 0 37 := by
  refine .node (fits_opened h fun start _ hlow hfloor _ => fits_templateName.seq fun _ _ _ =>
    .seq (a := 10) (c := 18) (S := anyway) ?_ fun _ _ _ => fits_closeAction.seq fun _ _ _ =>
    .spanSince hlow fun opener ho => (fits_list (hg.raise hfloor)).seq fun _ _ _ =>
    (fits_blockEnd (b := { b with floor := start }) ho).within)
  exact .given (.pure _) (fun _ => fits_pipelineIfAny (hg.raise hfloor)) fun _ => trivial

lemma takes_blockInner {inLoop : Bool} (h : ws ≠ []) : Fits b ws (blockInner g d inLoop) never 1 40 := by
  refine .nth ?_
  unfold keywordBlock
  split
  iterate 3
    · exact (takes_control hg h).within
  iterate 2
    · exact (takes_namedBlock hg h).within

end

/-! ## Documents -/

/-- On every level the productions fit. -/
lemma sound_nested (b : Frame) (d : Delimiters) (levels : Nat) :
    (nested d levels).Sound { b with base := b.base + 3 + 40 * levels } := by
  induction levels with
  | zero => exact ⟨fun h h' => (takes_skipBlocks h h').lift, fits_skipPipeline.lift.within⟩
  | succ levels ih =>
    refine ⟨fun h _ => ?_, ?_⟩
    · exact .lift (c := 40) (takes_blockInner ih (ne_nil_of_kindAt h (by decide))).within
    · exact .lift (c := 40) (fits_pipeline ih).within

/-- What the productions of the top level are given. -/
def topFrame (R : Span) : Frame := { span := R, base := 3 + 40 * nestingLimit }

lemma sound_top (R : Span) (d : Delimiters) : (nested d nestingLimit).Sound (topFrame R) := by
  have h := sound_nested { span := R, base := 0 } d nestingLimit
  rwa [Nat.zero_add] at h

section

variable (hg : g.Sound b)

include hg

lemma fits_strayChain {k : Kind} : Fits b ws (strayChain g k) anyway 11 18 := by
  unfold strayChain
  split
  · refine .peek ?_
    split
    iterate 2
      · exact Fits.advance_any.seq fun _ _ _ => (fits_pipelineIfAny hg).within
    · exact .pure trivial
  · exact .pure trivial

lemma takes_stray {k : Kind} {keyword : String} (h : ws ≠ []) (hkeyword : keyword = "end" ∨ keyword = "else") :
    Fits b ws (stray g d k keyword) never 0 26 :=
  .node (fits_opened h fun _ _ hlow hfloor _ => (fits_strayChain (hg.raise hfloor)).seq fun _ _ _ =>
    fits_closeAction.seq fun _ _ _ => (Fits.errorSince hlow (by exact hkeyword)).within)

lemma takes_topLevel (h : ws ≠ []) : Fits b ws (topLevel g d) never 8 26 := by
  refine .ite asks_isAtListEnd (fun _ => ?_) fun _ => (takes_item hg h).within
  exact .ite (.nthIs 1 _) (fun _ => (takes_stray hg h (.inl rfl)).within) fun _ => (takes_stray hg h (.inr rfl)).within

end

lemma fits_document {R : Span} : Fits (topFrame R) ws (document d) anyway 9 35 := by
  refine .repeatWhile (c := 26) fun _ _ => .ite (.isAt _) (fun _ => .pure rfl) fun hend => ?_
  exact (takes_topLevel (sound_top R d) (ne_nil_of_kindAt rfl hend)).andThen fun _ _ _ => .pure trivial

/-- Every piece of a document has a tree as a template: no assertion fails on the way to it. -/
lemma parse?_eq_ok (d : Delimiters) (host : HostLanguage) (offset : Nat) (text : Text) :
    parse? d host offset text = .ok (parse d host offset text) ∧
      (parse d host offset text).Covers .template ⟨offset, text.size⟩ (tokens d host offset text) := by
  have hlimit : 3 + 40 * nestingLimit + 35 ≤ lookLimit := by decide
  exact Parser.tree?_eq_ok_of_fits .template isTrivia (b := topFrame ⟨offset, text.size⟩) (covers_tokens d host offset text)
    rfl rfl fits_document (by decide) hlimit

/-- The tree of a stretch of a document is that of the text of the stretch. -/
lemma parseRange?_eq_ok (d : Delimiters) (host : HostLanguage) (before piece after : Text) :
    parseRange? d host (before ++ piece ++ after) before.size (before.size + piece.size) =
      .ok (parse d host before.size piece) := by
  rw [parseRange?, slice?_append]
  exact (parse?_eq_ok d host before.size piece).1

/-- Every stretch of a document between two of its characters has a tree as a template: no assertion fails
on the way to it, its root covers exactly the stretch, its tokens are those of the lexer, its nodes are
tiled by their parts, and its errors lie in the stretch. -/
theorem parseRange_total (d : Delimiters) (host : HostLanguage) (before piece after : Text) :
    parseRange? d host (before ++ piece ++ after) before.size (before.size + piece.size) =
        .ok (parse d host before.size piece) ∧
      (parse d host before.size piece).Covers .template ⟨before.size, piece.size⟩
        (tokens d host before.size piece) ∧
      (tokens d host before.size piece).flatMap Token.text = piece := by
  obtain ⟨htree, hcovers⟩ := parse?_eq_ok d host before.size piece
  refine ⟨?_, hcovers, (covers_tokens d host before.size piece).chars⟩
  rw [parseRange?, slice?_append]
  exact htree

end GoFront.Template
