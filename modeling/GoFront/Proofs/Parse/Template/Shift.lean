import GoFront.Proofs.Parse.Shift
import GoFront.Proofs.Parse.Template.Effort

/-!
# Templates further on in a document

A template that is a piece of a document is parsed as it would be on its own, whatever stands around it: the tree is the
same, but for its offsets, which count from the start of the document. So the lexer and each production of the grammar
do on a text further on what they do on the text itself (`Parser.Shifts`).
-/

namespace GoFront.Template

open GoFront.Parser

variable {n : Nat} {d : Delimiters} {g : Nested} {inLoop isLoop : Bool} {k : Kind} {keyword : String}

/-! ## Tokens -/

lemma scan_shift (host : HostLanguage) (s : State) (offset : Nat) (text : Text) :
    (scan d host s (offset + n) text).map Drawn.token =
      ((scan d host s offset text).map Drawn.token).map (Token.shift n) := by
  fun_induction scan d host s offset text with
  | case1 =>
    rw [scan]
    rfl
  | case2 s offset c cs p text ih =>
    rw [scan, List.map_cons, List.map_cons, List.map_cons, ← ih, Nat.add_right_comm]
    rfl

/-- The tokens of a text that stands further on. -/
lemma tokens_shift (d : Delimiters) (host : HostLanguage) (offset : Nat) (text : Text) :
    tokens d host (offset + n) text = (tokens d host offset text).map (Token.shift n) :=
  scan_shift host {} offset text

/-! ## Pipelines -/

/-- The productions one level down do not depend on where the text stands. -/
structure Nested.Floats (n : Nat) (g : Nested) : Prop where
  block : ∀ inLoop, Parser.Floats n (g.block inLoop)
  pipeline : Parser.Floats n g.pipeline

lemma floats_isAtActionEnd : Floats n isAtActionEnd := (Shifts.isAt _).or (.isAt _)

lemma floats_fields : Floats n fields :=
  .repeatWhile (.choose (.isAdjacent .field) (.bind .advance fun _ => .pure _) (.pure _))

lemma floats_leaf : Floats n (leaf k) := .nodeBy (.bind .advance fun _ => .pure _)

lemma floats_skipParens (depth : Nat) : Floats n (skipParens depth) := by
  refine .choose ((Shifts.isAt _).or (.isAt _)) (.pure _) (.bind .peek fun next => ?_)
  split
  · exact .bind .advance fun _ => .pure _
  · split
    · exact .pure _
    · exact .bind .advance fun _ => .pure _
  · exact .bind .advance fun _ => .pure _

lemma floats_skipPipeline : Floats n skipPipeline :=
  .node _ (.bind (.error _) fun _ => .discard (.loop floats_skipParens 0))

lemma floats_isAtDeclaration : Floats n isAtDeclaration := by
  refine (Shifts.isAt _).and (.bind (.nth 1) fun second => ?_)
  split
  · exact .pure _
  · exact .pure _
  · exact (Shifts.nthIs 2 _).and (.bind (.nth 3) fun _ => .pure _)
  · exact .pure _

lemma floats_declaration : Floats n declaration := by
  have hvariable : Floats n declaredVariable := .node _ .advance
  exact .node _ (.bind hvariable fun _ => .bind (.given (.eat _) hvariable) fun _ => .advance)

section

variable (hg : g.Floats n)

include hg

lemma floats_term? : Floats n (term? g) := by
  refine .bind .peek fun next => ?_
  split
  · exact .map (.nodeBy (.bind .advance fun _ => .bind floats_fields fun _ => .pure _)) _
  · exact .map (.nodeBy (.bind .advance fun _ => .bind hg.pipeline fun _ => .bind (.expect _) fun _ => .pure _)) _
  · split
    · exact .map floats_leaf _
    · exact .pure _

lemma floats_operand : Floats n (operand g) := by
  refine .bind (floats_term? hg) fun first => ?_
  cases first with
  | none => exact .pure _
  | some k => exact .bind (.given ((Shifts.pure _).and (.isAdjacent _)) (.wrap _ floats_fields)) fun _ => .pure _

lemma floats_pipeline : Floats n (pipeline g) := by
  have hoperand := floats_operand hg
  have hcommand : Floats n (command g) := .node _ (.choose hoperand (.repeatWhile hoperand) (.error _))
  exact .node _ (.bind (.given floats_isAtDeclaration floats_declaration) fun _ =>
    .repeatWhile (.bind hcommand fun _ => .eat _))

end

/-! ## Directives -/

lemma floats_openAction : Floats n openAction := .bind .advance fun _ => .advance

lemma floats_closeAction : Floats n (closeAction d) := by
  have hskip : Floats n skipAction :=
    .repeatWhile (.choose floats_isAtActionEnd (.pure _) (.bind .advance fun _ => .pure _))
  have hrest : Floats n (node .error do
      otherwise (Kind.isLexicalError <$> peek) (expected ("'" ++ String.ofList d.right ++ "'"))
      skipAction) :=
    .node _ (.bind (.otherwise (.map .peek _) (.expected _)) fun _ => hskip)
  exact .choose (.eat _) (.pure _) (.choose (.isAt _) (.error _) (.bind hrest fun _ => .bind (.eat _) fun _ => .pure _))

lemma floats_templateName : Floats n templateName :=
  .choose ((Shifts.isAt _).or (.isAt _)) .advance (.expectedOr _ _)

lemma floats_loopControl : Floats n (loopControl d inLoop k keyword) := by
  refine .node _ (.currentStart fun start => .bind floats_openAction fun _ => .bind floats_closeAction fun _ => ?_)
  split
  · exact .pure _
  · exact .errorSince _ _

lemma floats_isAtListEnd : Floats n isAtListEnd := (Shifts.isAt _).and (.bind (.nth 1) fun _ => .pure _)

lemma floats_skipDirectives (depth : Nat) : Floats n (skipDirectives depth) := by
  refine .choose (.isAt _) (.pure _) (.choose (.isAt _) (.bind (.nth 1) fun next => ?_) ?_)
  · split
    · exact .pure _
    · exact .bind .advance fun _ => .pure _
  · exact .bind .advance fun _ => .pure _

lemma floats_skipBlocks : Floats n skipBlocks :=
  .node _ (.bind (.error _) fun _ => .discard (.loop floats_skipDirectives 0))

/-- Where the directive that opens a block ends is kept for the error that its `end` is missing. -/
lemma shifts_blockEnd (opener : Span) : Shifts n (blockEnd d keyword opener) (blockEnd d keyword (opener.shift n)) :=
  .choose ((Shifts.isAt _).and (.nthIs 1 _)) (.node _ (.bind floats_openAction fun _ => floats_closeAction))
    (.errorAt _ _)

lemma shifts_elseFault (start : Nat) (plainBefore chained : Bool) :
    Shifts n (elseFault d start isLoop keyword plainBefore chained)
      (elseFault d (start + n) isLoop keyword plainBefore chained) := by
  unfold elseFault
  split
  · exact .errorSince _ _
  · split
    · exact .errorSince _ _
    · exact .pure _

section

variable (hg : g.Floats n)

include hg

lemma floats_pipelineIfAny : Floats n (pipelineIfAny g) :=
  .choose floats_isAtActionEnd (.pure _) (floats_pipeline hg)

lemma floats_requiredPipeline (subject : String) : Floats n (requiredPipeline g subject) :=
  .choose floats_isAtActionEnd (.error _) (floats_pipeline hg)

lemma floats_simpleAction (next : Kind) : Floats n (simpleAction g d inLoop next) := by
  unfold simpleAction
  split
  · exact .node _ (.bind floats_openAction fun _ => .bind floats_templateName fun _ =>
      .bind (floats_pipelineIfAny hg) fun _ => floats_closeAction)
  · exact floats_loopControl
  · exact floats_loopControl
  · exact .node _ (.bind floats_openAction fun _ => .bind (floats_pipelineIfAny hg) fun _ => floats_closeAction)
  · exact .node _ (.bind floats_openAction fun _ => floats_closeAction)
  · exact .node _ (.bind floats_openAction fun _ => floats_closeAction)
  · exact .node _ (.bind .advance fun _ => .bind (floats_requiredPipeline hg _) fun _ => floats_closeAction)

lemma floats_item : Floats n (item g d inLoop) := by
  refine .choose (.isAt _) (.bind (.nth 1) fun next => ?_) .advance
  split
  · exact hg.block inLoop
  · exact floats_simpleAction hg next

lemma floats_list : Floats n (list g d inLoop) :=
  .node _ (.repeatWhile (.choose ((Shifts.isAt _).or floats_isAtListEnd) (.pure _)
    (.bind (floats_item hg) fun _ => .pure _)))

lemma floats_elseBranch (plainBefore chained : Bool) :
    Floats n (elseBranch g d inLoop isLoop keyword plainBefore chained) := by
  have hcondition : Floats n (chainedCondition g) :=
    .bind .peek fun _ => .bind .advance fun _ => floats_requiredPipeline hg _
  exact .node _ (.currentStart fun start => .bind floats_openAction fun _ =>
    .bind (.given (.pure _) hcondition) fun _ => .bind floats_closeAction fun _ =>
      .bind (shifts_elseFault start _ _) fun _ => floats_list hg)

lemma floats_elseBranches : Floats n (elseBranches g d inLoop isLoop keyword) :=
  .discard (.loop (fun _ => .choose ((Shifts.isAt _).and (.nthIs 1 _))
    (.bind (.nth 2) fun _ => .bind (floats_elseBranch hg _ _) fun _ => .pure _) (.pure _)) false)

lemma floats_control : Floats n (control g d inLoop k keyword) :=
  .node _ (.currentStart fun _ => .bind floats_openAction fun _ => .bind (floats_requiredPipeline hg _) fun _ =>
    .bind floats_closeAction fun _ => .spanSince fun opener => .bind (floats_list hg) fun _ =>
      .bind (floats_elseBranches hg) fun _ => shifts_blockEnd opener)

lemma floats_namedBlock : Floats n (namedBlock g d k keyword) :=
  .node _ (.currentStart fun _ => .bind floats_openAction fun _ => .bind floats_templateName fun _ =>
    .bind (.given (.pure _) (floats_pipelineIfAny hg)) fun _ => .bind floats_closeAction fun _ =>
      .spanSince fun opener => .bind (floats_list hg) fun _ => shifts_blockEnd opener)

lemma floats_blockInner : Floats n (blockInner g d inLoop) := by
  refine .bind (.nth 1) fun next => ?_
  unfold keywordBlock
  split
  · exact floats_control hg
  · exact floats_control hg
  · exact floats_control hg
  · exact floats_namedBlock hg
  · exact floats_namedBlock hg

lemma floats_stray : Floats n (stray g d k keyword) := by
  have hchain : Floats n (strayChain g k) := by
    unfold strayChain
    split
    · refine .bind .peek fun next => ?_
      split
      · exact .bind .advance fun _ => floats_pipelineIfAny hg
      · exact .bind .advance fun _ => floats_pipelineIfAny hg
      · exact .pure _
    · exact .pure _
  exact .node _ (.currentStart fun start => .bind floats_openAction fun _ => .bind hchain fun _ =>
    .bind floats_closeAction fun _ => .errorSince start _)

end

/-! ## Documents -/

/-- No level depends on where the text stands. -/
lemma floats_nested (levels : Nat) : (nested d levels).Floats n := by
  induction levels with
  | zero => exact ⟨fun _ => floats_skipBlocks, floats_skipPipeline⟩
  | succ levels ih => exact ⟨fun _ => floats_blockInner ih, floats_pipeline ih⟩

lemma floats_document : Floats n (document d) := by
  have hg : (nested d nestingLimit).Floats n := floats_nested nestingLimit
  have htop : Floats n (topLevel (nested d nestingLimit) d) :=
    .choose floats_isAtListEnd (.choose (.nthIs 1 _) (floats_stray hg) (floats_stray hg)) (floats_item hg)
  exact .repeatWhile (.choose (.isAt _) (.pure _) (.bind htop fun _ => .pure _))

/-- The tree of a template that stands further on in its document. -/
lemma parse_shift (d : Delimiters) (host : HostLanguage) (offset : Nat) (text : Text) :
    parse d host (offset + n) text = (parse d host offset text).shift n := by
  rw [parse, tokens_shift, tree_shift floats_document, ← parse]

/-- A stretch of a document between two of its characters has the tree that its text has on its own, with the start of
the stretch added to every offset, whatever surrounds it. -/
theorem parseRange_shift (d : Delimiters) (host : HostLanguage) (before piece after : Text) :
    ∃ t, parseRange? d host piece 0 piece.size = .ok t ∧
      parseRange? d host (before ++ piece ++ after) before.size (before.size + piece.size) =
        .ok (t.shift before.size) := by
  refine ⟨parse d host 0 piece, ?_, ?_⟩
  · have hwhole := parseRange?_eq_ok d host [] piece []
    simpa only [List.nil_append, List.append_nil, Text.size_nil, Nat.zero_add] using hwhole
  · rw [parseRange?_eq_ok, ← parse_shift, Nat.zero_add]

end GoFront.Template
