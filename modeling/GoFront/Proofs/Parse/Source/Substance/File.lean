import GoFront.Proofs.Parse.Source.Basic
import GoFront.Proofs.Parse.Source.Expression
import GoFront.Proofs.Parse.Source.Recovery
import GoFront.Proofs.Parse.Source.Substance.Rules
import GoFront.Proofs.Parse.Source.Type

/-!
# Nodes of a source file have parts

No node that the source grammar grows is without parts (`gains_file`), so no node in the tree of a file without errors
is without tokens (`leaves_ne_nil_parse`).
-/

namespace GoFront.Source

open GoFront.Parser Sprout

section

variable {ws : List Word} {f f' : List Sprout}

/-! ## The productions one level down -/

/-- A production that may find nothing grows something if it finds something. -/
def Brings (f : List Sprout) (v : Option Kind) (f' : List Sprout) : Prop :=
  Extends Full f f' ∧ (v ≠ none → Outgrows f f')

/-- What is known of the productions one level down. -/
structure Nested.Fruitful (g : Nested) : Prop where
  operand : ∀ {ws f}, ws ≠ [] → Grows ws f g.operand fun v _ f' => Brings f v f'
  type : ∀ {ws f}, ws ≠ [] → Grows ws f g.type fun _ _ f' => Outgrows f f'
  statement : ∀ ws f, Grows ws f g.statement fun _ _ f' => Extends Full f f'
  literalValue : Gains g.literalValue

lemma Outgrows.brings {v : Option Kind} (h : Outgrows f f') : Brings f v f' := ⟨h.extends, fun _ => h⟩

lemma Brings.outgrows {c : Kind} (h : Brings f (some c) f') : Outgrows f f' := h.2 (Option.some_ne_none c)

/-! ### Names and skipping -/

lemma gains_name {what : String} : Gains (name what) := fun ws f =>
  .choose (.isAt _) (fun h => outgrows_node (outgrows_advance (ne_nil_of_kindAt h (by decide)) (.refl [])))
    fun _ => gains_expected ws f

lemma gains_nameRef {what : String} : Gains (nameRef what) := fun ws f =>
  .choose (.isAt _) (fun h => outgrows_node (outgrows_advance (ne_nil_of_kindAt h (by decide)) (.refl [])))
    fun _ => gains_expected ws f

lemma full_breaksBlock : Keeps Full breaksBlock := .ask fun _ => asks_breaksBlock

lemma gains_tooDeep : Gains tooDeep := by
  have hround : ∀ depth, Keeps Full (skipRound depth) := by
    intro depth
    refine Keeps.isAt.choose (.pure _) (.peek fun _ => ?_)
    split
    iterate 3 exact full_advance.bind fun _ => .pure _
    iterate 5
      · split
        · exact .pure _
        · exact full_advance.bind fun _ => .pure _
    · exact full_advance.bind fun _ => .pure _
  have hskip : Keeps Full skipTooDeep := .discard (.loop hround)
  exact .nodeBy (gains_error.bind fun _ => hskip.bind fun _ => .pure _)

lemma fruitful_bottom : Nested.bottom.Fruitful where
  operand _ := (gains_tooDeep _ _).map fun _ _ _ hf => hf.brings
  type _ := (gains_tooDeep _ _).map fun _ _ _ hf => hf
  statement := gains_tooDeep.discard.keeps
  literalValue := gains_tooDeep

variable {g : Nested} (hg : g.Fruitful)

include hg

/-! ### Types and expressions -/

lemma outgrows_type? (h : typeStart.contains (kindAt ws 0) = true) :
    Grows ws f (type? g) fun _ _ f' => Outgrows f f' :=
  .ite (.isAtAny _) (fun h => hg.type (ne_nil_of_contains h)) fun hno => absurd (h.symm.trans hno) Bool.true_eq_false.mp

lemma brings_type? : Grows ws f (type? g) fun v _ f' => Brings f v f' :=
  .ite (.isAtAny _) (fun h => (hg.type (ne_nil_of_contains h)).mono fun _ _ _ hf => hf.brings) fun _ =>
    .pure ⟨.refl f, fun h => absurd rfl h⟩

lemma full_type? : Keeps Full (type? g) := fun _ _ => (brings_type? hg).mono fun _ _ _ hf => hf.1

lemma gains_type : Gains (type g) := fun _ _ =>
  (brings_type? hg).bind fun v ws' f' hf => by
    cases v with
    | none => exact (gains_expectedOr ws' f').mono fun _ _ _ hf' => .after hf.1 hf'
    | some _ => exact .pure hf.outgrows

lemma brings_unary? : Grows ws f (unary? g) fun v _ f' => Brings f v f' :=
  .ite (.isAtAny _) (fun h => hg.operand (ne_nil_of_contains h)) fun _ => .pure ⟨.refl f, fun h => absurd rfl h⟩

lemma brings_binary? (tiers least : Nat) : Grows ws f (binary? g tiers least) fun v _ f' => Brings f v f' := by
  induction tiers generalizing least ws f with
  | zero => exact brings_unary? hg
  | succ tiers ih =>
    refine (brings_unary? hg).bind fun v ws' f' hf => ?_
    cases v with
    | none => exact .pure hf
    | some first =>
      refine .map (Q := fun _ _ f' => Outgrows f f') ?_ fun _ _ _ hf => hf.brings
      refine .loop (I := fun _ _ f' => Outgrows f f') hf.outgrows fun left ws f' hf => .peek ?_
      split
      · exact .pure hf
      · next strength _ =>
        split
        · exact .pure hf
        · have hright : Keeps Full (binary? g tiers (strength + 1)) := fun _ _ => (ih _).mono fun _ _ _ h => h.1
          exact (hf.wrapBy (full_advance.bind fun _ => (Keeps.given hright.map gains_error.keeps).bind fun _ =>
            .pure _)).map fun _ _ _ hf => hf

lemma gains_expression? : Gains (expression? g) := fun _ _ =>
  (brings_binary? hg 6 1).bind fun v ws' f' hf => by
    cases v with
    | none => exact (outgrows_then (gains_expectedOr ws' f') fun _ => .pure _).mono fun _ _ _ hf' => .after hf.1 hf'
    | some k => exact .pure hf.outgrows

lemma gains_expression : Gains (expression g) := (gains_expression? hg).discard

lemma gains_expressionList? : Gains (expressionList? g) := fun ws f =>
  (gains_expression? hg ws f).bind fun v ws' f' hf => by
    cases v with
    | none => exact .pure hf
    | some first =>
      refine .ite (.isAt _) (fun _ => ?_) fun _ => .pure hf
      have hround : Keeps Full (eat .comma >>= fun v => if v = true then expression g >>= fun _ => pure true
          else pure false) := full_eat.choose ((gains_expression hg).keeps.bind fun _ => .pure _) (.pure _)
      exact (hf.wrapBy ((Keeps.repeatWhile hround).bind fun _ => .pure _)).map fun _ _ _ hf => hf

lemma gains_expressionList : Gains (expressionList g) := (gains_expressionList? hg).discard

/-! ### Blocks -/

omit hg in
lemma full_separator {c : Kind} : Keeps Full (separator c) :=
  Keeps.isAt.choose (.pure _) (full_eat.choose (.pure _) gains_expected.keeps)

omit hg in
lemma full_statementEnd : Keeps Full statementEnd :=
  (Keeps.ask fun _ => (Asks.isAt _).or (.peek _)).choose (.pure _) (full_eat.choose (.pure _) gains_expected.keeps)

lemma full_statementRound : Keeps Full (statementRound g) := fun ws f => by
  refine .peek ?_
  split
  iterate 4 exact .pure (.refl f)
  · exact (full_advance.bind fun _ => .pure _) ws f
  · next hend _ _ _ =>
    split
    · next hlexical =>
      have hne : ws ≠ [] := by
        rintro rfl
        exact hend rfl
      have htoken : Grows ws f (node .error advance) fun _ _ f' => Outgrows f f' :=
        outgrows_node (outgrows_advance hne (.refl []))
      exact (outgrows_then htoken fun _ => .pure _).mono fun _ _ _ hf => hf.extends
    · exact (full_breaksBlock.choose (.pure _)
        ((full_orSkip hg.statement full_statementEnd).bind fun _ => .pure _)) ws f

lemma full_statements : Keeps Full (statements g) := .repeatWhile (full_statementRound hg)

lemma gains_block : Gains (block g) :=
  .node ((gains_expect (by decide)).bind fun _ => (full_statements hg).withComposites.bind fun _ =>
    (gains_expect (by decide)).keeps)

/-! ### Signatures -/

lemma full_parameter : Keeps Full (parameter g) := by
  have hname : Keeps Full (isAt .identifier <&&> namesParameter) :=
    .ask fun _ => (Asks.isAt _).and asks_namesParameter
  have hbody : Gains (do
      given (isAt .identifier <&&> namesParameter) (name "parameter name")
      let _ ← eat .ellipsis
      type g) := .after (.given hname gains_name.keeps) fun _ => .after full_eat fun _ => gains_type hg
  exact (Keeps.ask fun _ => (Asks.isAtAny _).or (.isAt _)).choose (hbody.node.keeps.bind fun _ => .pure _) (.pure _)

lemma gains_parameterList {c : Kind} : Gains (parameterList g c) := by
  refine .node (.after full_advance fun _ => .after (.repeatWhile ?_) fun _ => gains_expect (by decide))
  exact (Keeps.ask fun _ => (Asks.isAt _).or (.isAt _)).choose (.pure _)
    ((full_parameter hg).choose full_eat (.pure _))

lemma gains_signature : Gains (signature g) := by
  have hresult : Keeps Full (do
      if ← isAt .leftParen then node .result (parameterList g .parameterList)
      else if ← isAtAny typeStart then node .result (discard (type? g))) := by
    refine Keeps.isAt.choose (gains_parameterList hg).node.keeps fun ws f => ?_
    refine .ite (.isAtAny _) (fun h => ?_) fun _ => .pure (.refl f)
    have hnode : Grows ws f (node .result (discard (type? g))) fun _ _ f' => Outgrows f f' :=
      outgrows_node ((outgrows_type? hg h).discard fun _ _ _ hf => hf)
    exact hnode.mono fun _ _ _ hf => hf.extends
  exact .bind (.choose .isAt (gains_parameterList hg) gains_expected) fun _ => hresult

lemma gains_typeElement : Gains (typeElement g) := by
  intro ws f
  refine .nodeIf ?_
  have hround : ∀ union, Gains (do
      let tilde ← eat .tilde
      type g
      if ← eat .pipe then pure (.yield true) else pure (.done (union || tilde)) : Parser (ForInStep Bool)) := fun union =>
    .after full_eat fun _ => .bind (gains_type hg) fun _ => full_eat.choose (.pure _) (.pure _)
  refine .loop (I := fun _ _ g => Extends Full [] g) (.refl []) fun union ws g hg => (hround union ws g).mono ?_
  intro v ws' g' hg'
  have hgrown := Outgrows.after hg hg'
  cases v with
  | yield x => exact hgrown.extends
  | done x =>
    cases x with
    | true => exact .cons (.refl f) hgrown.full
    | false => exact hgrown.onto

lemma gains_typeParameters : Gains (typeParameters g) := by
  have helement : Keeps Full (do if ← isAtAny typeStart <||> isAt .tilde then typeElement g) :=
    (Keeps.ask fun _ => (Asks.isAtAny _).or (.isAt _)).choose (gains_typeElement hg).keeps (.pure _)
  have hparameter : Gains (node .typeParameter do
      name "type parameter"
      if ← isAtAny typeStart <||> isAt .tilde then typeElement g) := .node (gains_name.bind fun _ => helement)
  refine .node (.after full_advance fun _ => .after (.repeatWhile ?_) fun _ => gains_expect (by decide))
  exact Keeps.isAt.choose (hparameter.keeps.bind fun _ => full_eat) (.pure _)

/-! ### Types -/

lemma gains_typeArguments : Gains (typeArguments g) := by
  refine .node (.after full_advance fun _ => .after (.repeatWhile ?_) fun _ => gains_expect (by decide))
  exact (gains_type hg).keeps.bind fun _ => full_eat.choose Keeps.isAt.map (.pure _)

lemma outgrows_typeName (h : ws ≠ []) : Grows ws f (typeName g) fun _ _ f' => Outgrows f f' := by
  refine outgrows_nodeBy (outgrows_first h fun _ => ?_)
  have hpackage : Keeps Full (isAt .dot <&&> nthIs 1 .identifier) := .ask fun _ => (Asks.isAt _).and (.nthIs 1 _)
  have harguments : Keeps Full (isAt .leftBracket <&&> not <$> nthIs 1 .rightBracket) :=
    .ask fun _ => (Asks.isAt _).and (Asks.nthIs 1 _).not
  exact (Keeps.given hpackage (full_advance.bind fun _ => full_advance)).bind fun _ =>
    (Keeps.given harguments (gains_typeArguments hg).keeps).bind fun _ => .pure _

omit hg in
lemma gains_members {member : Parser Unit} {what : String} (h : Keeps Full member) : Gains (members member what) := by
  have hround : Keeps Full (do
      if ← isAt .rightBrace <||> isAt .endOfInput then pure false
      else if ← eat .semicolon then pure true
      else
        orSkip member what (separator .rightBrace)
        pure true) :=
    (Keeps.ask fun _ => (Asks.isAt _).or (.isAt _)).choose (.pure _)
      (full_eat.choose (.pure _) ((full_orSkip h full_separator).bind fun _ => .pure _))
  exact .choose full_eat (.after (.repeatWhile hround) fun _ => gains_expect (by decide)) gains_expected

lemma gains_namedFields : Gains (namedFields g) :=
  gains_name.bind fun _ => (Keeps.repeatWhile (full_eat.choose (gains_name.keeps.bind fun _ => .pure _) (.pure _))).bind
    fun _ => (gains_type hg).keeps

omit hg in
lemma full_fieldTag : Keeps Full fieldTag :=
  (Keeps.ask fun _ => (Asks.isAt _).or (.isAt _)).choose full_advance (.pure _)

lemma full_fieldDeclaration : Keeps Full (fieldDeclaration g) := fun ws f => by
  have hfield {α : Type} {p : Parser α} (h : Grows ws [] p fun _ _ g => Outgrows [] g) :
      Grows ws f (node .fieldDeclaration (p >>= fun _ => fieldTag)) fun _ _ f' => Extends Full f f' :=
    (outgrows_node (outgrows_then h fun _ => full_fieldTag)).mono fun _ _ _ hf => hf.extends
  have hembedded (h : kindAt ws 0 = .identifier) := hfield (outgrows_typeName hg (ne_nil_of_kindAt h (by decide)))
  refine .peek (.nth ?_)
  split
  · next h => exact hfield (outgrows_type? hg (h ▸ by decide))
  iterate 5
    · next _ _ h _ => exact hembedded h
  · exact hfield (gains_namedFields hg ws [])
  · exact .pure (.refl f)

lemma full_interfaceMember : Keeps Full (interfaceMember g) := by
  have hmethod : Gains (node .methodSpec do
      name "method name"
      signature g) := .node (gains_name.bind fun _ => (gains_signature hg).keeps)
  exact (Keeps.ask fun _ => (Asks.isAt _).and (.nthIs 1 _)).choose hmethod.keeps
    ((Keeps.ask fun _ => (Asks.isAtAny _).or (.isAt _)).choose (gains_typeElement hg).keeps (.pure _))

lemma gains_compoundType (c : Kind) : Gains (compoundType g c) := by
  have htype (k : Kind) : Gains (type g >>= fun _ => pure k) := (gains_type hg).bind fun _ => .pure k
  unfold compoundType
  split
  · exact .after full_advance fun _ => htype _
  · exact .after full_advance fun _ => .choose full_eat (htype _)
      (.after (.otherwise full_eat (gains_expression hg).keeps) fun _ =>
        (gains_expect (by decide)).bind fun _ => (htype _).keeps)
  · exact .after full_advance fun _ => (gains_type hg).bind fun _ => (gains_expect (by decide)).keeps.bind fun _ => .pure _
  · exact .after full_advance fun _ => (gains_expect (by decide)).bind fun _ => (gains_type hg).keeps.bind fun _ =>
      (gains_expect (by decide)).keeps.bind fun _ => (htype _).keeps
  · exact .after full_advance fun _ => .after full_eat fun _ => htype _
  · exact .after full_advance fun _ => (gains_expect (by decide)).bind fun _ => (htype _).keeps
  · exact .after full_advance fun _ => (gains_signature hg).bind fun _ => .pure _
  · exact .after full_advance fun _ => (gains_members (full_fieldDeclaration hg)).bind fun _ => .pure _
  · exact .after full_advance fun _ => (gains_members (full_interfaceMember hg)).bind fun _ => .pure _

lemma outgrows_typeInner (h : ws ≠ []) : Grows ws f (typeInner g) fun _ _ f' => Outgrows f f' :=
  .ite (.isAt _) (fun _ => (outgrows_typeName hg h).map fun _ _ _ hf => hf) fun _ =>
    .peek ((gains_compoundType hg _).nodeBy.map ws f)

/-! ### Operands -/

lemma gains_elementValue? : Gains (elementValue? g) := .choose .isAt hg.literalValue.map (gains_expression? hg)

lemma full_element : Keeps Full (element g) := fun ws f =>
  (gains_elementValue? hg ws f).bind fun v ws' f' hf => by
    split
    · exact .pure hf.extends
    · have hvalue : Keeps Full (advance >>= fun _ => discard (elementValue? g)) :=
        full_advance.bind fun _ => (gains_elementValue? hg).discard.keeps
      have hkeyed : Grows ws' f' (given (isAt .colon) (wrap .keyedElement (advance >>= fun _ => discard (elementValue? g))))
          fun _ _ f'' => Outgrows f f'' := .given (.isAt _) (fun _ => hf.wrap hvalue) fun _ => hf
      exact (outgrows_then hkeyed fun _ => .pure _).mono fun _ _ _ hf => hf.extends

lemma gains_literalValue : Gains (literalValue g) := by
  have hround : Keeps Full (do
      if ← isAt .rightBrace <||> isAt .endOfInput then pure false
      else if ← element g then eat .comma
      else pure false) :=
    (Keeps.ask fun _ => (Asks.isAt _).or (.isAt _)).choose (.pure _) ((full_element hg).choose full_eat (.pure _))
  exact .nodeBy (.after full_advance fun _ => .after (Keeps.repeatWhile hround).withComposites fun _ =>
    (gains_expect (by decide)).bind fun _ => .pure _)

lemma brings_operand? : Grows ws f (operand? g) fun v _ f' => Brings f v f' := by
  refine .peek ?_
  have hleaf {c k : Kind} (h : kindAt ws 0 = c) (hc : c ≠ .endOfInput) :
      Grows ws f (some <$> nodeBy (advance >>= fun _ => pure k)) fun v _ f' => Brings f v f' :=
    (outgrows_nodeBy (outgrows_first (ne_nil_of_kindAt h hc) fun _ => .pure k)).map fun _ _ _ hf => hf.brings
  have hnode {p : Parser Kind} (h : Gains p) : Grows ws f (some <$> nodeBy p) fun v _ f' => Brings f v f' :=
    (h.nodeBy ws f).map fun _ _ _ hf => hf.brings
  split
  iterate 10
    · next h => exact hleaf h (by decide)
  · exact hnode (.after full_advance fun _ => .after (gains_expression hg).keeps.withComposites fun _ =>
      (gains_expect (by decide)).bind fun _ => .pure _)
  · exact hnode (.after full_advance fun _ => (gains_signature hg).bind fun _ =>
      Keeps.isAt.choose ((gains_block hg).keeps.bind fun _ => .pure _) (.pure _))
  iterate 6 exact brings_type? hg
  · exact .pure ⟨.refl f, fun h => absurd rfl h⟩

lemma outgrows_selector (hf : Outgrows f f') : Grows ws f' (selector g) fun _ _ f'' => Outgrows f f'' :=
  hf.wrapBy (full_advance.bind fun _ => full_eat.choose
    ((Keeps.otherwise full_eat (gains_type hg).keeps).bind fun _ => (gains_expect (by decide)).keeps.bind fun _ => .pure _)
    (gains_nameRef.keeps.bind fun _ => .pure _))

lemma gains_argumentList : Gains (argumentList g) := by
  refine .node (.after full_advance fun _ => .after (Keeps.repeatWhile ?_).withComposites fun _ =>
    gains_expect (by decide))
  refine (Keeps.ask fun _ => (Asks.isAt _).or (.isAt _)).choose (.pure _) ((gains_expression? hg).keeps.bind fun v => ?_)
  split
  · exact .pure _
  · exact full_eat.bind fun _ => full_eat

lemma full_indices : Keeps Full (indices g) :=
  (gains_expression hg).keeps.bind fun _ => .repeatWhile (full_eat.choose
    (Keeps.isAt.choose (.pure _) ((gains_expression hg).keeps.bind fun _ => .pure _)) (.pure _))

lemma full_sliceBounds : Keeps Full (sliceBounds g) := .loop fun _ =>
  full_eat.choose ((Keeps.otherwise (.ask fun _ => (Asks.isAt _).or (.isAt _)) (gains_expression hg).keeps).bind fun _ =>
    .pure _) (.pure _)

lemma outgrows_index (hf : Outgrows f f') : Grows ws f' (index g) fun _ _ f'' => Outgrows f f'' :=
  hf.wrapBy (full_advance.bind fun _ =>
    ((Keeps.otherwise .isAt (full_indices hg)).bind fun _ => full_sliceBounds hg).withComposites.bind fun _ =>
      (gains_expect (by decide)).keeps.bind fun _ => .pure _)

lemma outgrows_suffix (c : Kind) (hf : Outgrows f f') : Grows ws f' (suffix g c) fun _ _ f'' => Outgrows f f'' := by
  refine .peek ?_
  split
  · exact (outgrows_selector hg hf).map fun _ _ _ hf => hf
  · exact (hf.wrapBy ((gains_argumentList hg).keeps.bind fun _ => .pure _)).map fun _ _ _ hf => hf
  · exact (outgrows_index hg hf).map fun _ _ _ hf => hf
  · refine .look fun allowed => ?_
    split
    · exact (hf.wrapBy ((gains_literalValue hg).keeps.bind fun _ => .pure _)).map fun _ _ _ hf => hf
    · exact .pure hf
  · exact .pure hf

lemma brings_primary? : Grows ws f (primary? g) fun v _ f' => Brings f v f' :=
  (brings_operand? hg).bind fun v ws' f' hf => by
    cases v with
    | none => exact .pure hf
    | some first =>
      refine .map (Q := fun _ _ f' => Outgrows f f') ?_ fun _ _ _ hf => hf.brings
      refine .loop (I := fun _ _ f' => Outgrows f f') hf.outgrows fun c ws f' hf => (outgrows_suffix hg c hf).mono ?_
      rintro (_ | _) _ _ hf <;> exact hf

lemma brings_operandInner (h : ws ≠ []) : Grows ws f (operandInner g) fun v _ f' => Brings f v f' := by
  refine .ite asks_isAtUnaryOperator (fun _ => .peek ?_) fun _ => brings_primary? hg
  have hvalue : Keeps Full (unary? g) := fun _ _ => (brings_unary? hg).mono fun _ _ _ hf => hf.1
  exact (outgrows_nodeBy (outgrows_first h fun _ => (Keeps.given hvalue.map gains_error.keeps).bind fun _ => .pure _)).map
    fun _ _ _ hf => hf.brings

/-! ### Declarations -/

omit hg in
lemma full_group {spec : Parser Unit} (h : Keeps Full spec) : Keeps Full (group spec) := by
  refine full_advance.bind fun _ => (Keeps.repeatWhile ?_).bind fun _ => (gains_expect (by decide)).keeps
  refine (Keeps.ask fun _ => (Asks.isAt _).or ((Asks.isAt _).or (asks_startsDeclaration 0))).choose (.pure _) ?_
  exact full_eat.choose (.pure _) ((full_orSkip h full_separator).bind fun _ => .pure _)

omit hg in
lemma outgrows_declare {k : Kind} {spec : Parser Unit} (h : ws ≠ []) (hspec : Keeps Full spec) :
    Grows ws f (declare k spec) fun _ _ f' => Outgrows f f' :=
  outgrows_node (outgrows_first h fun _ => Keeps.isAt.choose (full_group hspec) hspec)

omit hg in
lemma gains_nameList : Gains nameList :=
  gains_name.bind fun _ => .repeatWhile ((Keeps.ask fun _ => (Asks.isAt _).and (.nthIs 1 _)).choose
    (full_advance.bind fun _ => gains_name.keeps.bind fun _ => .pure _) (.pure _))

omit hg in
lemma gains_importSpec : Gains importSpec := by
  have hname : Keeps Full (choose (isAt .identifier) (name "package name") (discard (eat .dot))) :=
    Keeps.isAt.choose gains_name.keeps full_eat.discard
  refine .node (.after hname fun _ ws f => .peek ?_)
  split
  iterate 4
    · next h => exact outgrows_advance (ne_nil_of_kindAt h (by decide)) (.refl f)
  · exact gains_expected ws f

lemma gains_variableSpec : Gains (variableSpec g) := by
  refine .node (gains_nameList.bind fun _ => Keeps.isAtAny.bind fun typed => ?_)
  refine (Keeps.given (.pure _) (full_type? hg).discard).bind fun _ => ?_
  exact full_eat.choose (gains_expressionList hg).keeps (Keeps.choose (.pure typed) (.pure _) gains_expected.keeps)

lemma gains_constantSpec : Gains (constantSpec g) :=
  .node (gains_nameList.bind fun _ => (Keeps.given .isAtAny (full_type? hg).discard).bind fun _ =>
    full_eat.choose (gains_expressionList hg).keeps (.pure _))

lemma gains_typeSpec : Gains (typeSpec g) := by
  have hparameters : Keeps Full (isAt .leftBracket <&&> nthIs 1 .identifier <&&> not <$> nthIs 2 .rightBracket) :=
    .ask fun _ => (Asks.isAt _).and ((Asks.nthIs 1 _).and (.not (.nthIs 2 _)))
  exact .node (gains_name.bind fun _ => (Keeps.given hparameters (gains_typeParameters hg).keeps).bind fun _ =>
    full_eat.bind fun _ => (gains_type hg).keeps)

lemma gains_declaration : Gains (declaration g) := fun ws f => by
  refine .peek ?_
  split
  · next h => exact outgrows_declare (ne_nil_of_kindAt h (by decide)) (gains_variableSpec hg).keeps
  · next h => exact outgrows_declare (ne_nil_of_kindAt h (by decide)) (gains_constantSpec hg).keeps
  · next h => exact outgrows_declare (ne_nil_of_kindAt h (by decide)) (gains_typeSpec hg).keeps
  · exact .fail

lemma gains_functionDeclaration : Gains (functionDeclaration g) :=
  .node (.after full_advance fun _ => .after (.given .isAt (gains_parameterList hg).keeps) fun _ =>
    gains_name.bind fun _ => (Keeps.given .isAt (gains_typeParameters hg).keeps).bind fun _ =>
      (gains_signature hg).keeps.bind fun _ => Keeps.isAt.choose (gains_block hg).keeps (.pure _))

/-! ### Simple statements -/

omit hg in
lemma outgrows_asStatement (c : Kind) (hf : Outgrows f f') : Grows ws f' (asStatement c) fun _ _ f'' => Outgrows f f'' := by
  unfold asStatement
  split
  · exact .pure hf
  · exact hf.wrap (.pure _)

lemma outgrows_simpleRest {allowRange : Bool} (c : Kind) (hf : Outgrows f f') :
    Grows ws f' (simpleRest g allowRange c) fun _ _ f'' => Outgrows f f'' := by
  refine .peek ?_
  split
  · have hrange (k : Kind) : Keeps Full (pure (allowRange && (k == .define || k == .assign)) <&&> isAt .rangeKeyword) :=
      .ask fun _ => (Asks.pure _).and (.isAt _)
    exact hf.wrapBy (.peek fun _ => full_advance.bind fun _ => (hrange _).choose
      (full_advance.bind fun _ => (gains_expression hg).keeps.bind fun _ => .pure _)
      ((gains_expressionList hg).keeps.bind fun _ => .pure _))
  · split
    iterate 2 exact hf.wrapBy (full_advance.bind fun _ => .pure _)
    · exact hf.wrapBy (full_advance.bind fun _ => (gains_expression hg).keeps.bind fun _ => .pure _)
    · exact .pure hf

lemma gains_simpleStatement? {allowRange : Bool} : Gains (simpleStatement? g allowRange) := by
  have hrange : Gains (nodeBy (advance >>= fun _ => expression g >>= fun _ => pure Kind.rangeClause)) :=
    .nodeBy (.after full_advance fun _ => (gains_expression hg).bind fun _ => .pure _)
  refine .choose (.ask fun _ => (Asks.pure _).and (.isAt _)) hrange.map fun ws f => ?_
  refine (gains_expressionList? hg ws f).bind fun v ws' f' hf => ?_
  cases v with
  | none => exact .pure hf
  | some c => exact (outgrows_simpleRest hg c hf).map fun _ _ _ hf => hf

lemma gains_wholeStatement : Gains (wholeStatement g) := fun ws f =>
  (gains_simpleStatement? hg ws f).bind fun v ws' f' hf => by
    cases v with
    | none => exact .pure hf
    | some c => exact outgrows_asStatement c hf

/-! ### Headers and branches -/

lemma gains_requiredBlock : Gains (requiredBlock g) := .choose .isAt (gains_block hg) gains_expected

lemma full_header : Keeps Full (header g) := by
  have hsimple : Keeps Full (discard (simpleStatement? g false)) := (gains_simpleStatement? hg).keeps.discard
  exact .withComposites (Keeps.isAt.choose (.pure _) ((Keeps.otherwise .isAt hsimple).bind fun _ =>
    full_eat.choose (Keeps.isAt.choose (.pure _) hsimple) (.pure _)))

lemma gains_ifChain (links : Nat) : Gains (ifChain g links) := by
  induction links with
  | zero => exact fun _ _ => .fail
  | succ links ih =>
    refine .node (.after full_advance fun _ => .after (.given .isAt gains_error.keeps) fun _ =>
      .after (full_header hg) fun _ => (gains_requiredBlock hg).bind fun _ => full_eat.choose (.peek fun _ => ?_) (.pure _))
    split
    · exact ih.keeps
    · exact (gains_block hg).keeps
    · exact gains_expected.keeps

lemma gains_forParts : Gains (forParts g) :=
  .after full_advance fun _ => .after (.otherwise .isAt (gains_expression hg).keeps) fun _ =>
    (gains_expect (by decide)).bind fun _ => Keeps.isAt.choose (.pure _) (gains_wholeStatement hg).keeps

lemma full_forHeader : Keeps Full (forHeader g) := fun ws f => by
  refine .bind (Q := fun init _ f' => Extends Full f f' ∧ (init ≠ none → Outgrows f f')) ?_ fun init ws' f' hf => ?_
  · exact .choose (.isAt _) (fun _ => .pure ⟨.refl f, fun h => absurd rfl h⟩) fun _ =>
      (gains_simpleStatement? hg ws f).mono fun _ _ _ hf => hf.brings
  split
  · exact .pure hf.1
  · refine .ite (.isAt _) (fun _ => ?_) fun _ => .pure hf.1
    cases init with
    | none => exact ((gains_forParts hg).node ws' f').mono fun _ _ _ hf' => hf.1.trans hf'.extends
    | some c =>
      refine (outgrows_asStatement c (hf.2 (Option.some_ne_none c))).bind fun _ _ _ hf => ?_
      exact (hf.wrap (gains_forParts hg).keeps).mono fun _ _ _ hf => hf.extends

lemma gains_forStatement : Gains (forStatement g) :=
  .node (.after full_advance fun _ => .after (.withComposites (Keeps.isAt.choose (.pure _) (full_forHeader hg)))
    fun _ => gains_requiredBlock hg)

lemma gains_clauses {k : Kind} : Gains (clauses g k) := by
  have hsubject : Keeps Full (caseSubject g k) := by
    unfold caseSubject
    split
    · exact (gains_simpleStatement? hg).keeps.discard
    · exact (gains_expressionList hg).keeps
  have hclause : Gains (clause g k) :=
    .node (.after (full_eat.choose hsubject full_advance) fun _ => (gains_expect (by decide)).bind fun _ =>
      full_statements hg)
  have hround : Keeps Full (clauseOrSkip g k) := .peek fun _ => by
    split
    iterate 2 exact hclause.keeps
    · exact full_advance
    · exact gains_expectedAndAdvance.keeps
  have hclauses : Keeps Full (repeatWhile do
      if ← isAt .rightBrace <||> isAt .endOfInput <||> breaksBlock then pure false
      else
        clauseOrSkip g k
        pure true) :=
    .repeatWhile ((Keeps.ask fun _ => (Asks.isAt _).or ((Asks.isAt _).or asks_breaksBlock)).choose (.pure _)
      (hround.bind fun _ => .pure _))
  exact .choose full_eat (.after hclauses.withComposites fun _ => gains_expect (by decide)) gains_expected

/-! ### Statements -/

lemma full_statementInner : Keeps Full (statementInner g) := fun ws f => by
  have hgains {p : Parser Unit} (h : Gains p) : Grows ws f p fun _ _ f' => Extends Full f f' := h.keeps ws f
  have hword {c c' : Kind} {p : Unit → Parser Unit} (h : kindAt ws 0 = c) (hp : ∀ v, Keeps Full (p v))
      (hc : c ≠ .endOfInput) : Grows ws f (node c' (advance >>= p)) fun _ _ f' => Extends Full f f' :=
    (outgrows_node (outgrows_first (ne_nil_of_kindAt h hc) hp)).mono fun _ _ _ hf => hf.extends
  refine .peek ?_
  split
  iterate 3 exact hgains (gains_declaration hg).node
  · next h => exact hword h (fun _ => Keeps.isAtAny.choose (gains_expressionList hg).keeps (.pure _)) (by decide)
  iterate 2
    · next h => exact hword h (fun _ => Keeps.isAt.choose gains_nameRef.keeps (.pure _)) (by decide)
  · exact hgains (.node (.after full_advance fun _ => gains_nameRef))
  · next h =>
    exact (outgrows_node (outgrows_advance (ne_nil_of_kindAt h (by decide)) (.refl []))).mono fun _ _ _ hf => hf.extends
  iterate 2 exact hgains (.node (.after full_advance fun _ => gains_expression hg))
  · exact .remaining ((gains_ifChain hg _).keeps ws f)
  · exact hgains (gains_forStatement hg)
  · exact hgains (.node (.after full_advance fun _ => .after (full_header hg) fun _ => gains_clauses hg))
  · exact hgains (.node (.after full_advance fun _ => gains_clauses hg))
  · exact hgains (gains_block hg)
  · refine .ite ((Asks.pure _).and (.nthIs 1 _)) (fun _ => ?_) fun _ => ?_
    · have hlabeled : Gains (labeledStatement g) := .node (gains_name.bind fun _ => full_advance.bind fun _ =>
        (Keeps.ask fun _ => (Asks.isAt _).or (.isAt _)).choose (.pure _) hg.statement)
      exact hgains hlabeled
    · exact .ite (.isAtAny _) (fun _ => hgains (gains_wholeStatement hg)) fun _ => .pure (.refl f)

end

/-! ## Files -/

/-- At every depth no node without parts is grown. -/
lemma fruitful_nested (n : Nat) : (nested n).Fruitful := by
  induction n with
  | zero => exact fruitful_bottom
  | succ n ih =>
    exact ⟨fun h => brings_operandInner ih h, fun h => outgrows_typeInner ih h, full_statementInner ih,
      gains_literalValue ih⟩

lemma full_topLevel : Keeps Full topLevel := by
  have htop : top.Fruitful := fruitful_nested nestingLimit
  have hskip : Gains skipToDeclaration := by
    refine .node (gains_expected.bind fun _ => full_advance.bind fun _ => .repeatWhile ?_)
    exact (Keeps.ask fun _ => (Asks.isAt _).or ((asks_startsDeclaration 0).or ((Asks.isAt _).and
      (asks_startsDeclaration 1)))).choose (.pure _) (full_advance.bind fun _ => .pure _)
  refine .bind (fun ws f => .peek ?_) fun _ => full_eat.discard
  split
  · next h =>
    exact (outgrows_declare (ne_nil_of_kindAt h (by decide)) gains_importSpec.keeps).mono fun _ _ _ hf => hf.extends
  · exact (gains_functionDeclaration htop).keeps ws f
  iterate 3 exact (gains_declaration htop).keeps ws f
  · exact full_advance ws f
  · exact (Gains.node (gains_error.bind fun _ => full_advance.bind fun _ => full_eat.bind fun _ => .pure _)).keeps ws f
  · exact hskip.keeps ws f

/-- A file grows something, and no node without parts. -/
lemma gains_file : Gains file := by
  have hpackage : Gains packageClause :=
    .choose .isAt ((Gains.node (.after full_advance fun _ => gains_name)).bind fun _ => full_eat.bind fun _ => .pure _)
      gains_expected
  exact hpackage.bind fun _ => .repeatWhile (Keeps.isAt.choose (.pure _) (full_topLevel.bind fun _ => .pure _))

/-- No node in the tree of a file without errors is without tokens. -/
lemma leaves_ne_nil_parse {text : Text} (h : (parse text).errors = []) :
    ∀ n ∈ (parse text).root.descendants, n.leaves ≠ [] := by
  obtain ⟨es, gap, hchildren, hgap, hrenders⟩ := renders_parse text
  have hclean := (quiet_of_errors_nil h).1
  have hgrown : Outgrows [] (file.run (.start Kind.isTrivia text 0 (tokens text))).2.grown :=
    gains_file _ [] _ rfl rfl (sound_file_run text).calm
  generalize (file.run (.start Kind.isTrivia text 0 (tokens text))).2.grown = f at hrenders hclean hgrown
  generalize parse text = t at hchildren hrenders
  have hfull : ∀ x ∈ nodesIn f.reverse, x.2 ≠ [] := fun x hx => by
    obtain ⟨s, hs, hxs⟩ := mem_nodesIn.1 hx
    exact hgrown.1.all s (List.mem_reverse.1 hs) x hxs
  intro n hn
  rcases List.mem_cons.1 hn with rfl | hn
  · have hleaves : Element.leavesIn es ≠ [] :=
      hrenders.leavesIn_ne_nil (wordsIn_ne_nil _ (List.reverse_ne_nil_iff.2 hgrown.ne_nil) hfull hclean)
    change Element.leavesIn t.root.children ≠ []
    rw [hchildren, Element.leavesIn_append]
    exact List.append_ne_nil_of_left_ne_nil hleaves _
  · replace hn : n ∈ Element.descendantsIn t.root.children := hn
    rw [hchildren, Element.descendantsIn_append, Renders.descendantsIn_gap hgap, List.append_nil] at hn
    obtain ⟨ds, hds, hparts⟩ := hrenders.exists_node hn
    obtain ⟨hnodes, hreports⟩ := subset_of_mem_nodesIn _ hds
    rw [hclean] at hreports
    exact hparts.parts.leavesIn_ne_nil (wordsIn_ne_nil ds (hfull _ hds) (fun x hx => hfull x (hnodes hx))
      (List.subset_nil.1 hreports))

end GoFront.Source
