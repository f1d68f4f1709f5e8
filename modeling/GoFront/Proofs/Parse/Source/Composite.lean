import GoFront.Proofs.Parse.Source.Expression
import GoFront.Proofs.Parse.Source.Header
import GoFront.Proofs.Parse.Source.Type

/-!
# No header exposes a composite literal

Each production of the source grammar is run with composite literals allowed or not, and grows what may stand where it
is grown (`Shelters`). The permission changes in a few places only: a header takes it away, and brackets, blocks and
clauses give it back.
-/

namespace GoFront.Source

open GoFront.Parser

/-- The productions one level down shelter what they grow. -/
structure Nested.Shelters (g : Nested) : Prop where
  operand : ∀ {a}, Offers a (placeOf a) g.operand
  type : ∀ {a}, Offers a (placeOf a) g.type
  statement : Source.Shelters true .free g.statement
  literalValue : ∀ {a pl}, Makes a pl g.literalValue

variable {a : Bool} {pl : Place}

/-! ## Names -/

lemma shelters_isAt {k : Kind} : Shelters a pl (isAt k) := .ask fun _ => .isAt k

lemma shelters_isAtAny {ks : KindSet} : Shelters a pl (isAtAny ks) := .ask fun _ => .isAtAny ks

lemma shelters_name {what : String} : Shelters a (placeOf a) (name what) :=
  shelters_isAt.choose (.ordinary .advance rfl) .expected

lemma shelters_nameRef {what : String} : Shelters a (placeOf a) (nameRef what) :=
  shelters_isAt.choose (.ordinary .advance rfl) .expected

/-- Where nothing is left to enter, words are skipped. -/
lemma makes_tooDeep : Makes a pl tooDeep := by
  -- Only words are grown, so the strictest place will do for any.
  have hround : ∀ depth, Shelters a .header (skipRound depth) := by
    intro depth
    refine shelters_isAt.choose (.pure _) (.peek fun _ => ?_)
    split
    iterate 3 exact .bind .advance fun _ => .pure _
    iterate 5
      · split
        · exact .pure _
        · exact .bind .advance fun _ => .pure _
    · exact .bind .advance fun _ => .pure _
  have hskip : Shelters a .header skipTooDeep := .discard (.loop hround)
  refine .nodeBy (.bind .error fun _ => hskip.bind fun _ => .pure _) fun _ cs hcs => ?_
  have hfits : Fits (placeOf false) (.node .error cs) := fits_ordinary rfl hcs
  exact hfits.of_header

lemma shelters_bottom : Nested.bottom.Shelters where
  operand := makes_tooDeep.offers
  type := makes_tooDeep.offers
  statement := makes_tooDeep.shelters.discard
  literalValue := makes_tooDeep

section

variable {g : Nested} (hg : g.Shelters)

include hg

/-! ## Entries -/

lemma offers_type? : Offers a (placeOf a) (type? g) := .choose (fun _ => .isAtAny _) hg.type .none

lemma shelters_type : Shelters a (placeOf a) (type g) := by
  refine .bind (offers_type? hg).shelters fun v => ?_
  cases v with
  | none => exact .expectedOr
  | some k => exact .pure _

lemma offers_unary? : Offers a (placeOf a) (unary? g) := .choose (fun _ => .isAtAny _) hg.operand .none

/-- An operator is put into a node with the operand before it and the chain behind it. -/
lemma offers_binary? (tiers least : Nat) : Offers a (placeOf a) (binary? g tiers least) := by
  induction tiers generalizing least with
  | zero => exact offers_unary? hg
  | succ tiers ih =>
    refine fun f => (offers_unary? hg f).bind fun v f' hf => ?_
    cases v with
    | none => exact .pure hf
    | some first =>
      refine .map (Q := fun k => Puts (placeOf a) f (some k)) ?_ fun _ _ hf => hf
      -- What was read so far is the last node, which the next round puts into another.
      refine .loop (I := fun k => Puts (placeOf a) f (some k)) hf fun left f' hf => .peek fun operator => ?_
      split
      · exact .pure hf
      · next strength _ =>
        split
        · exact .pure hf
        · have hmissing : Shelters a (placeOf a) (given (Option.isNone <$> binary? g tiers (strength + 1))
              (error (.missingOperand operator))) :=
            (ih (strength + 1)).shelters.map.given .error
          have hwraps := Wraps.ordinary (.bind .advance fun _ => hmissing.bind fun _ => .pure .binaryExpression)
            fun _ => rfl
          exact (hwraps f left f' hf).map fun _ _ hf => hf

lemma offers_expression? : Offers a (placeOf a) (expression? g) :=
  fun f => (offers_binary? hg 6 1 f).bind fun v f' hf => by
    cases v with
    | none =>
      have hnone : Shelters a (placeOf a) (expectedOr "expression" expressionRecovery >>= fun _ => pure none) :=
        .bind .expectedOr fun _ => .pure (none : Option Kind)
      exact (Bears.always (hnone f') (A := fun v => v = none) fun _ => rfl).mono
        fun _ _ ⟨hnone, hadds⟩ => hnone ▸ Adds.trans hf hadds
    | some k => exact .pure hf

lemma shelters_expression : Shelters a (placeOf a) (expression g) := (offers_expression? hg).shelters.discard

omit hg in
/-- What goes on as long as there are commas. -/
lemma shelters_commas {body : Parser Unit} (h : Shelters a pl body) : Shelters a pl (repeatWhile do
    if ← eat .comma then
      body
      pure true
    else pure false) :=
  .repeatWhile ((Shelters.eat _).choose (h.bind fun _ => .pure _) (.pure _))

lemma offers_expressionList? : Offers a (placeOf a) (expressionList? g) :=
  fun f => (offers_expression? hg f).bind fun v f' hf => by
    cases v with
    | none => exact .pure hf
    | some first =>
      refine .ask (fun _ => .isAt _) fun v => ?_
      cases v with
      | false => exact .pure hf
      | true =>
        have hwraps := Wraps.ordinary (a := a)
          (.bind (shelters_commas (shelters_expression hg)) fun _ => .pure .expressionList) fun _ => rfl
        exact (hwraps f first f' hf).map fun _ _ hf => hf

lemma shelters_expressionList : Shelters a (placeOf a) (expressionList g) :=
  (offers_expressionList? hg).shelters.discard

omit hg in
lemma shelters_separator {closer : Kind} : Shelters a pl (separator closer) :=
  shelters_isAt.choose (.pure _) ((Shelters.eat _).choose (.pure _) .expected)

lemma shelters_statementRound : Shelters true .free (statementRound g) := by
  have hend : Shelters true .free statementEnd :=
    (Shelters.ask fun _ => (Asks.isAt _).or (.peek _)).choose (.pure _) ((Shelters.eat _).choose (.pure _) .expected)
  refine .peek fun k => ?_
  split
  iterate 4 exact .pure _
  · exact .bind .advance fun _ => .pure _
  · split
    · exact .bind (.plain .advance rfl) fun _ => .pure _
    · exact (Shelters.ask fun _ => asks_breaksBlock).choose (.pure _)
        (.bind (.orSkip hg.statement hend) fun _ => .pure _)

lemma shelters_statements : Shelters true .free (statements g) := .repeatWhile (shelters_statementRound hg)

/-- In a block literals are allowed again. -/
lemma shelters_block : Shelters a pl (block g) :=
  .shield (.bind (.expect _) fun _ => .bind (.withComposites (shelters_statements hg)) fun _ => .expect _) rfl

/-! ## Signatures -/

lemma shelters_parameter : Shelters a (placeOf a) (parameter g) := by
  have hname : Shelters a (placeOf a) (given (isAt .identifier <&&> namesParameter) (name "parameter name")) :=
    (Shelters.ask fun _ => (Asks.isAt _).and asks_namesParameter).given shelters_name
  have hnode : Shelters a (placeOf a) (node .parameter do
      given (isAt .identifier <&&> namesParameter) (name "parameter name")
      let _ ← eat .ellipsis
      type g) :=
    .ordinary (hname.bind fun _ => .bind (.eat _) fun _ => shelters_type hg) rfl
  exact (Shelters.ask fun _ => (Asks.isAtAny _).or (.isAt _)).choose (hnode.bind fun _ => .pure _) (.pure _)

lemma shelters_parameterList {k : Kind} (hk : isOrdinary k = true) : Shelters a (placeOf a) (parameterList g k) := by
  have hround : Shelters a (placeOf a) (repeatWhile do
      if ← isAt .rightParen <||> isAt .endOfInput then pure false
      else if ← parameter g then eat .comma
      else pure false) :=
    .repeatWhile ((Shelters.ask fun _ => (Asks.isAt _).or (.isAt _)).choose (.pure _)
      ((shelters_parameter hg).choose (.eat _) (.pure _)))
  exact .ordinary (.bind .advance fun _ => hround.bind fun _ => .expect _) hk

lemma shelters_signature : Shelters a (placeOf a) (signature g) := by
  have hlist : Shelters a (placeOf a) (parameterList g .parameterList) := shelters_parameterList hg rfl
  have hresult : Shelters a (placeOf a) (node .result (discard (type? g))) :=
    .ordinary (offers_type? hg).shelters.discard rfl
  exact .bind (shelters_isAt.choose hlist .expected) fun _ =>
    shelters_isAt.choose (.ordinary hlist rfl) (shelters_isAtAny.choose hresult (.pure _))

lemma shelters_typeElement : Shelters a (placeOf a) (typeElement g) := by
  have hterms : Shelters a (placeOf a) (loop false fun union => do
      let tilde ← eat .tilde
      type g
      if ← eat .pipe then pure (.yield true) else pure (.done (union || tilde))) :=
    .loop fun _ => .bind (.eat _) fun _ => .bind (shelters_type hg) fun _ =>
      (Shelters.eat _).choose (.pure _) (.pure _)
  refine fun f => .nodeIf ((hterms []).mono fun v ys hadds => ?_)
  have hfits := hadds.fitsIn
  -- A single type without a tilde gets no node of its own.
  cases v with
  | true => exact (Adds.refl f).cons (fits_ordinary rfl hfits.reverse)
  | false => exact ⟨ys, rfl, hfits⟩

lemma shelters_typeParameters : Shelters a (placeOf a) (typeParameters g) := by
  have hparameter : Shelters a (placeOf a) (node .typeParameter do
      name "type parameter"
      if ← isAtAny typeStart <||> isAt .tilde then typeElement g) :=
    .ordinary (.bind shelters_name fun _ => (Shelters.ask fun _ => (Asks.isAtAny _).or (.isAt _)).choose
      (shelters_typeElement hg) (.pure _)) rfl
  refine .ordinary (.bind .advance fun _ => .bind (.repeatWhile ?_) fun _ => .expect _) rfl
  exact shelters_isAt.choose (hparameter.bind fun _ => .eat _) (.pure _)

/-! ## Types -/

lemma shelters_typeArguments : Shelters a (placeOf a) (typeArguments g) := by
  refine .ordinary (.bind .advance fun _ => .bind (.repeatWhile ?_) fun _ => .expect _) rfl
  exact .bind (shelters_type hg) fun _ => (Shelters.eat _).choose (shelters_isAt.map) (.pure _)

lemma makes_typeName : Makes a (placeOf a) (typeName g) := by
  refine .ordinary (.bind .advance fun _ => .bind (.given ?_ ?_) fun _ => .bind (.given ?_ ?_) fun _ => .pure _)
    fun _ => rfl
  · exact .ask fun _ => (Asks.isAt _).and (.nthIs 1 _)
  · exact .bind .advance fun _ => .advance
  · exact .ask fun _ => (Asks.isAt _).and (.not (.nthIs 1 _))
  · exact shelters_typeArguments hg

omit hg in
lemma shelters_members {member : Parser Unit} {what : String} (h : Shelters a pl member) :
    Shelters a pl (members member what) := by
  refine (Shelters.eat _).choose (.bind (.repeatWhile ?_) fun _ => .expect _) .expected
  exact (Shelters.ask fun _ => (Asks.isAt _).or (.isAt _)).choose (.pure _) ((Shelters.eat _).choose (.pure _)
    (.bind (.orSkip h shelters_separator) fun _ => .pure _))

omit hg in
lemma shelters_fieldTag : Shelters a pl fieldTag :=
  (Shelters.ask fun _ => (Asks.isAt _).or (.isAt _)).choose .advance (.pure _)

lemma shelters_fieldDeclaration : Shelters a (placeOf a) (fieldDeclaration g) := by
  have hembedded : Shelters a (placeOf a) (node .fieldDeclaration do
      let _ ← typeName g
      fieldTag) := .ordinary (.bind (makes_typeName hg).shelters fun _ => shelters_fieldTag) rfl
  have hnames : Shelters a (placeOf a) (namedFields g) :=
    .bind shelters_name fun _ => .bind (shelters_commas shelters_name) fun _ => shelters_type hg
  refine .peek fun _ => .nth fun _ => ?_
  split
  · exact .ordinary (.bind (offers_type? hg).shelters fun _ => shelters_fieldTag) rfl
  iterate 5 exact hembedded
  · exact .ordinary (.bind hnames fun _ => shelters_fieldTag) rfl
  · exact .pure _

lemma shelters_interfaceMember : Shelters a (placeOf a) (interfaceMember g) := by
  refine (Shelters.ask fun _ => (Asks.isAt _).and (.nthIs 1 _)).choose ?_ ?_
  · exact .ordinary (.bind shelters_name fun _ => shelters_signature hg) rfl
  · exact (Shelters.ask fun _ => (Asks.isAtAny _).or (.isAt _)).choose (shelters_typeElement hg) (.pure _)

lemma shelters_compoundType (first : Kind) : Shelters a (placeOf a) (compoundType g first) := by
  have htype : ∀ k : Kind, Shelters a (placeOf a) (type g >>= fun _ => pure k) :=
    fun k => (shelters_type hg).bind fun _ => .pure k
  unfold compoundType
  split
  · exact .bind .advance fun _ => htype _
  · refine .bind .advance fun _ => (Shelters.eat _).choose (htype _) ?_
    exact .bind (.otherwise (.eat _) (shelters_expression hg)) fun _ => .bind (.expect _) fun _ => htype _
  · exact .bind .advance fun _ => .bind (shelters_type hg) fun _ => .bind (.expect _) fun _ => .pure _
  · exact .bind .advance fun _ => .bind (.expect _) fun _ => .bind (shelters_type hg) fun _ =>
      .bind (.expect _) fun _ => htype _
  · exact .bind .advance fun _ => .bind (.eat _) fun _ => htype _
  · exact .bind .advance fun _ => .bind (.expect _) fun _ => htype _
  · exact .bind .advance fun _ => .bind (shelters_signature hg) fun _ => .pure _
  · exact .bind .advance fun _ => .bind (shelters_members (shelters_fieldDeclaration hg)) fun _ => .pure _
  · exact .bind .advance fun _ => .bind (shelters_members (shelters_interfaceMember hg)) fun _ => .pure _

omit hg in
/-- No type is a literal. -/
lemma isOrdinary_compoundType (first : Kind) (s : Parser.State) :
    isOrdinary ((compoundType g first).run s).1 = true := by
  unfold compoundType
  split
  · rfl
  · rw [bracketType, run_bind, run_bind]
    split <;> rfl
  iterate 7 rfl

lemma offers_typeInner : Offers a (placeOf a) (typeInner g) := by
  refine .choose (fun _ => .isAt _) (makes_typeName hg).offers fun f => .peek fun first => ?_
  have hmakes : Makes a (placeOf a) (nodeBy (compoundType g first)) :=
    .ordinary (shelters_compoundType hg first) (isOrdinary_compoundType first)
  exact hmakes.offers f

/-! ## Composite literals -/

lemma offers_elementValue? : Offers a (placeOf a) (elementValue? g) :=
  .choose (fun _ => .isAt _) hg.literalValue.offers (offers_expression? hg)

lemma shelters_element : Shelters a (placeOf a) (element g) := by
  refine fun f => (offers_elementValue? hg f).bind fun v f' hf => ?_
  cases v with
  | none => exact .pure hf
  | some k =>
    refine .bind (Q := fun _ f' => Adds (placeOf a) f f') (.ask (fun _ => .isAt _) fun v => ?_) fun _ _ hf => .pure hf
    cases v with
    | false => exact .pure hf.adds
    | true =>
      exact (Wraps.wrap (.bind .advance fun _ => (offers_elementValue? hg).shelters.discard) rfl hf).mono
        fun _ _ ⟨_, hf⟩ => hf.adds

/-- Between the braces of a literal literals are allowed again. -/
lemma makes_literalValue : Makes a pl (literalValue g) := by
  have helements : Shelters true .free (repeatWhile do
      if ← isAt .rightBrace <||> isAt .endOfInput then pure false
      else if ← element g then eat .comma
      else pure false) :=
    .repeatWhile ((Shelters.ask fun _ => (Asks.isAt _).or (.isAt _)).choose (.pure _)
      ((shelters_element (a := true) hg).choose (.eat _) (.pure _)))
  exact .nodeBy (.bind .advance fun _ => .bind (.withComposites helements) fun _ => .bind (.expect _) fun _ => .pure _)
    fun _ _ => fits_shield rfl

/-! ## Operands -/

lemma offers_operand? : Offers a (placeOf a) (operand? g) := by
  have hleaf : ∀ k, isOrdinary k = true → Offers a (placeOf a) (some <$> nodeBy do
      advance
      pure k) := fun k hk => Makes.offers (.ordinary (.bind .advance fun _ => .pure k) fun _ => hk)
  refine fun f => .peek fun first => ?_
  split
  iterate 10 exact hleaf _ rfl f
  · have hparen : Makes a (placeOf a) (nodeBy do
        advance
        withComposites true (expression g)
        expect .rightParen
        pure .parenExpression) :=
      .nodeBy (.bind .advance fun _ => .bind (.withComposites (shelters_expression (a := true) hg)) fun _ =>
        .bind (.expect _) fun _ => .pure _) fun _ _ => fits_shield rfl
    exact hparen.offers f
  · have hfunction : Makes a (placeOf a) (nodeBy do
        advance
        signature g
        if ← isAt .leftBrace then
          block g
          pure .functionLiteral
        else pure .functionType) := by
      refine .ordinary (.bind .advance fun _ => .bind (shelters_signature hg) fun _ =>
        shelters_isAt.choose (.bind (shelters_block hg) fun _ => .pure _) (.pure _)) fun s => ?_
      simp only [run_bind]
      split <;> rfl
    exact hfunction.offers f
  iterate 6 exact offers_type? hg f
  · exact .pure (.refl f)

lemma wraps_selector : Wraps a (placeOf a) (selector g) := by
  refine .ordinary (.bind .advance fun _ => (Shelters.eat _).choose ?_ ?_) fun s => ?_
  · exact .bind (.otherwise (.eat _) (shelters_type hg)) fun _ => .bind (.expect _) fun _ => .pure _
  · exact .bind shelters_nameRef fun _ => .pure _
  · simp only [run_bind]
    split <;> rfl

/-- Among the arguments of a call literals are allowed again. -/
lemma shelters_argumentList : Shelters a pl (argumentList g) := by
  have harguments : Shelters true .free (repeatWhile do
      if ← isAt .rightParen <||> isAt .endOfInput then pure false
      else if (← expression? g).isNone then pure false
      else
        let _ ← eat .ellipsis
        eat .comma) := by
    refine .repeatWhile ((Shelters.ask fun _ => (Asks.isAt _).or (.isAt _)).choose (.pure _) ?_)
    refine .bind (offers_expression? (a := true) hg).shelters fun v => ?_
    cases v with
    | none => exact .pure _
    | some _ => exact .bind (.eat _) fun _ => .eat _
  exact .shield (.bind .advance fun _ => .bind (.withComposites harguments) fun _ => .expect _) rfl

/-- Behind the operand of a subscript literals are allowed again. -/
lemma wraps_index : Wraps a (placeOf a) (index g) := by
  have hexpression : Shelters true .free (expression g) := shelters_expression (a := true) hg
  have hindices : Shelters true .free (indices g) := .bind hexpression fun _ => .repeatWhile
    ((Shelters.eat _).choose (shelters_isAt.choose (.pure _) (hexpression.bind fun _ => .pure _)) (.pure _))
  have hbounds : Shelters true .free (sliceBounds g) := .loop fun _ => (Shelters.eat _).choose
    (.bind ((Shelters.ask fun _ => (Asks.isAt _).or (.isAt _)).otherwise hexpression) fun _ => .pure _) (.pure _)
  have hinside : Shelters a .free (do
      advance
      let sliced ← withComposites true do
        otherwise (isAt .colon) (indices g)
        sliceBounds g
      expect .rightBracket
      pure (if sliced then Kind.sliceExpression else .indexExpression)) :=
    .bind .advance fun _ => .bind (.withComposites (.bind (shelters_isAt.otherwise hindices) fun _ => hbounds)) fun _ =>
      .bind (.expect _) fun _ => .pure _
  rintro f k f' ⟨cs, rfl, hx⟩
  -- With a colon or without one, the node is a subscript.
  refine .wrapBy (((hinside [.node k cs]).always (A := fun k => isSubscript k = true) fun s => ?_).mono ?_)
  · simp only [run_bind, run_pure]
    split <;> rfl
  · rintro k' _ ⟨hk, ys, rfl, hys⟩
    rw [List.reverse_append]
    exact ⟨_, rfl, fits_subscript hk hx hys.reverse⟩

/-- A literal opens behind a plain name only where it is allowed. -/
lemma bears_suffix {k : Kind} {f f' : List Sprout} (hf : Puts (placeOf a) f (some k) f') :
    Bears a f' (suffix g k) fun r => Puts (placeOf a) f (some r.run) := by
  refine .peek fun next => ?_
  split
  · exact (wraps_selector hg f k f' hf).map fun _ _ hf => hf
  · have hcall := Wraps.ordinary (a := a) (.bind (shelters_argumentList hg) fun _ => .pure .callExpression) fun _ => rfl
    exact (hcall f k f' hf).map fun _ _ hf => hf
  · exact (wraps_index hg f k f' hf).map fun _ _ hf => hf
  · refine .allowed ?_
    split
    · next hopens =>
      obtain ⟨cs, rfl, hx⟩ := hf
      refine .map (Q := fun k => Puts (placeOf a) f (some k)) (.wrapBy ?_) fun _ _ hf => hf
      have hvalues : Makes a (placeOf a) (literalValue g) := makes_literalValue hg
      refine (hvalues [.node k cs]).bind ?_
      rintro _ _ ⟨cs', rfl, hvalue⟩
      exact .pure ⟨_, rfl, fits_literal hopens hx (fitsIn_singleton.2 hvalue)⟩
    · exact .pure hf
  · exact .pure hf

lemma offers_operandInner : Offers a (placeOf a) (operandInner g) := by
  have hmissing : ∀ operator, Makes a (placeOf a) (nodeBy do
      advance
      given (Option.isNone <$> unary? g) (error (.missingOperand operator))
      pure .unaryExpression) := fun operator =>
    .ordinary (.bind .advance fun _ => .bind ((offers_unary? hg).shelters.map.given .error) fun _ => .pure _)
      fun _ => rfl
  refine fun f => .ask (fun _ => asks_isAtUnaryOperator) fun v => ?_
  cases v with
  | true => exact .peek fun operator => (hmissing operator).offers f
  | false =>
    refine (offers_operand? hg f).bind fun v f' hf => ?_
    cases v with
    | none => exact .pure hf
    | some first =>
      refine .map (Q := fun k => Puts (placeOf a) f (some k)) (.loop (I := fun k => Puts (placeOf a) f (some k)) hf ?_)
        fun _ _ hf => hf
      exact fun _ _ hf => bears_suffix hg hf

end

end GoFront.Source
