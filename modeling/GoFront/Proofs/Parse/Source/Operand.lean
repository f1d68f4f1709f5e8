import GoFront.Proofs.Parse.Source.Arrangement
import GoFront.Proofs.Parse.Source.Expression

/-!
# What stands where an operand is expected

The productions for types and expressions grow one node each, or they report an error. Where an operand is expected the
node is an expression or a type that starts with a word of its own (`single_expression?`, `isOperandType`), and the
productions for calls, lists and operators arrange their parts as they should.
-/

namespace GoFront.Source

open GoFront.Parser

/-- The productions one level down grow what they should. -/
structure Nested.Keeps (P : Sprout → Prop) (g : Nested) : Prop where
  operand : ∀ {ws f}, expressionStart.contains (kindAt ws 0) = true → Grows ws f g.operand (Meets P isOperand f)
  type : ∀ {ws f}, typeStart.contains (kindAt ws 0) = true → Grows ws f g.type (Meets P (isTypeAt (kindAt ws 0)) f)
  statement : Source.Keeps P g.statement
  literalValue : ∀ {ws f}, kindAt ws 0 = .leftBrace → Grows ws f g.literalValue fun _ _ => Single P (fun _ => true) f

lemma Nested.Keeps.mono {P P' : Sprout → Prop} {g : Nested} (h : g.Keeps P) (hP : ∀ x, P x → P' x) : g.Keeps P' where
  operand hstart := (h.operand hstart).mono fun _ _ _ hf => hf.mono hP
  type hstart := (h.type hstart).mono fun _ _ _ hf => hf.mono hP
  statement := h.statement.mono hP
  literalValue hbrace := (h.literalValue hbrace).mono fun _ _ _ hf => hf.mono hP fun _ hk => hk

variable {P : Sprout → Prop} {q : Kind → Bool} {ws : List Word} {f f' : List Sprout} {g : Nested} (hP : Inherited P)

include hP

/-! ## Names and skipping -/

lemma keeps_name {what : String} : Keeps P (name what) := Keeps.isAt.choose (.plain hP rfl (.advance hP)) (.expected hP)

lemma keeps_nameRef {what : String} : Keeps P (nameRef what) :=
  Keeps.isAt.choose (.plain hP rfl (.advance hP)) (.expected hP)

/-- Where nothing is left to enter, an error node is grown. -/
lemma single_tooDeep : Grows ws f tooDeep fun _ _ => Single P q f := by
  have hround : ∀ depth, Keeps P (skipRound depth) := by
    intro depth
    refine Keeps.isAt.choose (.pure _) (.peek fun _ => ?_)
    split
    iterate 3 exact .bind (.advance hP) fun _ => .pure _
    iterate 5
      · split
        · exact .pure _
        · exact .bind (.advance hP) fun _ => .pure _
    · exact .bind (.advance hP) fun _ => .pure _
  exact single_error hP (.discard (.loop hround))

lemma keeps_bottom : Nested.bottom.Keeps P where
  operand _ := (single_tooDeep hP).map fun _ _ _ hf => hf
  type _ := (single_tooDeep hP).map fun _ _ _ hf => hf
  statement _ _ := (single_tooDeep (q := fun _ => true) hP).discard fun _ _ _ hf => hf.extends
  literalValue _ := single_tooDeep hP

variable (hg : g.Keeps P)

include hg

/-! ## Entries -/

omit hP in
lemma meets_type? : Grows ws f (type? g) (Meets P (isTypeAt (kindAt ws 0)) f) :=
  .ite (.isAtAny _) (fun h => hg.type h) fun _ => .pure rfl

omit hP in
lemma keeps_type? : Keeps P (type? g) := fun _ _ => (meets_type? hg).mono fun _ _ _ hf => hf.extends

lemma keeps_type : Keeps P (type g) := by
  refine .bind (keeps_type? hg) fun v => ?_
  cases v with
  | none => exact fun _ _ => (single_expectedOr (q := fun _ => true) hP).mono fun _ _ _ hf => hf.extends
  | some _ => exact .pure _

omit hP in
lemma meets_unary? : Grows ws f (unary? g) (Meets P isOperand f) :=
  .ite (.isAtAny _) (fun h => hg.operand h) fun _ => .pure rfl

/-- An operator is put into a node with the operand before it and the chain behind it. -/
lemma meets_binary? (tiers least : Nat) : Grows ws f (binary? g tiers least) (Meets P isOperand f) := by
  induction tiers generalizing least ws f with
  | zero => exact meets_unary? hg
  | succ tiers ih =>
    refine (meets_unary? hg).bind fun v ws' f' hf => ?_
    cases v with
    | none => exact .pure hf
    | some first =>
      refine .map (Q := fun _ _ => Single P isOperand f) ?_ fun _ _ _ hf => hf
      refine .loop (I := fun _ _ => Single P isOperand f) hf fun left ws f' hf => .peek ?_
      split
      · exact .pure hf
      · next n hn =>
        split
        · exact .pure hf
        · refine .map (Q := fun _ _ => Single P isOperand f) (single_wrapBy hP hf fun x hx => ?_) fun _ _ _ hf => hf
          refine .take (K := fun k => precedence? k = some n) hn (by simp [precedence?]) fun w ws' _ _ => ?_
          have hrow : Row P (fun ps => ∃ l c, ps = [l, .leaf c] ∧ l.Fills isOperand) [.word w, x] := by
            refine hx.word (hP.word w) ?_
            rintro _ ⟨l, rfl, hl⟩
            exact ⟨l, _, rfl, hl⟩
          refine .andPure (Q := fun _ _ => Row P fun ps => Arranged .binaryExpression ps ∧ Stem.Firm ps)
            (.givenNone (ih (n + 1)) (fun ws'' g hmissing => ?_) fun k ws'' g hright => ?_)
            fun _ _ _ hg => ⟨⟨by decide, rfl⟩, hg⟩
          · obtain rfl : g = [.word w, x] := hmissing
            exact .error fun r => hrow.error (hP.error _ r)
          · refine hrow.single hright ?_
            rintro _ r ⟨l, c, rfl, hl⟩ hr
            exact ⟨⟨l, c, r, rfl, hl, hr⟩, hl.firm List.mem_cons_self⟩

/-- An expression, or what stands in its place: an operand, or something that reports an error. -/
lemma single_expression? : Grows ws f (expression? g) fun _ _ => Single P isOperand f :=
  (meets_binary? hP hg 6 1).bind fun v ws' f' hf => by
    cases v with
    | none =>
      obtain rfl : f' = f := hf
      exact (single_expectedOr hP).andPure fun _ _ _ hf => hf
    | some k => exact .pure hf

lemma keeps_expression? : Keeps P (expression? g) := fun _ _ =>
  (single_expression? hP hg).mono fun _ _ _ hf => hf.extends

lemma keeps_expression : Keeps P (expression g) := (keeps_expression? hP hg).discard

/-- What an expression adds to a list of operands. -/
lemma row_expression {A : List Stem → Prop} (hA : ∀ ps s, A ps → s.Fills isOperand → A (ps ++ [s])) (hf : Row P A f) :
    Grows ws f (expression? g) fun _ _ => Row P A :=
  (single_expression? hP hg).mono fun _ _ _ h => hf.single h hA

omit hg hP in
/-- Operands, and words between them. -/
def IsList (ps : List Stem) : Prop := (∀ k qs, .branch k qs ∈ ps → isOperand k = true) ∧ Stem.Firm ps

omit hg hP in
lemma IsList.leaf {ps : List Stem} (h : IsList ps) (c : Kind) : IsList (ps ++ [.leaf c]) := by
  refine ⟨fun k qs hmem => ?_, h.2.append _⟩
  rcases List.mem_append.1 hmem with hmem | hmem
  · exact h.1 k qs hmem
  · exact nomatch List.mem_singleton.1 hmem

omit hg hP in
lemma IsList.operand {ps : List Stem} {s : Stem} (h : IsList ps) (hs : s.Fills isOperand) : IsList (ps ++ [s]) := by
  refine ⟨fun k qs hmem => ?_, h.2.append _⟩
  rcases List.mem_append.1 hmem with hmem | hmem
  · exact h.1 k qs hmem
  · cases hs with
    | branch kind =>
      obtain ⟨rfl, -⟩ := Stem.branch.inj (List.mem_singleton.1 hmem)
      exact kind

omit hg in
/-- What goes on as long as there are commas. -/
lemma keeps_commas {body : Parser Unit} (h : Keeps P body) : Keeps P (repeatWhile do
    if ← eat .comma then
      body
      pure true
    else pure false) :=
  .repeatWhile ((Keeps.eat hP _).choose (h.bind fun _ => .pure _) (.pure _))

/-- A value: an operand, a list of operands, or something that reports an error. -/
lemma single_expressionList? : Grows ws f (expressionList? g) fun _ _ => Single P isValue f := by
  have hvalue : ∀ k, isOperand k = true → isValue k = true := fun k hk => by rw [isValue, hk]; rfl
  refine (single_expression? hP hg).bind fun v ws' f' hf => ?_
  cases v with
  | none => exact .pure (hf.allow hvalue)
  | some first =>
    refine .ite (.isAt _) (fun _ => ?_) fun _ => .pure (hf.allow hvalue)
    refine .map (Q := fun _ _ => Single P isValue f) (single_wrapBy hP hf fun x hx => ?_) fun _ _ _ hf => hf
    have hfirst : Row P IsList [x] := hx.mono <| by
      rintro _ ⟨s, rfl, hs⟩
      refine ⟨fun k qs hmem => ?_, hs.firm List.mem_cons_self⟩
      obtain rfl := List.mem_singleton.1 hmem
      cases hs with
      | branch kind => exact kind
    refine .andPure (Q := fun _ _ => Row P IsList) ?_ fun _ _ _ hg => ⟨⟨by decide, rfl⟩, hg⟩
    refine .repeatWhile (I := fun _ => Row P IsList) hfirst fun ws f hf => ?_
    refine .ifEat (by decide) (fun w ws' _ _ => ?_) fun _ => .pure ⟨Bool.noConfusion, fun _ => hf⟩
    have hcomma : Row P IsList (.word w :: f) := hf.word (hP.word w) fun _ h => h.leaf _
    refine .andPure (Q := fun _ _ => Row P IsList) ?_ fun _ _ _ hg => ⟨fun _ => hg, Bool.noConfusion⟩
    exact (row_expression hP hg (fun _ _ h hs => h.operand hs) hcomma).discard fun _ _ _ hg => hg

lemma single_expressionList : Grows ws f (expressionList g) fun _ _ => Single P isValue f :=
  (single_expressionList? hP hg).discard fun _ _ _ hf => hf

lemma keeps_expressionList : Keeps P (expressionList g) := fun _ _ =>
  (single_expressionList hP hg).mono fun _ _ _ hf => hf.extends

omit hg in
lemma keeps_separator {closer : Kind} : Keeps P (separator closer) :=
  Keeps.isAt.choose (.pure _) ((Keeps.eat hP _).choose (.pure _) (.expected hP))

lemma keeps_statementRound : Keeps P (statementRound g) := by
  have hend : Keeps P statementEnd :=
    (Keeps.ask fun _ => (Asks.isAt _).or (.peek _)).choose (.pure _)
      ((Keeps.eat hP _).choose (.pure _) (.expected hP))
  refine .peek fun k => ?_
  split
  iterate 4 exact .pure _
  · exact .bind (.advance hP) fun _ => .pure _
  · split
    · exact .bind (.plain hP rfl (.advance hP)) fun _ => .pure _
    · exact (Keeps.ask fun _ => asks_breaksBlock).choose (.pure _)
        (.bind (.orSkip hP hg.statement hend) fun _ => .pure _)

lemma keeps_statements : Keeps P (statements g) := .repeatWhile (keeps_statementRound hP hg)

/-- A block starts with its brace, or reports an error. -/
lemma single_block : Grows ws f (block g) fun _ _ => Single P (· == .block) f := by
  have hrest : Keeps P (do
      withComposites true (statements g)
      expect .rightBrace) := .bind (.withComposites (keeps_statements hP hg)) fun _ => .expect hP _
  have hbody : Grows ws [] (do
      expect .leftBrace
      withComposites true (statements g)
      expect .rightBrace) fun _ _ => Row P fun ps => Arranged .block ps ∧ Stem.Firm ps := by
    refine .bind (Q := fun _ _ => Row P Stem.Firm) (.ifEat (by decide) (fun w ws' _ hw => .pure ?_) fun _ => ?_)
      fun _ _ _ hf => ?_
    · exact (row_word hP).mono fun ps hps => Stem.firm_of_leaf (c := w.kind) (by rw [hw]; decide) (by simp [hps])
    · exact .expected fun _ _ => (Row.nil (A := fun _ => True) trivial).error (hP.error _ _)
    · exact hf.keeps hrest fun ps qs hps => ⟨trivial, hps.append qs⟩
  exact .node (hbody.mono fun _ _ g hg => hg.toSingle ((hg.mono fun _ h => h.1).node hP (by decide)) rfl)

lemma keeps_block : Keeps P (block g) := fun _ _ => (single_block hP hg).mono fun _ _ _ hf => hf.extends

/-! ## Signatures -/

lemma keeps_parameter : Keeps P (parameter g) := by
  have hname : Keeps P (given (isAt .identifier <&&> namesParameter) (name "parameter name")) :=
    (Keeps.ask fun _ => (Asks.isAt _).and asks_namesParameter).given (keeps_name hP)
  have hnode : Keeps P (node .parameter do
      given (isAt .identifier <&&> namesParameter) (name "parameter name")
      let _ ← eat .ellipsis
      type g) :=
    .plain hP rfl (hname.bind fun _ => .bind (.eat hP _) fun _ => keeps_type hP hg)
  exact (Keeps.ask fun _ => (Asks.isAtAny _).or (.isAt _)).choose (hnode.bind fun _ => .pure _) (.pure _)

lemma keeps_parameterList {k : Kind} (hk : isArranged k = false) : Keeps P (parameterList g k) := by
  have hround : Keeps P (repeatWhile do
      if ← isAt .rightParen <||> isAt .endOfInput then pure false
      else if ← parameter g then eat .comma
      else pure false) :=
    .repeatWhile ((Keeps.ask fun _ => (Asks.isAt _).or (.isAt _)).choose (.pure _)
      ((keeps_parameter hP hg).choose (.eat hP _) (.pure _)))
  exact .plain hP hk (.bind (.advance hP) fun _ => hround.bind fun _ => .expect hP _)

lemma keeps_signature : Keeps P (signature g) := by
  have hlist : Keeps P (parameterList g .parameterList) := keeps_parameterList hP hg rfl
  have hresult : Keeps P (node .result (discard (type? g))) := .plain hP rfl (keeps_type? hg).discard
  exact .bind (Keeps.isAt.choose hlist (.expected hP)) fun _ =>
    Keeps.isAt.choose (.plain hP rfl hlist) (Keeps.isAtAny.choose hresult (.pure _))

lemma keeps_typeElement : Keeps P (typeElement g) := by
  have hterms : Keeps P (loop false fun union => do
      let tilde ← eat .tilde
      type g
      if ← eat .pipe then pure (.yield true) else pure (.done (union || tilde))) :=
    .loop fun _ => .bind (.eat hP _) fun _ => .bind (keeps_type hP hg) fun _ =>
      (Keeps.eat hP _).choose (.pure _) (.pure _)
  refine fun ws f => .nodeIf ((hterms ws []).mono fun v _ ys hys => ?_)
  -- A single type without a tilde gets no node of its own.
  cases v with
  | true => exact (Extends.refl f).cons (Keeps.node_of_extends hP hys rfl)
  | false => exact ⟨ys, rfl, hys.all⟩

lemma keeps_typeParameters : Keeps P (typeParameters g) := by
  have hparameter : Keeps P (node .typeParameter do
      name "type parameter"
      if ← isAtAny typeStart <||> isAt .tilde then typeElement g) :=
    .plain hP rfl (.bind (keeps_name hP) fun _ => (Keeps.ask fun _ => (Asks.isAtAny _).or (.isAt _)).choose
      (keeps_typeElement hP hg) (.pure _))
  refine .plain hP rfl (.bind (.advance hP) fun _ => .bind (.repeatWhile ?_) fun _ => .expect hP _)
  exact Keeps.isAt.choose (hparameter.bind fun _ => .eat hP _) (.pure _)

/-! ## Types -/

lemma keeps_typeArguments : Keeps P (typeArguments g) := by
  refine .plain hP rfl (.bind (.advance hP) fun _ => .bind (.repeatWhile ?_) fun _ => .expect hP _)
  exact .bind (keeps_type hP hg) fun _ => (Keeps.eat hP _).choose Keeps.isAt.map (.pure _)

/-- What follows the first word of the name of a type. -/
lemma keeps_typeNameRest : Keeps P (do
    given (isAt .dot <&&> nthIs 1 .identifier) do
      advance
      advance
    given (isAt .leftBracket <&&> not <$> nthIs 1 .rightBracket) (typeArguments g)
    pure Kind.typeName) := by
  refine .bind (.given ?_ ?_) fun _ => .bind (.given ?_ ?_) fun _ => .pure _
  · exact .ask fun _ => (Asks.isAt _).and (.nthIs 1 _)
  · exact .bind (.advance hP) fun _ => .advance hP
  · exact .ask fun _ => (Asks.isAt _).and (.not (.nthIs 1 _))
  · exact keeps_typeArguments hP hg

lemma single_typeName (h : kindAt ws 0 = .identifier) :
    Grows ws f (typeName g) fun _ _ => Single P (· == .typeName) f :=
  single_nodeBy hP (K := (· = .identifier)) h (by decide) (by decide) (keeps_typeNameRest hP hg) fun _ => ⟨rfl, rfl⟩

omit hg in
lemma keeps_members {member : Parser Unit} {what : String} (h : Keeps P member) : Keeps P (members member what) := by
  refine (Keeps.eat hP _).choose (.bind (.repeatWhile ?_) fun _ => .expect hP _) (.expected hP)
  exact (Keeps.ask fun _ => (Asks.isAt _).or (.isAt _)).choose (.pure _) ((Keeps.eat hP _).choose (.pure _)
    (.bind (.orSkip hP h (keeps_separator hP)) fun _ => .pure _))

omit hg in
lemma keeps_fieldTag : Keeps P fieldTag :=
  (Keeps.ask fun _ => (Asks.isAt _).or (.isAt _)).choose (.advance hP) (.pure _)

lemma keeps_typeName : Keeps P (typeName g) := by
  have hbody : Keeps P (advance >>= fun _ => do
      given (isAt .dot <&&> nthIs 1 .identifier) do
        advance
        advance
      given (isAt .leftBracket <&&> not <$> nthIs 1 .rightBracket) (typeArguments g)
      pure Kind.typeName) := .bind (.advance hP) fun _ => keeps_typeNameRest hP hg
  intro ws f
  refine .nodeBy (((hbody ws []).always (R := (· = .typeName)) fun _ => rfl).mono fun k _ ys ⟨hk, hys⟩ => ?_)
  exact (Extends.refl f).cons (hk ▸ Keeps.node_of_extends hP hys rfl)

lemma keeps_fieldDeclaration : Keeps P (fieldDeclaration g) := by
  have hembedded : Keeps P (node .fieldDeclaration do
      let _ ← typeName g
      fieldTag) := .plain hP rfl (.bind (keeps_typeName hP hg) fun _ => keeps_fieldTag hP)
  have hnames : Keeps P (namedFields g) :=
    .bind (keeps_name hP) fun _ => .bind (keeps_commas hP (keeps_name hP)) fun _ => keeps_type hP hg
  refine .peek fun _ => .nth fun _ => ?_
  split
  · exact .plain hP rfl (.bind (keeps_type? hg) fun _ => keeps_fieldTag hP)
  iterate 5 exact hembedded
  · exact .plain hP rfl (.bind hnames fun _ => keeps_fieldTag hP)
  · exact .pure _

lemma keeps_interfaceMember : Keeps P (interfaceMember g) := by
  refine (Keeps.ask fun _ => (Asks.isAt _).and (.nthIs 1 _)).choose ?_ ?_
  · exact .plain hP rfl (.bind (keeps_name hP) fun _ => keeps_signature hP hg)
  · exact (Keeps.ask fun _ => (Asks.isAtAny _).or (.isAt _)).choose (keeps_typeElement hP hg) (.pure _)

/-- A type that is not a name is a node of the kind that its first word tells. -/
lemma single_compoundType (hstart : typeStart.contains (kindAt ws 0) = true) (hname : kindAt ws 0 ≠ .identifier) :
    Grows ws f (nodeBy (compoundType g (kindAt ws 0))) fun _ _ => Single P (isTypeAt (kindAt ws 0)) f := by
  have htype : ∀ k : Kind, Keeps P (type g >>= fun _ => pure k) := fun k => (keeps_type hP hg).bind fun _ => .pure k
  have hfirst : ∀ {c : Kind} {k : Unit → Parser Kind}, kindAt ws 0 = c → typeStart.contains c = true → Keeps P (k ()) →
      (∀ s, isArranged ((k ()).run s).1 = false ∧ isTypeAt c ((k ()).run s).1 = true) →
      Grows ws f (nodeBy (advance >>= k)) fun _ _ => Single P (isTypeAt c) f := by
    intro c k hc hcstart hk hq
    refine single_nodeBy hP (K := fun k => typeStart.contains k = true) (hc ▸ hcstart) ?_ ?_ hk hq
    · decide
    · decide
  generalize hc : kindAt ws 0 = c at hstart hname ⊢
  unfold compoundType
  split
  · exact hfirst hc hstart (htype _) fun _ => ⟨rfl, rfl⟩
  · refine hfirst hc hstart ((Keeps.eat hP _).choose (htype _) ?_) fun s => ?_
    · exact .bind (.otherwise (.eat hP _) (keeps_expression hP hg)) fun _ => .bind (.expect hP _) fun _ => htype _
    · rw [run_bind]
      split <;> exact ⟨rfl, rfl⟩
  · exact hfirst hc hstart (.bind (keeps_type hP hg) fun _ => .bind (.expect hP _) fun _ => .pure _) fun _ => ⟨rfl, rfl⟩
  · exact hfirst hc hstart (.bind (.expect hP _) fun _ => .bind (keeps_type hP hg) fun _ =>
      .bind (.expect hP _) fun _ => htype _) fun _ => ⟨rfl, rfl⟩
  · exact hfirst hc hstart (.bind (.eat hP _) fun _ => htype _) fun _ => ⟨rfl, rfl⟩
  · exact hfirst hc hstart (.bind (.expect hP _) fun _ => htype _) fun _ => ⟨rfl, rfl⟩
  · exact hfirst hc hstart (.bind (keeps_signature hP hg) fun _ => .pure _) fun _ => ⟨rfl, rfl⟩
  · exact hfirst hc hstart (.bind (keeps_members hP (keeps_fieldDeclaration hP hg)) fun _ => .pure _) fun _ =>
      ⟨rfl, rfl⟩
  · refine hfirst hc hstart (.bind (keeps_members hP (keeps_interfaceMember hP hg)) fun _ => .pure _) fun _ =>
      ⟨rfl, ?_⟩
    have hinterface : c = .interfaceKeyword := by
      revert hstart hname
      cases c <;> first | contradiction | decide
    rw [hinterface]
    rfl

lemma meets_typeInner (hstart : typeStart.contains (kindAt ws 0) = true) :
    Grows ws f (typeInner g) (Meets P (isTypeAt (kindAt ws 0)) f) := by
  refine .ite (.isAt _) (fun h => ?_) fun h => .peek ?_
  · rw [h]
    exact (single_typeName hP hg h).map fun _ _ _ hf => hf
  · exact (single_compoundType hP hg hstart h).map fun _ _ _ hf => hf

/-! ## Composite literals -/

lemma single_elementValue? : Grows ws f (elementValue? g) fun _ _ => Single P (fun _ => true) f :=
  .ite (.isAt _) (fun h => (hg.literalValue h).map fun _ _ _ hf => hf) fun _ =>
    (single_expression? hP hg).mono fun _ _ _ hf => hf.allow fun _ _ => rfl

lemma keeps_element : Keeps P (element g) := by
  have hvalue : Keeps P (discard (elementValue? g)) := fun _ _ =>
    (single_elementValue? hP hg).discard fun _ _ _ hf => hf.extends
  refine fun ws f => (single_elementValue? hP hg).bind fun v ws' f' hf => ?_
  cases v with
  | none => exact .pure hf.extends
  | some k =>
    refine .andPure (Q := fun _ _ => Extends P f) (.given (.isAt _) (fun _ => ?_) fun _ => hf.extends)
      fun _ _ _ hf => hf
    exact (single_wrap hP rfl hf (.bind (.advance hP) fun _ => hvalue)).mono fun _ _ _ hf => hf.extends

lemma single_literalValue (h : kindAt ws 0 = .leftBrace) :
    Grows ws f (literalValue g) fun _ _ => Single P (fun _ => true) f := by
  have helements : Keeps P (repeatWhile do
      if ← isAt .rightBrace <||> isAt .endOfInput then pure false
      else if ← element g then eat .comma
      else pure false) :=
    .repeatWhile ((Keeps.ask fun _ => (Asks.isAt _).or (.isAt _)).choose (.pure _)
      ((keeps_element hP hg).choose (.eat hP _) (.pure _)))
  exact single_nodeBy hP (K := (· = .leftBrace)) h (by decide) (by decide)
    (.bind (.withComposites helements) fun _ => .bind (.expect hP _) fun _ => .pure _) fun _ => ⟨rfl, rfl⟩

/-! ## Operands -/

omit hP hg in
/-- A type that starts with a word of its own can stand where an operand is expected. -/
lemma isOperand_of_isTypeAt {c k : Kind} (hc : c ∈ [Kind.leftBracket, .mapKeyword, .chanKeyword, .structKeyword,
    .interfaceKeyword, .arrow]) (h : isTypeAt c k = true) : isOperand k = true := by
  simp only [List.mem_cons, List.not_mem_nil, or_false] at hc
  rcases hc with rfl | rfl | rfl | rfl | rfl | rfl <;> simp only [isTypeAt, Bool.or_eq_true, beq_iff_eq] at h
  · rcases h with rfl | rfl <;> rfl
  iterate 5
    · rw [h]
      rfl

lemma meets_operand? : Grows ws f (operand? g) (Meets P isOperand f) := by
  have hleaf : ∀ {c k : Kind}, kindAt ws 0 = c → c ≠ .endOfInput → c ≠ .semicolon →
      isArranged k = false → isOperand k = true → Grows ws f (some <$> nodeBy do
        advance
        pure k) (Meets P isOperand f) := fun {c k} hc hend hsemicolon hk hq =>
    (single_nodeBy hP (K := (· = c)) hc hend.symm hsemicolon.symm (.pure k) fun _ => ⟨hk, hq⟩).map fun _ _ _ hf => hf
  have htype : kindAt ws 0 ∈ [Kind.leftBracket, .mapKeyword, .chanKeyword, .structKeyword, .interfaceKeyword, .arrow] →
      Grows ws f (type? g) (Meets P isOperand f) := fun hc => (meets_type? hg).mono fun v _ _ hf => by
    cases v with
    | none => exact hf
    | some _ => exact Single.allow hf fun k hk => isOperand_of_isTypeAt hc hk
  refine .peek ?_
  split
  iterate 10
    · next h => exact hleaf h (by decide) (by decide) rfl rfl
  · next h =>
    refine .map (single_nodeBy hP (K := (· = .leftParen)) (q := isOperand) h (by decide) (by decide) ?_ fun _ =>
      ⟨rfl, rfl⟩) fun _ _ _ hf => hf
    exact .bind (.withComposites (keeps_expression hP hg)) fun _ => .bind (.expect hP _) fun _ => .pure _
  · next h =>
    refine .map (single_nodeBy hP (K := (· = .funcKeyword)) (q := isOperand) h (by decide) (by decide) ?_ fun s => ?_)
      fun _ _ _ hf => hf
    · exact .bind (keeps_signature hP hg) fun _ =>
        Keeps.isAt.choose (.bind (keeps_block hP hg) fun _ => .pure _) (.pure _)
    · simp only [run_bind]
      split <;> exact ⟨rfl, rfl⟩
  iterate 6
    · next h => exact htype (by rw [h]; decide)
  · exact .pure rfl

lemma single_selector (hf : Single P isOperand f f') : Grows ws f' (selector g) fun _ _ => Single P isOperand f := by
  have htype : Keeps P (otherwise (eat .typeKeyword) (type g)) := .otherwise (.eat hP _) (keeps_type hP hg)
  refine single_wrapPlain hP hf (.bind (.advance hP) fun _ => (Keeps.eat hP _).choose ?_ ?_) fun s => ?_
  · exact .bind htype fun _ => .bind (.expect hP _) fun _ => .pure _
  · exact .bind (keeps_nameRef hP) fun _ => .pure _
  · simp only [run_bind]
    split <;> exact ⟨rfl, rfl⟩

/-- The arguments of a call are operands. -/
lemma single_argumentList (h : kindAt ws 0 = .leftParen) :
    Grows ws f (argumentList g) fun _ _ => Single P (· == .argumentList) f := by
  have hwords : ∀ ws f, Row P IsList f → Grows ws f (do
      let _ ← eat .ellipsis
      eat .comma) fun _ _ => Row P IsList := by
    intro ws f hf
    have heat : ∀ c ws f, c ≠ Kind.endOfInput → Row P IsList f → Grows ws f (eat c) fun _ _ => Row P IsList := by
      intro c ws f hc hf
      have h : Grows ws f (eat c >>= pure) fun _ _ => Row P IsList :=
        .ifEat hc (fun w _ _ _ => .pure (hf.word (hP.word w) fun _ h => h.leaf _)) fun _ => .pure hf
      rwa [bind_pure] at h
    exact (heat _ ws f (by decide) hf).bind fun _ ws' f' hf => heat _ ws' f' (by decide) hf
  have hbody : Grows ws [] (do
      advance
      withComposites true <| repeatWhile do
        if ← isAt .rightParen <||> isAt .endOfInput then pure false
        else if (← expression? g).isNone then pure false
        else
          let _ ← eat .ellipsis
          eat .comma
      expect .rightParen) fun _ _ => Row P IsList := by
    refine .take (K := (· = .leftParen)) h (by decide) fun w ws' _ hw => ?_
    have hopen : Row P IsList [.word w] := (row_word hP).mono fun ps hps => by
      subst hps
      refine ⟨fun k qs hmem => ?_, Stem.firm_of_leaf (c := w.kind) (by rw [hw]; decide) List.mem_cons_self⟩
      exact nomatch List.mem_singleton.1 hmem
    refine .bind (Q := fun _ _ => Row P IsList) (.withComposites (.repeatWhile (I := fun _ => Row P IsList) hopen ?_))
      fun _ ws' f' hf => ?_
    · intro ws f hf
      refine .ite ((Asks.isAt _).or (.isAt _)) (fun _ => .pure ⟨Bool.noConfusion, fun _ => hf⟩) fun _ => ?_
      refine (row_expression hP hg (fun _ _ h hs => h.operand hs) hf).bind fun v ws' f' hf => ?_
      cases v with
      | none => exact .pure ⟨Bool.noConfusion, fun _ => hf⟩
      | some k => exact (hwords ws' f' hf).mono fun _ _ _ hf => ⟨fun _ => hf, fun _ => hf⟩
    · refine .ifEat (by decide) (fun w _ _ _ => .pure (hf.word (hP.word w) fun _ h => h.leaf _)) fun _ => ?_
      exact .expected fun _ _ => hf.error (hP.error _ _)
  refine .node (hbody.mono fun _ _ ys hys => ?_)
  exact Row.toSingle (k := .argumentList) hys ((hys.mono fun _ h => h.1).node hP (by decide)) rfl

lemma single_index (hf : Single P isOperand f f') : Grows ws f' (index g) fun _ _ => Single P isOperand f := by
  have hindices : Keeps P (indices g) := by
    refine .bind (keeps_expression hP hg) fun _ => .repeatWhile ((Keeps.eat hP _).choose ?_ (.pure _))
    exact Keeps.isAt.choose (.pure _) (.bind (keeps_expression hP hg) fun _ => .pure _)
  have hbounds : Keeps P (sliceBounds g) := by
    refine .loop fun _ => (Keeps.eat hP _).choose ?_ (.pure _)
    exact .bind (.otherwise (.ask fun _ => (Asks.isAt _).or (.isAt _)) (keeps_expression hP hg)) fun _ => .pure _
  refine single_wrapPlain hP hf (.bind (.advance hP) fun _ => .bind (.withComposites ?_) fun _ =>
    .bind (.expect hP _) fun _ => .pure _) fun s => ?_
  · exact .bind (.otherwise .isAt hindices) fun _ => hbounds
  · simp only [run_bind, run_pure]
    split <;> exact ⟨rfl, rfl⟩

/-- What follows an operand is put into a node with it. -/
lemma single_suffix {operand : Kind} (hf : Single P isOperand f f') :
    Grows ws f' (suffix g operand) fun _ _ => Single P isOperand f := by
  refine .peek ?_
  split
  · exact (single_selector hP hg hf).map fun _ _ _ hf => hf
  · next h =>
    refine .map (Q := fun _ _ => Single P isOperand f) (single_wrapBy hP hf fun x hx => ?_) fun _ _ _ hf => hf
    refine (single_argumentList hP hg h).andPure fun _ _ ys hys => ⟨⟨by decide, rfl⟩, hx.single hys ?_⟩
    rintro _ as ⟨s, rfl, hs⟩ has
    exact ⟨⟨s, as, rfl, hs, has⟩, hs.firm List.mem_cons_self⟩
  · exact (single_index hP hg hf).map fun _ _ _ hf => hf
  · next h =>
    refine .look fun allowed => ?_
    split
    · have hvalue : Grows ws f' (wrapBy do
          let _ ← literalValue g
          pure .compositeLiteral) fun _ _ => Single P isOperand f := by
        refine single_wrapBy hP hf fun x hx => ?_
        refine (single_literalValue hP hg h).andPure fun _ _ ys hys => ⟨⟨by decide, rfl⟩, ?_⟩
        refine hx.append hys.extends fun ps qs hps => ?_
        obtain ⟨s, rfl, hs⟩ := hps
        exact ⟨trivial, (hs.firm List.mem_cons_self).append qs⟩
      exact hvalue.map fun _ _ _ hf => hf
    · exact .pure hf
  · exact .pure hf

lemma meets_primary? : Grows ws f (primary? g) (Meets P isOperand f) :=
  (meets_operand? hP hg).bind fun v ws' f' hf => by
    cases v with
    | none => exact .pure hf
    | some first =>
      refine .map (Q := fun _ _ => Single P isOperand f) ?_ fun _ _ _ hf => hf
      refine .loop (I := fun _ _ => Single P isOperand f) hf fun operand ws f' hf => ?_
      exact (single_suffix hP hg hf).mono fun v _ _ hf => by cases v <;> exact hf

/-- An operator in front of its operand. -/
lemma meets_operandInner : Grows ws f (operandInner g) (Meets P isOperand f) := by
  refine .ite asks_isAtUnaryOperator (fun h => .peek ?_) fun _ => meets_primary? hP hg
  have hnode : Grows ws f (nodeBy do
      advance
      given (Option.isNone <$> unary? g) (error (.missingOperand (kindAt ws 0)))
      pure .unaryExpression) fun _ _ => Single P isOperand f := by
    refine .nodeBy (.take (K := fun k => unaryOperators.contains k = true ∨ k = .arrow) h (by decide)
      fun w ws' _ hw => ?_)
    have hrow : Row P (· = [.leaf w.kind]) [.word w] := row_word hP
    refine .andPure (Q := fun _ _ => Row P fun ps => Arranged .unaryExpression ps ∧ Stem.Firm ps)
      (.givenNone (meets_unary? hg) (fun _ ys hmissing => ?_) fun k _ ys hys => ?_) fun _ _ ys hys => ?_
    · obtain rfl : ys = [.word w] := hmissing
      exact .error fun r => hrow.error (hP.error _ r)
    · refine hrow.single hys ?_
      rintro _ x rfl hx
      exact ⟨⟨w.kind, x, rfl, hx⟩, hx.firm (List.mem_cons_of_mem _ List.mem_cons_self)⟩
    · exact hys.toSingle ((hys.mono fun _ h => h.1).node hP (by decide)) rfl
  exact hnode.map fun _ _ _ hf => hf

end GoFront.Source
