import GoFront.Proofs.Parse.Source.Basic

/-!
# The source grammar comes to its end: signatures and types
-/

namespace GoFront.Source

open GoFront.Parser

variable {b : Frame} {ws : List Word} {g : Nested} (hg : g.Sound b)

/-! ## Signatures -/

lemma asks_namesParameter : Asks ws namesParameter True True 2 := by
  refine .nth 1 ?_
  split
  iterate 10 exact (Asks.pure true).weaken
  · refine .nth 2 (n := 0) ?_
    split <;> exact (Asks.pure _).weaken
  · exact (Asks.pure false).weaken

include hg

/-- A parameter takes a word: its name, its dots or the first word of its type. -/
lemma fits_parameter : Fits b ws (parameter g) (· = false) 11 9 := by
  refine .ite ((Asks.isAtAny _).or (.isAt _)) (fun hstart => ?_) fun _ => .pure rfl
  refine .andThen (a := 9) (c := 9) (.node ?_) fun _ _ _ => .pure trivial
  have hname : Fits b ws (given (isAt .identifier <&&> namesParameter) (name "parameter name")) anyway 4 0 :=
    .given ((Asks.isAt _).and asks_namesParameter) (fun h => (takes_name h.1).weaken) fun _ => trivial
  refine hname.bind (fun _ _ => ?_) fun _ _ _ => (Fits.eat _).seq fun _ _ _ => (fits_type hg).within
  refine (Fits.eat .ellipsis).bind (fun v hv => ?_) fun _ _ _ => (fits_type hg).within
  rcases hstart with hstart | hstart
  · exact (takes_type hg hstart).within
  · exact absurd hstart hv.2

lemma takes_parameterList {k : Kind} (h : ws ≠ []) : Fits b ws (parameterList g k) never 0 26 := by
  have hparameters : ∀ ws, Fits b ws (repeatWhile do
      if ← isAt .rightParen <||> isAt .endOfInput then pure false
      else if ← parameter g then eat .comma
      else pure false) anyway 13 23 := fun ws => by
    refine .repeatWhile (c := 10) fun ws' _ => .ite ((Asks.isAt _).or (.isAt _)) (fun _ => .pure rfl) fun _ => ?_
    refine (fits_parameter hg).bind (fun v hv => by subst hv; exact .pure rfl) fun v _ _ => ?_
    cases v with
    | true => exact (Fits.eat _).weaken
    | false => exact .pure trivial
  exact .node (.take h fun ws' _ => (hparameters ws').seq fun _ _ _ => (Fits.expect _).within)

lemma fits_signature : Fits b ws (signature g) anyway 9 32 := by
  have hparameters : Fits b ws (choose (isAt .leftParen) (parameterList g .parameterList) (expected "'('"))
      anyway 3 26 :=
    .choose (.isAt _) (fun h => (takes_parameterList hg (ne_nil_of_kindAt h (by decide))).weaken)
      fun _ => (Fits.expected _).within
  refine hparameters.seq fun _ _ _ => .ite (.isAt _) (fun h => ?_) fun _ => ?_
  · exact (Fits.node (takes_parameterList hg (ne_nil_of_kindAt h (by decide)))).weaken
  · refine .ite (.isAtAny _) (fun _ => ?_) fun _ => .pure trivial
    exact (Fits.node (fits_type? hg).discard).weaken

lemma fits_typeElement : Fits b ws (typeElement g) anyway 10 19 := by
  refine .weaken (a := 10) (c := 19) (.nodeIf (S := anyway) (.loopAny (c := 9) fun _ _ _ => ?_))
  refine (Fits.eat _).bind (fun tilde _ => ?_) fun tilde _ _ => ?_
  · refine (fits_type hg).bind (fun _ _ => ?_) fun _ _ _ => ?_
    · exact .ifEat (by decide) (fun _ _ _ => .pure trivial) fun _ => .pure ⟨_, rfl⟩
    · exact .ifEat (by decide) (fun _ _ _ => .pure trivial) fun _ => .pure trivial
  · refine (fits_type hg).seq fun _ _ _ => ?_
    exact .ifEat (by decide) (fun _ _ _ => .pure trivial) fun _ => .pure trivial

lemma takes_typeParameters (h : ws ≠ []) : Fits b ws (typeParameters g) never 0 25 := by
  have hparameters : ∀ ws, Fits b ws (repeatWhile do
      if ← isAt .identifier then
        node .typeParameter do
          name "type parameter"
          if ← isAtAny typeStart <||> isAt .tilde then typeElement g
        eat .comma
      else pure false) anyway 2 22 := fun ws => by
    refine .repeatWhile (c := 20) fun ws' _ => .ite (.isAt _) (fun h => ?_) fun _ => .pure rfl
    refine .andThen (a := 1) (c := 19) (.node ?_) fun _ _ _ => (Fits.eat _).weaken
    refine (takes_name h).andThen fun _ _ _ => ?_
    exact .ite ((Asks.isAtAny _).or (.isAt _)) (fun _ => (fits_typeElement hg).within) fun _ => .pure trivial
  exact .node (.take h fun ws' _ => (hparameters ws').seq fun _ _ _ => (Fits.expect _).within)

/-! ## Types -/

lemma takes_typeArguments (h : ws ≠ []) : Fits b ws (typeArguments g) never 0 18 := by
  have harguments : ∀ ws, Fits b ws (repeatWhile do
      type g
      if ← eat .comma then not <$> isAt .rightBracket else pure false) anyway 9 15 := fun ws => by
    refine .repeatWhile (c := 6) fun ws' _ => (fits_type hg).bind (fun _ _ => ?_) fun _ _ _ => ?_
    · exact .ifEat (by decide) (fun _ _ _ => .looks (.isAt _) (fun _ => .pure trivial) fun _ => .pure trivial)
        fun _ => .pure rfl
    · exact .ifEat (by decide) (fun _ _ _ => .looks (.isAt _) (fun _ => .pure trivial) fun _ => .pure trivial)
        fun _ => .pure trivial
  exact .node (.take h fun ws' _ => (harguments ws').seq fun _ _ _ => (Fits.expect _).within)

lemma takes_typeName (h : ws ≠ []) : Fits b ws (typeName g) never 0 18 := by
  have hpackage : ∀ ws, Fits b ws (given (isAt .dot <&&> nthIs 1 .identifier) do
      advance
      advance) anyway 2 0 := fun ws =>
    .given ((Asks.isAt _).and (.nthIs 1 _))
      (fun h => .take (ne_nil_of_kindAt h.1 (by decide)) fun _ _ => .advance_any) fun _ => trivial
  refine .nodeBy (.take h fun ws' _ => (hpackage ws').seq fun _ ws'' _ => .andPure (S := anyway) ?_ fun _ h => h)
  refine .given ((Asks.isAt _).and (.not (.nthIs 1 _))) (fun h => ?_) fun _ => trivial
  exact (takes_typeArguments hg (ne_nil_of_kindAt h.1 (by decide))).weaken

omit hg in
/-- Members between braces, if each of them fits. -/
lemma fits_members {member : Parser Unit} {what : String} {a c : Nat}
    (h : ∀ ws, Fits b ws member anyway a c) : Fits b ws (members member what) anyway 3 (a + c + 12) := by
  have hmembers : ∀ ws, Fits b ws (repeatWhile do
      if ← isAt .rightBrace <||> isAt .endOfInput then pure false
      else if ← eat .semicolon then pure true
      else
        orSkip member what (separator .rightBrace)
        pure true) anyway (a + 5) (c + 4 + (a + 5)) := fun ws => by
    refine .repeatWhile fun ws' _ => .ite ((Asks.isAt _).or (.isAt _)) (fun _ => .pure rfl) fun hend => ?_
    refine .ifEat (by decide) (fun _ _ _ => .pure trivial) fun _ => ?_
    have hskip : Fits b ws' (orSkip member what (separator .rightBrace)) never (a + 2) (c + 4) :=
      .orSkip (ne_nil_of_kindAt rfl hend.2) (h ws') fun _ _ => fits_separator.within
    exact hskip.andThen fun _ _ _ => .pure trivial
  exact .ifEat (by decide) (fun _ ws' _ => (hmembers ws').seq fun _ _ _ => (Fits.expect _).within)
    fun _ => (Fits.expected _).within

lemma fits_namedFields : Fits b ws (namedFields g) anyway 12 12 :=
  fits_name.seq fun _ _ _ => (fits_commas fun _ => fits_name).seq fun _ _ _ => (fits_type hg).within

omit hg in
lemma fits_fieldTag : Fits b ws fieldTag anyway 2 0 :=
  .ite ((Asks.isAt _).or (.isAt _)) (fun _ => Fits.advance_any.within) fun _ => .pure trivial

lemma fits_fieldDeclaration : Fits b ws (fieldDeclaration g) anyway 16 20 := by
  have hembedded : kindAt ws 0 = .identifier → Fits b ws (node .fieldDeclaration do
      let _ ← typeName g
      fieldTag) anyway 0 20 := fun h =>
    .node ((takes_typeName hg (ne_nil_of_kindAt h (by decide))).andThen fun _ _ _ => fits_fieldTag.within)
  refine .peek (.nth ?_)
  split
  · exact .node ((fits_type? hg).seq fun _ _ _ => fits_fieldTag.within)
  iterate 5
    · next h _ => exact (hembedded h).within
  · exact .node ((fits_namedFields hg).seq fun _ _ _ => fits_fieldTag.within)
  · exact .pure trivial

lemma fits_interfaceMember : Fits b ws (interfaceMember g) anyway 14 32 := by
  refine .ite ((Asks.isAt _).and (.nthIs 1 _)) (fun _ => ?_) fun _ => ?_
  · exact .node (fits_name.seq fun _ _ _ => (fits_signature hg).within)
  · exact .ite ((Asks.isAtAny _).or (.isAt _)) (fun _ => (fits_typeElement hg).within) fun _ => .pure trivial

lemma takes_bracketType (h : ws ≠ []) : Fits b ws (bracketType g) never 0 37 := by
  refine .take h fun ws' _ => .ifEat (by decide) (fun _ ws'' _ => ?_) fun _ => ?_
  · exact ((fits_type hg).andPure fun _ h => h).within
  · have hlength : Fits b ws' (otherwise (eat .ellipsis) (expression g)) anyway 14 26 :=
      .otherwiseAfter (Fits.eat _) fun _ _ => (fits_expression hg).within
    refine hlength.seq fun _ _ _ => (Fits.expect _).seq fun _ _ _ => ?_
    exact ((fits_type hg).andPure fun _ h => h).within

lemma takes_compoundType (first : Kind) (h : ws ≠ []) : Fits b ws (compoundType g first) never 0 58 := by
  have htype : ∀ ws k, Fits b ws (type g >>= fun _ => pure (f := Parser) (k : Kind)) anyway 8 4 := fun ws k =>
    (fits_type hg).andPure fun _ h => h
  unfold compoundType
  split
  · exact .take h fun ws' _ => (htype ws' _).within
  · exact (takes_bracketType hg h).within
  · refine .take h fun _ _ => (fits_type hg).seq fun _ _ _ => ?_
    exact ((Fits.expect _).andPure fun _ h => h).within
  · refine .take h fun _ _ => (Fits.expect _).seq fun _ _ _ => (fits_type hg).seq fun _ _ _ => ?_
    exact (Fits.expect _).seq fun _ ws' _ => (htype ws' _).within
  · exact .take h fun _ _ => (Fits.eat _).seq fun _ ws' _ => (htype ws' _).within
  · exact .take h fun _ _ => (Fits.expect _).seq fun _ ws' _ => (htype ws' _).within
  · exact .take h fun _ _ => ((fits_signature hg).andPure fun _ h => h).within
  · refine .take h fun _ _ => ?_
    exact ((fits_members fun _ => fits_fieldDeclaration hg).andPure fun _ h => h).within
  · refine .take h fun _ _ => ?_
    exact ((fits_members fun _ => fits_interfaceMember hg).andPure fun _ h => h).within

lemma takes_typeInner (h : typeStart.contains (kindAt ws 0) = true) :
    Fits b ws (typeInner g) never 2 58 := by
  have hws := ne_nil_of_contains h
  refine .ite (.isAt _) (fun _ => ?_) fun _ => .peek ?_
  · exact ((takes_typeName hg hws).map fun _ h => h).within
  · exact ((Fits.nodeBy (takes_compoundType hg _ hws)).map fun _ h => h).within

end GoFront.Source
