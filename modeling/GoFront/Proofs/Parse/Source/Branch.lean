import GoFront.Proofs.Parse.Source.Growth.File
import GoFront.Proofs.Parse.Source.Operand

/-!
# How statements are nested

Every production for a statement grows sprouts such as a node may have among its parts. The links of a chain of `if`
statements are on one level however many there are, so what is known of a link is a thing of its own (`Linked`), and
`keeps_nested` says how it is handed on from one level to the next.
-/

namespace GoFront.Source

open GoFront.Parser

/-- What is known of the links of a chain of `if` statements whose other parts have `P`. -/
structure Linked (P C : Sprout → Prop) : Prop where
  part : ∀ x, P x → C x
  link : ∀ {cs}, (∀ c ∈ cs, C c) → (Sprout.reportsIn cs = [] → Arranged .ifStatement (Sprout.stemsIn cs)) →
    C (.node .ifStatement cs)

variable {P C : Sprout → Prop} {q : Kind → Bool} {ws : List Word} {f f' : List Sprout} {g : Nested}
  (hP : Inherited P)

include hP

/-! ## Declarations -/

lemma keeps_group {spec : Parser Unit} (h : Keeps P spec) : Keeps P (group spec) := by
  refine .bind (.advance hP) fun _ => .bind (.repeatWhile ?_) fun _ => .expect hP _
  refine (Keeps.ask fun _ => (Asks.isAt _).or ((Asks.isAt _).or (asks_startsDeclaration 0))).choose (.pure _) ?_
  exact (Keeps.eat hP _).choose (.pure _) (.bind (.orSkip hP h (keeps_separator hP)) fun _ => .pure _)

lemma keeps_declare {k : Kind} {spec : Parser Unit} (hk : isArranged k = false) (h : Keeps P spec) :
    Keeps P (declare k spec) :=
  .plain hP hk (.bind (.advance hP) fun _ => Keeps.isAt.choose (keeps_group hP h) h)

lemma keeps_nameList : Keeps P nameList := by
  refine .bind (keeps_name hP) fun _ => .repeatWhile ?_
  exact (Keeps.ask fun _ => (Asks.isAt _).and (.nthIs 1 _)).choose
    (.bind (.advance hP) fun _ => .bind (keeps_name hP) fun _ => .pure _) (.pure _)

lemma keeps_importSpec : Keeps P importSpec := by
  refine .plain hP rfl (.bind (Keeps.isAt.choose (keeps_name hP) (.discard (.eat hP _))) fun _ => .peek fun _ => ?_)
  split
  iterate 4 exact .advance hP
  · exact .expected hP

section

variable (hg : g.Keeps P)

include hg

lemma keeps_variableSpec : Keeps P (variableSpec g) := by
  refine .plain hP rfl (.bind (keeps_nameList hP) fun _ => .bind .isAtAny fun typed => ?_)
  refine .bind (.given (.pure _) (keeps_type? hg).discard) fun _ => (Keeps.eat hP _).choose ?_ ?_
  · exact keeps_expressionList hP hg
  · split
    · exact .pure _
    · exact .expected hP

lemma keeps_constantSpec : Keeps P (constantSpec g) :=
  .plain hP rfl (.bind (keeps_nameList hP) fun _ => .bind (.given .isAtAny (keeps_type? hg).discard) fun _ =>
    (Keeps.eat hP _).choose (keeps_expressionList hP hg) (.pure _))

lemma keeps_typeSpec : Keeps P (typeSpec g) := by
  refine .plain hP rfl (.bind (keeps_name hP) fun _ => .bind (.given ?_ (keeps_typeParameters hP hg)) fun _ =>
    .bind (.eat hP _) fun _ => keeps_type hP hg)
  exact .ask fun _ => (Asks.isAt _).and ((Asks.nthIs 1 _).and (.not (.nthIs 2 _)))

lemma keeps_declaration : Keeps P (declaration g) := by
  refine .peek fun _ => ?_
  split
  · exact keeps_declare hP rfl (keeps_variableSpec hP hg)
  · exact keeps_declare hP rfl (keeps_constantSpec hP hg)
  · exact keeps_declare hP rfl (keeps_typeSpec hP hg)
  · exact .fail

lemma keeps_functionDeclaration : Keeps P (functionDeclaration g) :=
  .plain hP rfl (.bind (.advance hP) fun _ => .bind (.given .isAt (keeps_parameterList hP hg rfl)) fun _ =>
    .bind (keeps_name hP) fun _ => .bind (.given .isAt (keeps_typeParameters hP hg)) fun _ =>
      .bind (keeps_signature hP hg) fun _ => Keeps.isAt.choose (keeps_block hP hg) (.pure _))

/-! ## Simple statements -/

/-- The left side of an assignment is put into a node with the operator and the right side. -/
lemma single_assignment {allowRange : Bool} {k : Kind} (hk : isArranged k = false)
    (hsimple : isSimple allowRange k = true) (hf : Single P isValue f f') :
    Grows ws f' (assignment g allowRange k) fun _ _ => Single P (isSimple allowRange) f := by
  refine single_wrapBy hP hf fun x hx => ?_
  have hdone : ∀ {ws g k'}, isArranged k' = false → isSimple allowRange k' = true → Extends P [x] g →
      Grows ws g (pure (f := Parser) k') fun k _ g => (k ≠ .ifStatement ∧ isSimple allowRange k = true) ∧
        Row P (fun ps => Arranged k ps ∧ Stem.Firm ps) g := by
    refine fun {_ _ k'} hk' hsimple' hg => .pure ⟨⟨?_, hsimple'⟩, hx.append hg ?_⟩
    · rintro rfl
      exact absurd hk' (by decide)
    · rintro _ qs ⟨s, rfl, hs⟩
      exact ⟨arranged_of_not_isArranged hk' _, (hs.firm List.mem_cons_self).append qs⟩
  refine .peek (.bind (Keeps.advance hP ws [x]) fun _ ws' ys hys => ?_)
  refine .ite ((Asks.pure _).and (.isAt _)) (fun h => ?_) fun _ => ?_
  · have hrange : isSimple allowRange .rangeClause = true := by
      rw [(Bool.and_eq_true_iff.1 h.1).1]
      rfl
    refine .bind (Keeps.advance hP ws' ys) fun _ ws'' ys' hys' => ?_
    exact .bind (keeps_expression hP hg ws'' ys') fun _ _ _ hys'' => hdone rfl hrange ((hys.trans hys').trans hys'')
  · exact .bind (keeps_expressionList hP hg ws' ys) fun _ _ _ hys' => hdone hk hsimple (hys.trans hys')

omit hP hg in
lemma isSimple_of_assignmentKind? (allowRange : Bool) (c : Kind) :
    ∀ k ∈ assignmentKind? c, isArranged k = false ∧ isSimple allowRange k = true := by
  cases allowRange <;> cases c <;> decide

lemma single_simpleRest {allowRange : Bool} {first : Kind} (hf : Single P isValue f f') :
    Grows ws f' (simpleRest g allowRange first) fun _ _ => Single P (isSimple allowRange) f := by
  refine .peek ?_
  split
  · next k hassign =>
    obtain ⟨hk, hsimple⟩ := isSimple_of_assignmentKind? allowRange _ k hassign
    exact single_assignment hP hg hk hsimple hf
  · have hsimple : ∀ k, k = .stepStatement ∨ k = .sendStatement → isSimple allowRange k = true := by
      rintro _ (rfl | rfl) <;> rfl
    split
    iterate 2
      · exact single_wrapPlain hP hf (.bind (.advance hP) fun _ => .pure Kind.stepStatement) fun _ =>
          ⟨rfl, hsimple _ (.inl rfl)⟩
    · exact single_wrapPlain hP hf (.bind (.advance hP) fun _ => .bind (keeps_expression hP hg) fun _ =>
        .pure Kind.sendStatement) fun _ => ⟨rfl, hsimple _ (.inr rfl)⟩
    · exact .pure (hf.allow fun k hk => by rw [isSimple, hk]; rfl)

/-- A simple statement, or something that reports an error. -/
lemma single_simpleStatement? {allowRange : Bool} :
    Grows ws f (simpleStatement? g allowRange) fun _ _ => Single P (isSimple allowRange) f := by
  refine .ite ((Asks.pure _).and (.isAt _)) (fun h => ?_) fun _ => ?_
  · refine .map (Q := fun _ _ => Single P (isSimple allowRange) f) ?_ fun _ _ _ hf => hf
    refine single_nodeBy hP (K := (· = .rangeKeyword)) h.2 (by decide) (by decide)
      (.bind (keeps_expression hP hg) fun _ => .pure Kind.rangeClause) fun _ => ⟨rfl, ?_⟩
    rw [h.1]
    rfl
  · refine (single_expressionList? hP hg).bind fun v ws' f' hf => ?_
    cases v with
    | none => exact .pure (hf.allow fun k hk => by rw [isSimple, hk]; rfl)
    | some first => exact (single_simpleRest hP hg hf).map fun _ _ _ hf => hf

lemma keeps_simpleStatement? {allowRange : Bool} : Keeps P (simpleStatement? g allowRange) := fun _ _ =>
  (single_simpleStatement? hP hg).mono fun _ _ _ hf => hf.extends

omit hg in
lemma single_asStatement {k : Kind} (hf : Single P q f f') :
    Grows ws f' (asStatement k) fun _ _ => Single P (fun _ => true) f := by
  unfold asStatement
  split
  · exact .pure (hf.allow fun _ _ => rfl)
  · exact single_wrap hP rfl hf (.pure ())

lemma keeps_wholeStatement : Keeps P (wholeStatement g) := by
  refine fun ws f => (single_simpleStatement? hP hg).bind fun v ws' f' hf => ?_
  cases v with
  | none => exact .pure hf.extends
  | some k => exact (single_asStatement hP hf).mono fun _ _ _ hf => hf.extends

/-! ## Statements with headers -/

lemma keeps_requiredBlock : Keeps P (requiredBlock g) := Keeps.isAt.choose (keeps_block hP hg) (.expected hP)

lemma keeps_header : Keeps P (header g) := by
  have hsimple : Keeps P (discard (simpleStatement? g false)) := (keeps_simpleStatement? hP hg).discard
  exact .withComposites (Keeps.isAt.choose (.pure _) (.bind (.otherwise .isAt hsimple) fun _ =>
    (Keeps.eat hP _).choose (Keeps.isAt.choose (.pure _) hsimple) (.pure _)))

/-- The header of an `if`, where no block follows the keyword. -/
lemma row_header (hC : ∀ x, P x → C x)
    (hf : Row C (fun ps => ps = [.leaf .ifKeyword] ∧ kindAt ws 0 ≠ .leftBrace) f) :
    Grows ws f (header g) fun _ _ => Row C fun ps => ∃ header, ps = .leaf .ifKeyword :: header ∧ IfHeader header := by
  have hsimple : ∀ {ws f}, Grows ws f (discard (simpleStatement? g false)) fun _ _ => Single C (isSimple false) f :=
    (single_simpleStatement? hP hg).discard fun _ _ _ hf => hf.mono hC fun _ hk => hk
  refine .withComposites (.ite (.isAt _) (fun h => .pure (hf.mono fun _ hps => absurd h hps.2)) fun _ => ?_)
  -- In front of the semicolon, if there is one.
  refine .bind (Q := fun _ ws' => Row C fun ps => ∃ init : Option Stem, ps = .leaf .ifKeyword :: init.toList ∧
    (∀ s ∈ init, s.Fills (isSimple false)) ∧ (init = none → kindAt ws' 0 = .semicolon)) ?_ fun _ ws' f' hf => ?_
  · refine .otherwise (.isAt _) (fun h => hf.mono fun ps hps => ?_) fun _ => hsimple.mono fun _ _ _ hs =>
      hf.single hs fun ps s hps hs => ?_
    · exact ⟨none, hps.1, by simp, fun _ => h⟩
    · refine ⟨some s, by rw [hps.1]; rfl, fun s' hs' => ?_, fun h => absurd h (Option.some_ne_none s)⟩
      obtain rfl := Option.some.inj hs'
      exact hs
  refine .ifEat (by decide) (fun w ws'' _ hw => ?_) fun hno => .pure (hf.mono ?_)
  · have hsplit : Row C (fun ps => ∃ init : Option Stem, ps = .leaf .ifKeyword :: (init.toList ++ [Stem.leaf .semicolon]) ∧
        ∀ s ∈ init, s.Fills (isSimple false)) (.word w :: f') := by
      refine hf.word (hC _ (hP.word w)) ?_
      rintro _ ⟨init, rfl, hinit, -⟩
      exact ⟨init, by rw [hw]; rfl, hinit⟩
    refine .ite (.isAt _) (fun _ => .pure (hsplit.mono ?_)) fun _ => hsimple.mono fun _ _ _ hs => hsplit.single hs ?_
    · rintro _ ⟨init, rfl, hinit⟩
      exact ⟨init.toList ++ .leaf .semicolon :: (none : Option Stem).toList, rfl, .split hinit (by simp)⟩
    · rintro _ s ⟨init, rfl, hinit⟩ hs
      refine ⟨init.toList ++ .leaf .semicolon :: (some s).toList, by simp, .split hinit fun s' hs' => ?_⟩
      obtain rfl := Option.some.inj hs'
      exact hs
  · rintro _ ⟨init, rfl, hinit, hnone⟩
    cases init with
    | none => exact absurd (hnone rfl) hno
    | some s => exact ⟨[s], rfl, .plain (hinit s rfl)⟩

/-- A chain of `if` statements, one in the `else` branch of the other. -/
lemma single_ifChain (hC : Linked P C) (links : Nat) (h : kindAt ws 0 = .ifKeyword) :
    Grows ws f (ifChain g links) fun _ _ => Single C (· == .ifStatement) f := by
  induction links generalizing ws f with
  | zero => exact .fail
  | succ links ih =>
    have hblock : ∀ {ws f}, Grows ws f (block g) fun _ _ => Single C (· == .block) f :=
      (single_block hP hg).mono fun _ _ _ hf => hf.mono hC.part fun _ hk => hk
    have herror : ∀ e r, C (.error e r) := fun e r => hC.part _ (hP.error e r)
    refine .node (.mono (Q := fun _ _ => Row C (Arranged .ifStatement)) ?_ fun _ _ ys hys => ?_)
    · refine .take (K := (· = .ifKeyword)) h (by decide) fun w ws' _ hw => ?_
      have hif : Row C (· = [.leaf .ifKeyword]) [.word w] :=
        (Row.nil (A := (· = [])) rfl).word (hC.part _ (hP.word w)) fun _ hps => by rw [hps, hw]; rfl
      refine .bind (Q := fun _ ws' => Row C fun ps => ps = [.leaf .ifKeyword] ∧ kindAt ws' 0 ≠ .leftBrace)
        (.given (.isAt _) (fun _ => .error fun r => hif.error (herror _ r)) fun h => hif.mono fun ps hps => ⟨hps, h⟩)
        fun _ _ f' hf => ?_
      refine (row_header hP hg hC.part hf).bind fun _ _ f' hf => ?_
      refine .bind (Q := fun _ _ => Row C fun ps => ∃ header body, ps = .leaf .ifKeyword :: (header ++ [body]) ∧
        IfHeader header ∧ body.Fills (· == .block)) (.ite (.isAt _) (fun _ => ?_) fun _ => ?_) fun _ _ f' hf => ?_
      · refine hblock.mono fun _ _ _ hs => hf.single hs ?_
        rintro _ s ⟨header, rfl, hheader⟩ hs
        exact ⟨header, s, rfl, hheader, hs⟩
      · exact .expected fun _ _ => hf.error (herror _ _)
      · have hother : ∀ {w : Word} {f''}, w.kind = .elseKeyword →
            Single C (fun k => k == .ifStatement || k == .block) (.word w :: f') f'' →
              Row C (Arranged .ifStatement) f'' := by
          intro w f'' hw hs
          have helse : Row C (fun ps => ∃ header body, ps = .leaf .ifKeyword :: (header ++ [body, .leaf .elseKeyword]) ∧
              IfHeader header ∧ body.Fills (· == .block)) (.word w :: f') := by
            refine hf.word (hC.part _ (hP.word w)) ?_
            rintro _ ⟨header, body, rfl, hheader, hbody⟩
            exact ⟨header, body, by rw [hw]; simp, hheader, hbody⟩
          refine helse.single hs ?_
          rintro _ s ⟨header, body, rfl, hheader, hbody⟩ hs
          exact ⟨header, body, [.leaf .elseKeyword, s], by simp, hheader, hbody, .other hs⟩
        refine .ifEat (by decide) (fun w ws' _ hw => .peek ?_) fun _ => .pure (hf.mono ?_)
        · split
          · next h =>
            refine (ih h).mono fun _ _ _ hs => hother hw (hs.allow fun k hk => ?_)
            rw [hk, Bool.true_or]
          · refine hblock.mono fun _ _ _ hs => hother hw (hs.allow fun k hk => ?_)
            rw [hk, Bool.or_true]
          · refine .expected fun _ _ => Row.error (A := fun _ => True) ?_ (herror _ _)
            exact hf.word (hC.part _ (hP.word w)) fun _ _ => trivial
        · rintro _ ⟨header, body, rfl, hheader, hbody⟩
          exact ⟨header, body, [], rfl, hheader, hbody, .none⟩
    · have hnode : C (.node .ifStatement ys.reverse) :=
        hC.link (fun c hc => hys.all c (List.mem_reverse.1 hc)) hys.arranged
      refine (hys.mono fun ps hps => ⟨hps, ?_⟩).toSingle hnode rfl
      obtain ⟨header, body, rest, rfl, -⟩ := hps
      exact Stem.firm_of_leaf (c := .ifKeyword) (by decide) List.mem_cons_self

lemma keeps_forHeader : Keeps P (forHeader g) := by
  have hparts : Keeps P (forParts g) :=
    .bind (.advance hP) fun _ => .bind (.otherwise .isAt (keeps_expression hP hg)) fun _ =>
      .bind (.expect hP _) fun _ => Keeps.isAt.choose (.pure _) (keeps_wholeStatement hP hg)
  intro ws f
  refine .bind (Q := fun init _ f' => Extends P f f' ∧ (init ≠ none → Single P (isSimple true) f f'))
    (.choose (.isAt _) (fun _ => .pure ⟨.refl f, fun h => absurd rfl h⟩) fun _ => ?_) fun init ws' f' ⟨hf, hinit⟩ => ?_
  · exact (single_simpleStatement? hP hg).mono fun _ _ _ hf => ⟨hf.extends, fun _ => hf⟩
  split
  · exact .pure hf
  · refine .ite (.isAt _) (fun _ => ?_) fun _ => .pure hf
    cases init with
    | none =>
      have hclause : Keeps P (node .forClause (forParts g)) := .plain hP rfl hparts
      exact (hclause ws' f').mono fun _ _ _ hf' => hf.trans hf'
    | some k =>
      refine (single_asStatement hP (hinit (Option.some_ne_none k))).bind fun _ ws'' f'' hf => ?_
      exact (single_wrap hP rfl hf hparts).mono fun _ _ _ hf => hf.extends

lemma keeps_forStatement : Keeps P (forStatement g) :=
  .plain hP rfl (.bind (.advance hP) fun _ =>
    .bind (.withComposites (Keeps.isAt.choose (.pure _) (keeps_forHeader hP hg))) fun _ => keeps_requiredBlock hP hg)

/-! ## Clauses -/

lemma keeps_clauses {k : Kind} (hk : isArranged k = false) : Keeps P (clauses g k) := by
  have hsubject : Keeps P (caseSubject g k) := by
    unfold caseSubject
    split
    · exact (keeps_simpleStatement? hP hg).discard
    · exact keeps_expressionList hP hg
  have hclause : Keeps P (clause g k) :=
    .plain hP hk (.bind ((Keeps.eat hP _).choose hsubject (.advance hP)) fun _ => .bind (.expect hP _) fun _ =>
      .repeatWhile (keeps_statementRound hP hg))
  have hround : Keeps P (clauseOrSkip g k) := by
    refine .peek fun _ => ?_
    split
    iterate 2 exact hclause
    · exact .advance hP
    · exact .expectedAndAdvance hP
  refine (Keeps.eat hP _).choose (.bind (.withComposites (.repeatWhile ?_)) fun _ => .expect hP _) (.expected hP)
  exact (Keeps.ask fun _ => (Asks.isAt _).or ((Asks.isAt _).or asks_breaksBlock)).choose (.pure _)
    (hround.bind fun _ => .pure _)

/-! ## Statements -/

lemma keeps_returnStatement (h : kindAt ws 0 = .returnKeyword) : Grows ws f (node .returnStatement do
    advance
    if ← isAtAny expressionStart then expressionList g) fun _ _ => Extends P f := by
  refine .node (.take (K := (· = .returnKeyword)) h (by decide) fun w ws' _ _ => ?_)
  have hrow : Row P (· = [.leaf w.kind]) [.word w] := row_word hP
  refine .mono (Q := fun _ _ => Row P (Arranged .returnStatement)) (.ite (.isAtAny _) (fun _ => ?_) fun _ => .pure ?_)
    fun _ _ ys hys => (Extends.refl f).cons (hys.node hP (by decide))
  · exact (single_expressionList hP hg).mono fun _ _ _ hs =>
      hrow.single hs fun ps v hps hv => ⟨w.kind, .inr ⟨v, by rw [hps]; rfl, hv⟩⟩
  · exact hrow.mono fun ps hps => ⟨w.kind, .inl hps⟩

/-- A statement is on the level above that of its parts, since it can be a chain of `if` statements. -/
lemma keeps_statementInner {P' : Sprout → Prop} (hC : Linked P C) (hup : ∀ x, P x → P' x) (hlink : ∀ x, C x → P' x) :
    Keeps P' (statementInner g) := by
  have hjump : ∀ {k}, isArranged k = false → Keeps P (branch k) := fun hk =>
    .plain hP hk (.bind (.advance hP) fun _ => Keeps.isAt.choose (keeps_nameRef hP) (.pure _))
  have hspawn : ∀ {k}, isArranged k = false → Keeps P (spawn g k) := fun hk =>
    .plain hP hk (.bind (.advance hP) fun _ => keeps_expression hP hg)
  have hlabeled : Keeps P (labeledStatement g) :=
    .plain hP rfl (.bind (keeps_name hP) fun _ => .bind (.advance hP) fun _ =>
      (Keeps.ask fun _ => (Asks.isAt _).or (.isAt _)).choose (.pure _) hg.statement)
  intro ws f
  have hthis : ∀ {p : Parser Unit}, Keeps P p → Grows ws f p fun _ _ f' => Extends P' f f' := fun h => h.mono hup ws f
  refine .peek ?_
  split
  iterate 3 exact hthis (.plain hP rfl (keeps_declaration hP hg))
  · next h => exact (keeps_returnStatement hP hg h).mono fun _ _ _ hf => hf.mono hup
  iterate 2 exact hthis (hjump rfl)
  · exact hthis (.plain hP rfl (.bind (.advance hP) fun _ => keeps_nameRef hP))
  · exact hthis (.plain hP rfl (.advance hP))
  iterate 2 exact hthis (hspawn rfl)
  · next h => exact .remaining ((single_ifChain hP hg hC _ h).mono fun _ _ _ hf => hf.extends.mono hlink)
  · exact hthis (keeps_forStatement hP hg)
  · exact hthis (.plain hP rfl (.bind (.advance hP) fun _ => .bind (keeps_header hP hg) fun _ => keeps_clauses hP hg rfl))
  · exact hthis (.plain hP rfl (.bind (.advance hP) fun _ => keeps_clauses hP hg rfl))
  · exact hthis (keeps_block hP hg)
  · exact hthis ((Keeps.ask fun _ => (Asks.pure _).and (.nthIs 1 _)).choose hlabeled
      (Keeps.isAtAny.choose (keeps_wholeStatement hP hg) (.pure _)))

end

/-! ## Files -/

omit hP in
/-- What is known of the sprouts on a level, if the links of a chain of `if` statements are on the level above. -/
lemma keeps_nested {P C : Nat → Sprout → Prop} (hP : ∀ n, Inherited (P n)) (hC : ∀ n, Linked (P n) (C n))
    (hup : ∀ n x, P n x → P (n + 1) x) (hlink : ∀ n x, C n x → P (n + 1) x) (levels : Nat) :
    (nested levels).Keeps (P levels) := by
  induction levels with
  | zero => exact keeps_bottom (hP 0)
  | succ levels ih =>
    have h : (nested levels).Keeps (P (levels + 1)) := ih.mono (hup levels)
    exact {
      operand := fun _ => meets_operandInner (hP (levels + 1)) h
      type := fun hstart => meets_typeInner (hP (levels + 1)) h hstart
      statement := keeps_statementInner (hP levels) ih (hC levels) (hup levels) (hlink levels)
      literalValue := fun hbrace => single_literalValue (hP (levels + 1)) h hbrace }

lemma keeps_topLevel (htop : top.Keeps P) : Keeps P topLevel := by
  have hskip : Keeps P skipToDeclaration := by
    refine .plain hP rfl (.bind (.expected hP) fun _ => .bind (.advance hP) fun _ => .repeatWhile ?_)
    exact (Keeps.ask fun _ => (Asks.isAt _).or ((asks_startsDeclaration 0).or
      ((Asks.isAt _).and (asks_startsDeclaration 1)))).choose (.pure _) (.bind (.advance hP) fun _ => .pure _)
  refine .bind (.peek fun _ => ?_) fun _ => .discard (.eat hP _)
  split
  · exact keeps_declare hP rfl (keeps_importSpec hP)
  · exact keeps_functionDeclaration hP htop
  iterate 3 exact keeps_declaration hP htop
  · exact .advance hP
  · exact .plain hP rfl (.bind (.error hP) fun _ => .bind (.advance hP) fun _ => .bind (.eat hP _) fun _ => .pure _)
  · exact hskip

/-- What holds of every sprout of the productions seen from the top level holds of all that grows in a file. -/
lemma keeps_file (htop : top.Keeps P) : Keeps P file := by
  have hclause : Keeps P packageClause :=
    Keeps.isAt.choose (.bind (.plain hP rfl (.bind (.advance hP) fun _ => keeps_name hP)) fun _ =>
      .bind (.eat hP _) fun _ => .pure _) (.expected hP)
  exact .bind hclause fun _ => .repeatWhile
    (Keeps.isAt.choose (.pure _) ((keeps_topLevel hP htop).bind fun _ => .pure _))

omit hP in
/-- What is kept by the productions seen from the top level holds of the sprouts of every file. -/
lemma all_grown_file (htop : top.Keeps P) (hP : Inherited P) (text : Text) :
    ∀ x ∈ (file.run (.start Kind.isTrivia text 0 (tokens text))).2.grown.reverse, P x := by
  have hgrown : Extends P [] (file.run (.start Kind.isTrivia text 0 (tokens text))).2.grown :=
    keeps_file hP htop _ [] _ rfl rfl (sound_file_run text).calm
  exact fun x hx => hgrown.all x (List.mem_reverse.1 hx)

/-! ## The tree of a file -/

/-- Where nothing is reported, the parts of all nodes are arranged. -/
def Tidy (x : Sprout) : Prop := x.reports = [] → Stem.AllIn Arranged x.stems

omit hP in
lemma allIn_of_tidy {xs : List Sprout} (h : ∀ x ∈ xs, Tidy x) (hclean : Sprout.reportsIn xs = []) :
    Stem.AllIn Arranged (Sprout.stemsIn xs) := by
  induction xs with
  | nil => trivial
  | cons x xs ih =>
    obtain ⟨hx, hxs⟩ := List.forall_mem_cons.1 h
    obtain ⟨hclean, hclean'⟩ := List.append_eq_nil_iff.1 hclean
    exact Stem.allIn_append.2 ⟨hx hclean, ih hxs hclean'⟩

omit hP in
lemma tidy_node {k : Kind} {cs : List Sprout} (hcs : ∀ c ∈ cs, Tidy c)
    (h : Sprout.reportsIn cs = [] → Arranged k (Sprout.stemsIn cs)) : Tidy (.node k cs) :=
  fun hclean => ⟨⟨h hclean, allIn_of_tidy hcs hclean⟩, trivial⟩

omit hP in
lemma inherited_tidy : Inherited Tidy where
  word _ _ := ⟨trivial, trivial⟩
  error _ _ hclean := absurd hclean (List.cons_ne_nil _ _)
  node _ := tidy_node

omit hP in
lemma linked_tidy : Linked Tidy Tidy where
  part _ h := h
  link := tidy_node

omit hP in
/-- In the tree of a file without errors the parts of every node are arranged. -/
lemma arranged_parse {text : Text} (h : (parse text).errors = []) :
    ∀ n ∈ (parse text).root.descendants, Stem.All Arranged (n.stem Kind.isTrivia) := by
  have htop : top.Keeps Tidy := keeps_nested (P := fun _ => Tidy) (C := fun _ => Tidy) (fun _ => inherited_tidy)
    (fun _ => linked_tidy) (fun _ _ hx => hx) (fun _ _ hx => hx) nestingLimit
  refine Node.forall_descendants ?_ ?_
  · rw [kind_root_parse]
    exact arranged_of_not_isArranged rfl _
  · rw [stemsIn_parse]
    exact allIn_of_tidy (all_grown_file htop inherited_tidy text) (quiet_of_errors_nil h).1

end GoFront.Source
