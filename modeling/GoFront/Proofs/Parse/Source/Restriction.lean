import GoFront.Proofs.Parse.Source.Composite
import GoFront.Proofs.Parse.Source.Growth.File

/-!
# Composite literals in headers are shielded

The headers of `if`, `for` and `switch` are parsed with composite literals not allowed, and their blocks and clauses
with composite literals allowed. So on the way down from such a statement to a literal with the plain name of a type,
there is a block, a clause, or a pair of brackets around the literal: `literals_shielded`.
-/

namespace GoFront.Source

open GoFront.Parser

variable {a : Bool} {pl : Place} {g : Nested}

/-! ## Declarations -/

lemma shelters_group {spec : Parser Unit} (h : Shelters a pl spec) : Shelters a pl (group spec) := by
  refine .bind .advance fun _ => .bind (.repeatWhile ?_) fun _ => .expect _
  refine (Shelters.ask fun _ => (Asks.isAt _).or ((Asks.isAt _).or (asks_startsDeclaration 0))).choose (.pure _) ?_
  exact (Shelters.eat _).choose (.pure _) (.bind (.orSkip h shelters_separator) fun _ => .pure _)

lemma shelters_declare {k : Kind} {spec : Parser Unit} (hk : isOrdinary k = true) (h : Shelters a (placeOf a) spec) :
    Shelters a (placeOf a) (declare k spec) :=
  .ordinary (.bind .advance fun _ => shelters_isAt.choose (shelters_group h) h) hk

lemma shelters_nameList : Shelters a (placeOf a) nameList := by
  refine .bind shelters_name fun _ => .repeatWhile ?_
  exact (Shelters.ask fun _ => (Asks.isAt _).and (.nthIs 1 _)).choose
    (.bind .advance fun _ => .bind shelters_name fun _ => .pure _) (.pure _)

lemma shelters_importSpec : Shelters a (placeOf a) importSpec := by
  refine .ordinary (.bind (shelters_isAt.choose shelters_name (.discard (.eat _))) fun _ => .peek fun _ => ?_) rfl
  split
  iterate 4 exact .advance
  · exact .expected

section

variable (hg : g.Shelters)

include hg

lemma shelters_variableSpec : Shelters a (placeOf a) (variableSpec g) := by
  refine .ordinary (.bind shelters_nameList fun _ => .bind shelters_isAtAny fun typed => ?_) rfl
  refine .bind (.given (.pure _) (offers_type? hg).shelters.discard) fun _ => (Shelters.eat _).choose ?_ ?_
  · exact shelters_expressionList hg
  · split
    · exact .pure _
    · exact .expected

lemma shelters_constantSpec : Shelters a (placeOf a) (constantSpec g) :=
  .ordinary (.bind shelters_nameList fun _ => .bind (shelters_isAtAny.given (offers_type? hg).shelters.discard) fun _ =>
    (Shelters.eat _).choose (shelters_expressionList hg) (.pure _)) rfl

lemma shelters_typeSpec : Shelters a (placeOf a) (typeSpec g) := by
  refine .ordinary (.bind shelters_name fun _ => .bind (.given ?_ (shelters_typeParameters hg)) fun _ =>
    .bind (.eat _) fun _ => shelters_type hg) rfl
  exact .ask fun _ => (Asks.isAt _).and ((Asks.nthIs 1 _).and (.not (.nthIs 2 _)))

lemma shelters_declaration : Shelters a (placeOf a) (declaration g) := by
  refine .peek fun _ => ?_
  split
  · exact shelters_declare rfl (shelters_variableSpec hg)
  · exact shelters_declare rfl (shelters_constantSpec hg)
  · exact shelters_declare rfl (shelters_typeSpec hg)
  · exact .fail

lemma shelters_functionDeclaration : Shelters a (placeOf a) (functionDeclaration g) :=
  .ordinary (.bind .advance fun _ => .bind (shelters_isAt.given (shelters_parameterList hg rfl)) fun _ =>
    .bind shelters_name fun _ => .bind (shelters_isAt.given (shelters_typeParameters hg)) fun _ =>
      .bind (shelters_signature hg) fun _ => shelters_isAt.choose (shelters_block hg) (.pure _)) rfl

/-! ## Simple statements -/

omit hg in
lemma bears_asStatement {k : Kind} {f f' : List Sprout} (hf : Puts (placeOf a) f (some k) f') :
    Bears a f' (asStatement k) fun _ f'' => ∃ k', Puts (placeOf a) f (some k') f'' := by
  unfold asStatement
  split
  · exact .pure ⟨k, hf⟩
  · exact Wraps.wrap (.pure _) rfl hf

lemma wraps_assignment {allowRange : Bool} {k : Kind} (hk : isOrdinary k = true) :
    Wraps a (placeOf a) (assignment g allowRange k) := by
  refine .ordinary (.peek fun _ => .bind .advance fun _ =>
    (Shelters.ask fun _ => (Asks.pure _).and (.isAt _)).choose ?_ ?_) fun s => ?_
  · exact .bind .advance fun _ => .bind (shelters_expression hg) fun _ => .pure _
  · exact .bind (shelters_expressionList hg) fun _ => .pure _
  · simp only [run_bind]
    split
    · rfl
    · exact hk

omit hg in
lemma isOrdinary_of_assignmentKind? (c : Kind) : ∀ k ∈ assignmentKind? c, isOrdinary k = true := by
  cases c <;> decide

lemma bears_simpleRest {allowRange : Bool} {k : Kind} {f f' : List Sprout} (hf : Puts (placeOf a) f (some k) f') :
    Bears a f' (simpleRest g allowRange k) fun k' => Puts (placeOf a) f (some k') := by
  refine .peek fun operator => ?_
  split
  · next k' hassign =>
    exact wraps_assignment hg (isOrdinary_of_assignmentKind? operator k' hassign) f k f' hf
  · split
    iterate 2 exact Wraps.ordinary (.bind .advance fun _ => .pure .stepStatement) (fun _ => rfl) f k f' hf
    · exact Wraps.ordinary (.bind .advance fun _ => .bind (shelters_expression hg) fun _ => .pure .sendStatement)
        (fun _ => rfl) f k f' hf
    · exact .pure hf

lemma offers_simpleStatement? {allowRange : Bool} : Offers a (placeOf a) (simpleStatement? g allowRange) := by
  have hrange : Makes a (placeOf a) (nodeBy do
      advance
      expression g
      pure .rangeClause) :=
    .ordinary (.bind .advance fun _ => .bind (shelters_expression hg) fun _ => .pure _) fun _ => rfl
  refine .choose (fun _ => (Asks.pure _).and (.isAt _)) hrange.offers fun f =>
    (offers_expressionList? hg f).bind fun v f' hf => ?_
  cases v with
  | none => exact .pure hf
  | some first => exact (bears_simpleRest hg hf).map fun _ _ hf => hf

lemma shelters_wholeStatement : Shelters a (placeOf a) (wholeStatement g) := by
  refine fun f => (offers_simpleStatement? hg f).bind fun v f' hf => ?_
  cases v with
  | none => exact .pure hf
  | some k => exact (bears_asStatement hf).mono fun _ _ ⟨_, hf⟩ => hf.adds

/-! ## Statements with headers -/

lemma shelters_requiredBlock : Shelters a pl (requiredBlock g) := shelters_isAt.choose (shelters_block hg) .expected

/-- In a header literals are not allowed, so it exposes none. -/
lemma shelters_header : Shelters a pl (header g) := by
  have hsimple : Shelters false .header (discard (simpleStatement? g false)) :=
    (offers_simpleStatement? (a := false) hg).shelters.discard
  have hparts : Shelters false .header (do
      unless ← isAt .leftBrace do
        otherwise (isAt .semicolon) (discard (simpleStatement? g false))
        if ← eat .semicolon then
          unless ← isAt .leftBrace do discard (simpleStatement? g false)) :=
    shelters_isAt.choose (.pure _) (.bind (shelters_isAt.otherwise hsimple) fun _ =>
      (Shelters.eat _).choose (shelters_isAt.choose (.pure _) hsimple) (.pure _))
  exact .withComposites (hparts.mono fun _ => Fits.of_header)

lemma shelters_ifChain (links : Nat) : Shelters a pl (ifChain g links) := by
  induction links generalizing pl with
  | zero => exact .fail
  | succ links ih =>
    refine .node (q := .statement) (.bind .advance fun _ => .bind (shelters_isAt.given .error) fun _ =>
      .bind (shelters_header hg) fun _ => .bind (shelters_requiredBlock hg) fun _ =>
        (Shelters.eat _).choose (.peek fun _ => ?_) (.pure _)) fun _ => fits_statement rfl
    -- Behind `else`.
    split
    · exact ih
    · exact shelters_block hg
    · exact .expected

lemma shelters_forHeader : Shelters a (placeOf a) (forHeader g) := by
  have hparts : Shelters a (placeOf a) (forParts g) :=
    .bind .advance fun _ => .bind (shelters_isAt.otherwise (shelters_expression hg)) fun _ => .bind (.expect _) fun _ =>
      shelters_isAt.choose (.pure _) (shelters_wholeStatement hg)
  have hinit : Offers a (placeOf a) (choose (isAt .semicolon) (pure none) (simpleStatement? g true)) :=
    fun f => .ask (fun _ => .isAt _) fun v => by
      cases v with
      | true => exact .pure (.refl f)
      | false => exact offers_simpleStatement? hg f
  refine fun f => (hinit f).bind fun init f' hf => ?_
  split
  · exact .pure hf.adds
  · refine .ask (fun _ => .isAt _) fun v => ?_
    cases v with
    | false => exact .pure hf.adds
    | true =>
      cases init with
      | none => exact (hparts.ordinary rfl f').mono fun _ _ hadds => Adds.trans hf hadds
      | some k =>
        refine (bears_asStatement hf).bind ?_
        rintro _ f'' ⟨k', hf⟩
        exact (Wraps.wrap hparts rfl hf).mono fun _ _ ⟨_, hf⟩ => hf.adds

lemma shelters_forStatement : Shelters a pl (forStatement g) := by
  have hheader : Shelters false .header (do unless ← isAt .leftBrace do forHeader g) :=
    shelters_isAt.choose (.pure _) (shelters_forHeader (a := false) hg)
  exact .node (q := .statement) (.bind .advance fun _ =>
    .bind (.withComposites (hheader.mono fun _ => Fits.of_header)) fun _ => shelters_requiredBlock hg)
    fun _ => fits_statement rfl

/-! ## Clauses -/

lemma shelters_clause {k : Kind} (hk : ∀ cs, FitsIn .free cs → Fits pl (.node k cs)) :
    Shelters true pl (clause g k) := by
  have hsubject : Shelters true .free (caseSubject g k) := by
    unfold caseSubject
    split
    · exact (offers_simpleStatement? (a := true) hg).shelters.discard
    · exact shelters_expressionList (a := true) hg
  exact .node (.bind ((Shelters.eat _).choose hsubject .advance) fun _ => .bind (.expect _) fun _ =>
    shelters_statements hg) hk

/-- Among the clauses of a statement literals are allowed again. -/
lemma shelters_clauses {k : Kind} (hk : ∀ cs, FitsIn .free cs → Fits pl (.node k cs)) :
    Shelters a pl (clauses g k) := by
  have hclause : Shelters true pl (clauseOrSkip g k) := by
    refine .peek fun _ => ?_
    split
    iterate 2 exact shelters_clause hg hk
    · exact .advance
    · exact .expectedAndAdvance
  refine (Shelters.eat _).choose (.bind (.withComposites (.repeatWhile ?_)) fun _ => .expect _) .expected
  exact (Shelters.ask fun _ => (Asks.isAt _).or ((Asks.isAt _).or asks_breaksBlock)).choose (.pure _)
    (hclause.bind fun _ => .pure _)

omit hg in
/-- A clause of a `switch` may stand among the parts of the statement. -/
lemma fits_caseClause {cs : List Sprout} (h : FitsIn .free cs) : Fits .statement (.node .caseClause cs) :=
  fits_branch h (headed_of_not_hasHeader rfl _) fun _ => ⟨_, rfl⟩

omit hg in
/-- A clause of a `select` may stand wherever a literal may. -/
lemma fits_commClause {cs : List Sprout} (h : FitsIn .free cs) : Fits .free (.node .communicationClause cs) :=
  fits_ordinary rfl (show FitsIn (placeOf true) cs from h)

/-! ## Statements -/

lemma shelters_labeledStatement : Shelters true .free (labeledStatement g) :=
  .plain (.bind shelters_name fun _ => .bind .advance fun _ =>
    (Shelters.ask fun _ => (Asks.isAt _).or (.isAt _)).choose (.pure _) hg.statement) rfl

lemma shelters_statementInner : Shelters true .free (statementInner g) := by
  have hname : ∀ {what : String}, Shelters true .free (nameRef what) := shelters_nameRef (a := true)
  have hexpression : Shelters true .free (expression g) := shelters_expression (a := true) hg
  have hlist : Shelters true .free (expressionList g) := shelters_expressionList (a := true) hg
  refine .peek fun k => ?_
  split
  iterate 3 exact .plain (shelters_declaration (a := true) hg) rfl
  · exact .plain (.bind .advance fun _ => shelters_isAtAny.choose hlist (.pure _)) rfl
  iterate 2 exact .plain (.bind .advance fun _ => shelters_isAt.choose hname (.pure _)) rfl
  · exact .plain (.bind .advance fun _ => hname) rfl
  · exact .plain .advance rfl
  iterate 2 exact .plain (.bind .advance fun _ => hexpression) rfl
  · exact .look fun links => shelters_ifChain hg links
  · exact shelters_forStatement hg
  · exact .node (.bind .advance fun _ => .bind (shelters_header hg) fun _ =>
      shelters_clauses hg fun _ => fits_caseClause) fun _ => fits_statement rfl
  · exact .plain (.bind .advance fun _ => shelters_clauses hg fun _ => fits_commClause) rfl
  · exact shelters_block hg
  · refine (Shelters.ask fun _ => (Asks.pure _).and (.nthIs 1 _)).choose (shelters_labeledStatement hg) ?_
    exact shelters_isAtAny.choose (shelters_wholeStatement (a := true) hg) (.pure _)

end

/-! ## Files -/

/-- On every level the productions shelter what they grow. -/
lemma shelters_nested (levels : Nat) : (nested levels).Shelters := by
  induction levels with
  | zero => exact shelters_bottom
  | succ levels ih =>
    exact {
      operand := offers_operandInner ih
      type := offers_typeInner ih
      statement := shelters_statementInner ih
      literalValue := makes_literalValue ih }

lemma shelters_topLevel : Shelters true .free topLevel := by
  have htop : top.Shelters := shelters_nested nestingLimit
  have hskip : Shelters true .free skipToDeclaration := by
    refine .plain (.bind .expected fun _ => .bind .advance fun _ => .repeatWhile ?_) rfl
    exact (Shelters.ask fun _ => (Asks.isAt _).or ((asks_startsDeclaration 0).or
      ((Asks.isAt _).and (asks_startsDeclaration 1)))).choose (.pure _) (.bind .advance fun _ => .pure _)
  refine .bind (.peek fun _ => ?_) fun _ => .discard (.eat _)
  split
  · exact shelters_declare (a := true) rfl shelters_importSpec
  · exact shelters_functionDeclaration (a := true) htop
  iterate 3 exact shelters_declaration (a := true) htop
  · exact .advance
  · exact .plain (.bind .error fun _ => .bind .advance fun _ => .bind (.eat _) fun _ => .pure _) rfl
  · exact hskip

lemma shelters_file : Shelters true .free file := by
  have hclause : Shelters true .free packageClause :=
    shelters_isAt.choose (.bind (.plain (.bind .advance fun _ => shelters_name) rfl) fun _ =>
      .bind (.eat _) fun _ => .pure _) .expected
  exact .bind hclause fun _ => .repeatWhile
    (shelters_isAt.choose (.pure _) (shelters_topLevel.bind fun _ => .pure _))

/-- In the tree of a file no header exposes a literal. -/
lemma headed_parse (text : Text) :
    ∀ n ∈ (parse text).root.descendants, Stem.All Headed (n.stem Kind.isTrivia) := by
  refine Node.forall_descendants ?_ ?_
  · rw [kind_root_parse]
    exact headed_of_not_hasHeader rfl _
  · rw [stemsIn_parse, Stem.allIn_iff]
    have hfits := (shelters_file [] (.start Kind.isTrivia text 0 (tokens text)) rfl rfl).2.fitsIn.reverse
    exact fun p hp => (hfits.all p hp).1

/-! ## The way down to a literal -/

/-- A way down a tree, from child to child, that leaves a statement through its header and comes to a literal with the
plain name of a type. No other statement with a header is on the way. -/
structure HeaderPath (h : Node) (path : List Node) (c : Node) : Prop where
  statement : hasHeader h.kind = true
  chain : (h :: path).IsChain fun m n => n ∈ m.nodes
  last : path.getLast? = some c
  nearest : ∀ n ∈ path, hasHeader n.kind = false
  header : ∀ n ∈ path.head?, n.kind ∉ [Kind.block, .ifStatement, .caseClause]
  literal : c.kind = .compositeLiteral
  plain : ∃ n ∈ c.nodes.head?, isPlainName n.kind = true

/-- On the way down there is a pair of brackets or a block, or the way leaves a subscript through another child than the
first. -/
def Shielded (h : Node) (path : List Node) : Prop :=
  (∃ n ∈ path, isShield n.kind = true) ∨
    ∃ m n, [m, n] <:+: h :: path ∧ isSubscript m.kind = true ∧ n ∈ m.nodes.tail

section

variable {isTrivia : Kind → Bool}

lemma stem_mem_stemsIn {m n : Node} (h : n ∈ m.nodes) : n.stem isTrivia ∈ Element.stemsIn isTrivia m.children := by
  rw [Element.stemsIn_eq_map]
  rw [m.nodes_eq_parts isTrivia, List.mem_filterMap] at h
  obtain ⟨e, he, hn⟩ := h
  cases e with
  | token i t => exact nomatch hn
  | node i k r cs =>
    obtain rfl := Option.some.inj hn
    exact List.mem_map_of_mem he

/-- The first node of a stem is that of the first child node. -/
lemma firstNode?_stemsIn (es : List Element) : firstNode? (Element.stemsIn isTrivia es) =
    (es.filterMap Element.node?).head?.map (Node.stem isTrivia) := by
  induction es with
  | nil => rfl
  | cons e es ih =>
    cases e with
    | token i t =>
      rw [Element.stemsIn, Element.stems, List.filterMap_cons_none rfl, ← ih]
      split <;> rfl
    | node i k r cs => rfl

/-- If nothing on the way shields what a node exposes, the node at the start of the way exposes it. -/
lemma exposed_of_chain {c : Node} (hc : Exposed (c.stem isTrivia)) (path : List Node) : ∀ m : Node,
    (m :: path).IsChain (fun m n => n ∈ m.nodes) → (m :: path).getLast? = some c →
    (∀ n ∈ m :: path, hasHeader n.kind = false ∧ isShield n.kind = false) →
    (∀ u v, [u, v] <:+: m :: path → isSubscript u.kind = true → v ∉ u.nodes.tail) → Exposed (m.stem isTrivia) := by
  induction path with
  | nil =>
    intro m _ hlast _ _
    obtain rfl : m = c := Option.some.inj hlast
    exact hc
  | cons n path ih =>
    intro m hchain hlast hopen hfirst
    obtain ⟨hn, hchain⟩ := List.isChain_cons_cons.1 hchain
    have hexposed : Exposed (n.stem isTrivia) := ih n hchain (by rwa [List.getLast?_cons_cons] at hlast)
      (fun u hu => hopen u (List.mem_cons_of_mem m hu))
      fun u v huv => hfirst u v (huv.trans (List.suffix_cons m (n :: path)).isInfix)
    obtain ⟨hheader, hshield⟩ := hopen m List.mem_cons_self
    cases hsubscript : isSubscript m.kind with
    | false => exact .inner hheader hshield hsubscript (stem_mem_stemsIn hn) hexposed
    | true =>
      -- A child of a subscript that is not among the later ones is the first.
      have hhead : m.nodes.head? = some n := by
        have htail := hfirst m n ⟨[], path, rfl⟩ hsubscript
        cases hnodes : m.nodes with
        | nil => exact absurd (hnodes ▸ hn) List.not_mem_nil
        | cons u us =>
          rw [hnodes] at hn htail
          rw [(List.mem_cons.1 hn).resolve_right htail]
          rfl
      refine .operand hsubscript ?_ hexposed
      rw [firstNode?_stemsIn, show m.children.filterMap Element.node? = m.nodes from rfl, hhead]
      rfl

end

/-- **Composite literals in headers are shielded**: on the way down from an `if`, `for` or `switch` through its header
to a literal with the plain name of a type, there is a pair of brackets or a block around the literal. -/
theorem literals_shielded (text : Text) {h c : Node} {path : List Node} (hh : h ∈ (parse text).root.descendants)
    (hpath : HeaderPath h path c) : Shielded h path := by
  by_contra hbare
  obtain ⟨hshield, hsubscript⟩ := not_or.1 hbare
  obtain ⟨n, hn, hplain⟩ := hpath.plain
  have hliteral : Exposed (c.stem Kind.isTrivia) := by
    have hfirst : firstNode? (Element.stemsIn Kind.isTrivia c.children) = _ := firstNode?_stemsIn c.children
    rw [show c.children.filterMap Element.node? = c.nodes from rfl, Option.mem_def.1 hn] at hfirst
    rw [Node.stem, Node.element, Element.stem, hpath.literal]
    exact .literal hfirst hplain
  obtain ⟨hstatement, hchain, hlast, hnearest, hheader, -, -⟩ := hpath
  cases path with
  | nil => exact absurd hlast (Option.some_ne_none c).symm
  | cons m path =>
    obtain ⟨hm, hchain'⟩ := List.isChain_cons_cons.1 hchain
    have hexposed : Exposed (m.stem Kind.isTrivia) := by
      refine exposed_of_chain hliteral path m hchain' hlast (fun u hu => ⟨hnearest u hu, ?_⟩) fun u v huv hu hv => ?_
      · exact Bool.eq_false_iff.2 fun hu' => hshield ⟨u, hu, hu'⟩
      · exact hsubscript ⟨u, v, huv.trans (List.suffix_cons h (m :: path)).isInfix, hu, hv⟩
    -- Of the parts of a statement with a header only its clauses expose anything.
    obtain ⟨ps, hcase⟩ := (headed_parse text h hh).1 hstatement _ (stem_mem_stemsIn hm) hexposed
    have hkind : m.kind = .caseClause := (Stem.branch.inj hcase).1
    exact hheader m rfl (by simp [hkind])

/-- In the condition of an `if` parentheses stand around a literal. -/
theorem literals_shielded_in_condition : ∃ h p c : Node,
    h ∈ (parse "package p\nfunc f() { if (T{}) { } }".toList).root.descendants ∧ HeaderPath h [p, c] c ∧
      Shielded h [p, c] := by
  have hfound : ((parse "package p\nfunc f() { if (T{}) { } }".toList).root.descendants.find?
      (·.kind == .ifStatement)).bind (fun h => h.nodes.head?.bind fun p => p.nodes.head?.bind fun c =>
        c.nodes.head?.map fun n => [h.kind, p.kind, c.kind, n.kind]) =
      some [.ifStatement, .parenExpression, .compositeLiteral, .nameRef] := by decide +kernel
  simp only [Option.bind_eq_some_iff, Option.map_eq_some_iff, List.cons.injEq, and_true] at hfound
  obtain ⟨h, hh, p, hp, c, hc, n, hn, hhkind, hpkind, hckind, hnkind⟩ := hfound
  have hmem : h ∈ (parse "package p\nfunc f() { if (T{}) { } }".toList).root.descendants :=
    List.mem_of_find?_eq_some hh
  have hpath : HeaderPath h [p, c] c := {
    statement := by rw [hhkind]; rfl
    chain := by simp [List.mem_of_head? hp, List.mem_of_head? hc]
    last := rfl
    nearest := by simp [hpkind, hckind, hasHeader]
    header := by simp [hpkind]
    literal := hckind
    plain := ⟨n, hn, by rw [hnkind]; rfl⟩ }
  exact ⟨h, p, c, hmem, hpath, literals_shielded _ hmem hpath⟩

end GoFront.Source
