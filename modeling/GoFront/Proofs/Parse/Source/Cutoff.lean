import GoFront.Proofs.Parse.Finding
import GoFront.Proofs.Parse.Source.Depth

/-!
# Where nesting is cut off in a source file

A number goes down a level for each pair of parentheses around it (`finds_operand`), a type for each star in front of it
(`finds_type`), a block for each pair of braces in it (`finds_block`). Where no level is left, the rest of the construct is
one error, and skipping stops at the closer that the last level waits for; so the levels above find nothing wrong.

The words of the texts are found piece by piece (`Lexes`). A lexer comes out of brackets with the same groups open as in
front of them (`Balanced`), so that the line end behind the declaration ends it.
-/

namespace GoFront.Source

open GoFront.Parser

/-! ## Skipping -/

/-- Where something that is nested ends: at a closer, or at the semicolon behind the declaration. -/
def Closing (ks : List Kind) : Prop := ahead ks 0 = .rightParen ∨ ahead ks 0 = .rightBrace ∨ ahead ks 0 = .semicolon

/-- Skipping ends where it should. -/
lemma finds_skip {ks : List Kind} (h : Closing ks) : LoopFinds ks skipRound 0 Any ks [] := by
  have hround : Parser.Finds ks (skipRound 0) (· = ForInStep.done 0) ks [] := by
    refine .no (.isAt ?_) (.peek ?_)
    · rcases h with h | h | h <;> rw [h] <;> rfl
    · rcases h with h | h | h <;> rw [h] <;> exact .pure rfl
  exact .done hround trivial

lemma finds_skipOpening {k : Kind} (hk : k = .leftParen ∨ k = .leftBrace) (depth : Nat) (ks : List Kind) :
    Parser.Finds (k :: ks) (skipRound depth) (· = ForInStep.yield (depth + 1)) ks [] := by
  rcases hk with rfl | rfl <;> exact .no (.isAt rfl) (.peek (.next .advance fun _ _ => .pure rfl))

lemma finds_skipClosing {k : Kind} (hk : k = .rightParen ∨ k = .rightBrace) (depth : Nat) (ks : List Kind) :
    Parser.Finds (k :: ks) (skipRound (depth + 1)) (· = ForInStep.yield depth) ks [] := by
  rcases hk with rfl | rfl <;>
    exact .no (.isAt rfl) (.peek (.ifNeg (Nat.succ_ne_zero depth) (.next .advance fun _ _ => .pure rfl)))

lemma finds_skipPlain {k : Kind} (hk : k = .intNumber ∨ k = .star ∨ k = .identifier) (depth : Nat) (ks : List Kind) :
    Parser.Finds (k :: ks) (skipRound depth) (· = ForInStep.yield depth) ks [] := by
  rcases hk with rfl | rfl | rfl <;> exact .no (.isAt rfl) (.peek (.next .advance fun _ _ => .pure rfl))

/-- A construct that is nested too deep is one error. -/
lemma finds_tooDeep {ks ks' : List Kind} (h : LoopFinds ks skipRound 0 Any ks' []) :
    Parser.Finds ks tooDeep Any ks' [.nestingTooDeep] :=
  .nodeBy (Parser.Finds.error.before fun _ _ => h.loop.discard.next fun _ _ => .pure trivial)

/-! ## Expressions -/

/-- Parentheses around a number. -/
abbrev parens : Nat → List Kind → List Kind := bracketed .leftParen .rightParen [.intNumber]

lemma starts_parens (n : Nat) (ks : List Kind) : expressionStart.contains (ahead (parens n ks) 0) = true := by
  cases n with
  | zero =>
    change expressionStart.contains .intNumber = true
    decide
  | succ n =>
    change expressionStart.contains .leftParen = true
    decide

variable {g : Nested} {rest : List Kind}

/-- An operand alone is an expression. -/
lemma finds_expression? {ks : List Kind} {es : List Problem} (hstart : expressionStart.contains (ahead ks 0) = true)
    (hrest : precedence? (ahead rest 0) = none) (h : Parser.Finds ks g.operand (·.isSome = true) rest es) :
    Parser.Finds ks (expression? g) (·.isSome = true) rest es := by
  have hunary : Parser.Finds ks (unary? g) (·.isSome = true) rest es := (Parser.Finds.isAtAny hstart).yes h
  have hbinary : Parser.Finds ks (binary? g 6 1) (·.isSome = true) rest es := by
    refine hunary.before fun v hv => ?_
    obtain ⟨first, rfl⟩ := Option.isSome_iff_exists.1 hv
    refine (LoopFinds.loop (.done (V := Any) (y := first) (.peek ?_) trivial)).map fun _ _ => rfl
    rw [hrest]
    exact .pure rfl
  refine hbinary.before fun v hv => ?_
  obtain ⟨k, rfl⟩ := Option.isSome_iff_exists.1 hv
  exact .pure rfl

/-- An operand with nothing behind it that belongs to it. -/
lemma finds_primary? {ks : List Kind} {es : List Problem} (hrest : Closing rest)
    (h : Parser.Finds ks (operand? g) (·.isSome = true) rest es) :
    Parser.Finds ks (primary? g) (·.isSome = true) rest es := by
  refine h.before fun v hv => ?_
  obtain ⟨first, rfl⟩ := Option.isSome_iff_exists.1 hv
  refine (LoopFinds.loop (.done (V := Any) (y := first) (.peek ?_) trivial)).map fun _ _ => rfl
  rcases hrest with h | h | h <;> rw [h] <;> exact .pure rfl

/-- A number. -/
lemma finds_number : Parser.Finds (.intNumber :: rest) (operand? g) (·.isSome = true) rest [] := by
  have hnode : Parser.Finds (.intNumber :: rest) (nodeBy do advance; pure .literal) Any rest [] :=
    .nodeBy (.next .advance fun _ _ => .pure trivial)
  exact .peek (hnode.map fun _ _ => rfl)

/-- An expression between parentheses. -/
lemma finds_paren {ks : List Kind} {es : List Problem} (h : Parser.Finds ks (expression g) Any (.rightParen :: rest) es) :
    Parser.Finds (.leftParen :: ks) (operand? g) (·.isSome = true) rest es := by
  have hnode : Parser.Finds (.leftParen :: ks)
      (nodeBy do advance; withComposites true (expression g); expect .rightParen; pure .parenExpression) Any rest es :=
    .nodeBy (.next .advance fun _ _ => .before h.withComposites fun _ _ =>
      .next (.expect .rightParen) fun _ _ => .pure trivial)
  exact .peek (hnode.map fun _ _ => rfl)

/-- A number between parentheses goes down a level for each pair. -/
lemma finds_operand (hrest : Closing rest) (levels n : Nat) :
    Parser.Finds (parens n rest) (nested levels).operand (·.isSome = true) rest (cutOff (n + 1) levels) := by
  induction levels generalizing n rest with
  | zero =>
    -- no level is left, not even for the number alone
    have hskip : LoopFinds (parens n rest) skipRound 0 Any rest [] :=
      .bracketed (finds_skipOpening (.inl rfl)) (finds_skipClosing (.inl rfl))
        (.yield (finds_skipPlain (.inl rfl) _ _)) (finds_skip hrest) n
    exact (finds_tooDeep hskip).map fun _ _ => rfl
  | succ levels ih =>
    change Parser.Finds _ (operandInner (nested levels)) _ _ _
    cases n with
    | zero => exact .no (.peek (.pure rfl)) (finds_primary? hrest finds_number)
    | succ n =>
      have hinner : Parser.Finds (parens n (.rightParen :: rest)) (expression? (nested levels)) (·.isSome = true)
          (.rightParen :: rest) (cutOff (n + 1) levels) := finds_expression? (starts_parens n _) rfl (ih (.inl rfl) n)
      rw [cutOff_succ]
      exact .no (.peek (.pure rfl)) (finds_primary? hrest (finds_paren hinner.discard))

/-! ## Types -/

/-- Stars in front of the name of a type. -/
def stars (n : Nat) (ks : List Kind) : List Kind := List.replicate n .star ++ .identifier :: ks

lemma starts_stars (n : Nat) (ks : List Kind) : typeStart.contains (ahead (stars n ks) 0) = true := by
  cases n with
  | zero =>
    change typeStart.contains .identifier = true
    decide
  | succ n =>
    change typeStart.contains .star = true
    decide

/-- A name alone is a type. -/
lemma finds_typeName (hrest : Closing rest) : Parser.Finds (.identifier :: rest) (typeName g) Any rest [] := by
  have hdot : (ahead rest 0 == .dot) = false := by rcases hrest with h | h | h <;> rw [h] <;> rfl
  have hbracket : (ahead rest 0 == .leftBracket) = false := by rcases hrest with h | h | h <;> rw [h] <;> rfl
  refine .nodeBy (.next .advance fun _ _ => .next (Parser.Finds.notGiven (.and_no (.isAt hdot))) fun _ _ => ?_)
  exact .next (Parser.Finds.notGiven (.and_no (.isAt hbracket))) fun _ _ => .pure trivial

/-- A name behind stars goes down a level for each star. -/
lemma finds_type (hrest : Closing rest) (levels n : Nat) :
    Parser.Finds (stars n rest) (nested levels).type (·.isSome = true) rest (cutOff (n + 1) levels) := by
  induction levels generalizing n with
  | zero =>
    have hskip : LoopFinds (stars n rest) skipRound 0 Any rest [] := by
      induction n with
      | zero => exact .yield (finds_skipPlain (.inr (.inr rfl)) 0 rest) (finds_skip hrest)
      | succ n ih => exact .yield (finds_skipPlain (.inr (.inl rfl)) 0 _) ih
    exact (finds_tooDeep hskip).map fun _ _ => rfl
  | succ levels ih =>
    change Parser.Finds _ (typeInner (nested levels)) _ _ _
    cases n with
    | zero => exact .yes (.isAt rfl) ((finds_typeName hrest).map fun _ _ => rfl)
    | succ n =>
      have hinner : Parser.Finds (stars n rest) (type (nested levels)) Any rest (cutOff (n + 1) levels) := by
        refine .before (.yes (.isAtAny (starts_stars n rest)) (ih n)) fun v hv => ?_
        obtain ⟨k, rfl⟩ := Option.isSome_iff_exists.1 hv
        exact .pure trivial
      have hpointer : Parser.Finds (.star :: stars n rest) (compoundType (nested levels) .star) Any rest
          (cutOff (n + 1) levels) := .next .advance fun _ _ => .before hinner fun _ _ => .pure trivial
      rw [cutOff_succ]
      exact .no (.isAt rfl) (.peek (hpointer.nodeBy.map fun _ _ => rfl))

/-! ## Blocks -/

/-- Pairs of braces, one in the other, around a last pair. -/
abbrev braces : Nat → List Kind → List Kind := bracketed .leftBrace .rightBrace [.leftBrace, .rightBrace]

/-- The statements of a block end at its closer. -/
lemma finds_statements_nil :
    LoopFinds (.rightBrace :: rest) (again (statementRound g)) () Any (.rightBrace :: rest) [] :=
  .last (.peek (.pure rfl))

/-- A block with a statement that starts with a brace. -/
lemma finds_block_cons {ks : List Kind} {es : List Problem} (hstart : ahead ks 0 = .leftBrace)
    (hlength : rest.length + 1 < ks.length) (h : Parser.Finds ks g.statement Any (.rightBrace :: rest) es) :
    Parser.Finds (.leftBrace :: ks) (block g) Any rest es := by
  have hgoing : Parser.Finds ks breaksBlock (· = false) ks [] := by
    refine .next .look fun v _ => ?_
    cases v with
    | false => exact .pure rfl
    | true =>
      refine .peek ?_
      rw [hstart]
      exact .pure rfl
  have hend : Parser.Finds (.rightBrace :: rest) statementEnd Any (.rightBrace :: rest) [] :=
    .yes (.or_yes (.isAt rfl)) (.pure trivial)
  have hround : Parser.Finds ks (statementRound g) (· = true) (.rightBrace :: rest) es := by
    refine .peek ?_
    rw [hstart]
    exact .ifNeg Bool.false_ne_true (.no hgoing (.before (h.orSkip hlength hend) fun _ _ => .pure rfl))
  exact .node (.next (.expect .leftBrace) fun _ _ =>
    .before (LoopFinds.most hround finds_statements_nil).repeatWhile.withComposites fun _ _ => .expect .rightBrace)

lemma ahead_braces (n : Nat) (ks : List Kind) : ahead (braces n ks) 0 = .leftBrace := by cases n <;> rfl

/-- The blocks between braces, if the statements between them go down a level for each pair. -/
lemma finds_block {levels : Nat}
    (h : ∀ n {rest}, Closing rest → Parser.Finds (braces n rest) g.statement Any rest (cutOff (n + 1) levels))
    (n : Nat) : Parser.Finds (braces n rest) (block g) Any rest (cutOff n levels) := by
  cases n with
  | zero =>
    have hnone : cutOff 0 levels = [] := if_pos (Nat.zero_le levels)
    rw [hnone]
    exact .node (.next (.expect .leftBrace) fun _ _ => .next finds_statements_nil.repeatWhile.withComposites fun _ _ =>
      .expect .rightBrace)
  | succ n =>
    refine finds_block_cons (ahead_braces n _) ?_ (h n (.inr (.inl rfl)))
    refine Nat.lt_of_lt_of_le ?_ (length_le_bracketed n (.rightBrace :: rest))
    simp only [List.length_cons, List.length_nil]
    omega

/-- Statements that are braces go down a level for each pair. -/
lemma finds_statement (levels n : Nat) {rest : List Kind} (hrest : Closing rest) :
    Parser.Finds (braces n rest) (nested levels).statement Any rest (cutOff (n + 1) levels) := by
  induction levels generalizing n rest with
  | zero =>
    have hskip : LoopFinds (braces n rest) skipRound 0 Any rest [] :=
      .bracketed (finds_skipOpening (.inr rfl)) (finds_skipClosing (.inr rfl))
        (fun h => .yield (finds_skipOpening (.inr rfl) _ _) (.yield (finds_skipClosing (.inr rfl) _ _) h))
        (finds_skip hrest) n
    exact (finds_tooDeep hskip).discard
  | succ levels ih =>
    rw [cutOff_succ]
    refine .peek ?_
    rw [ahead_braces]
    exact finds_block (fun n _ => ih n) n

/-! ## Files -/

/-- A file with one declaration. -/
lemma finds_file {ks : List Kind} {es : List Problem} (hstart : (ahead ks 0 == .endOfInput) = false)
    (h : Parser.Finds ks declarationOrSkip Any [.semicolon] es) :
    Parser.Finds (.packageKeyword :: .identifier :: .semicolon :: ks) file Any [] es := by
  have hname : Parser.Finds (.identifier :: .semicolon :: ks) (name "package name") Any (.semicolon :: ks) [] :=
    .yes (.isAt rfl) (.node .advance)
  have hpackage : Parser.Finds (.packageKeyword :: .identifier :: .semicolon :: ks) packageClause Any ks [] :=
    .yes (.isAt rfl) (.next (.node (.next .advance fun _ _ => hname)) fun _ _ =>
      .next (.eat .semicolon) fun _ _ => .pure trivial)
  have htop : Parser.Finds ks topLevel Any [] es := .before h fun _ _ => (Parser.Finds.eat .semicolon).discard
  have hround : Parser.Finds ks
      (isAt .endOfInput >>= fun v => if v = true then pure false else topLevel >>= fun _ => pure true)
      (· = true) [] es := .no (.isAt hstart) (.before htop fun _ _ => .pure rfl)
  exact .next hpackage fun _ _ => (LoopFinds.most hround (.last (.yes (.isAt rfl) (.pure rfl)))).repeatWhile

/-- The name of a variable. -/
lemma finds_nameList {ks : List Kind} (h : (ahead ks 0 == .comma) = false) :
    Parser.Finds (.identifier :: ks) nameList Any ks [] := by
  have hname : Parser.Finds (.identifier :: ks) (name "identifier") Any ks [] := .yes (.isAt rfl) (.node .advance)
  exact .next hname fun _ _ => (LoopFinds.last (.no (.and_no (.isAt h)) (.pure rfl))).repeatWhile

/-- A declaration of a variable. -/
lemma finds_variable {ks : List Kind} {es : List Problem}
    (h : Parser.Finds (.identifier :: ks) (variableSpec top) Any [.semicolon] es) :
    Parser.Finds (.varKeyword :: .identifier :: ks) declarationOrSkip Any [.semicolon] es :=
  .peek (.peek (.node (.next .advance fun _ _ => .no (.isAt rfl) h)))

lemma closing_semicolon : Closing [.semicolon] := .inr (.inr rfl)

/-- A variable whose value is a number between parentheses. -/
lemma finds_value (n : Nat) : Parser.Finds (.packageKeyword :: .identifier :: .semicolon :: .varKeyword :: .identifier ::
    .assign :: parens n [.semicolon]) file Any [] (cutOff (n + 1) nestingLimit) := by
  have hfirst : Parser.Finds (parens n [.semicolon]) (expression? top) (·.isSome = true) [.semicolon]
      (cutOff (n + 1) nestingLimit) := finds_expression? (starts_parens n _) rfl (finds_operand closing_semicolon nestingLimit n)
  have hvalue : Parser.Finds (parens n [.semicolon]) (expressionList top) Any [.semicolon] (cutOff (n + 1) nestingLimit) := by
    refine (hfirst.before (W := Any) fun v hv => ?_).discard
    obtain ⟨k, rfl⟩ := Option.isSome_iff_exists.1 hv
    exact .no (.isAt rfl) (.pure trivial)
  have htyped : Parser.Finds (.assign :: parens n [.semicolon]) (isAtAny typeStart) (· = false)
      (.assign :: parens n [.semicolon]) [] := .isAtAny (by rw [ahead_zero]; decide)
  refine finds_file rfl (finds_variable (.node (.next (finds_nameList rfl) fun _ _ => .next htyped fun v hv => ?_)))
  subst hv
  exact .next (Parser.Finds.notGiven (.pure rfl)) fun _ _ => .yes (.eat _) hvalue

/-- A variable whose type is a name behind stars. -/
lemma finds_typed (n : Nat) : Parser.Finds (.packageKeyword :: .identifier :: .semicolon :: .varKeyword :: .identifier ::
    stars n [.semicolon]) file Any [] (cutOff (n + 1) nestingLimit) := by
  have hcomma : (ahead (stars n [.semicolon]) 0 == .comma) = false := by cases n <;> rfl
  have htype : Parser.Finds (stars n [.semicolon]) (type? top) (·.isSome = true) [.semicolon] (cutOff (n + 1) nestingLimit) :=
    .yes (.isAtAny (starts_stars n _)) (finds_type closing_semicolon nestingLimit n)
  refine finds_file rfl (finds_variable (.node (.next (finds_nameList hcomma) fun _ _ =>
    .next (.isAtAny (starts_stars n _)) fun v hv => ?_)))
  subst hv
  exact .before (.given (.pure rfl) htype.discard) fun _ _ => .no (.notEat rfl) (.ifPos rfl (.pure trivial))

/-- A function, if its body is as said; a function without one ends at the semicolon. -/
lemma finds_function {ks : List Kind} {es : List Problem} (hresult : (ahead ks 0 == .leftParen) = false)
    (htype : typeStart.contains (ahead ks 0) = false)
    (h : Parser.Finds ks (isAt .leftBrace >>= fun v => if v = true then block top else pure ()) Any [.semicolon] es) :
    Parser.Finds (.packageKeyword :: .identifier :: .semicolon :: .funcKeyword :: .identifier :: .leftParen ::
      .rightParen :: ks) file Any [] es := by
  have hparameters : Parser.Finds (.leftParen :: .rightParen :: ks) (parameterList top .parameterList) Any ks [] :=
    .node (.next .advance fun _ _ => .next (LoopFinds.last (.yes (.or_yes (.isAt rfl)) (.pure rfl))).repeatWhile
      fun _ _ => .expect .rightParen)
  have hsignature : Parser.Finds (.leftParen :: .rightParen :: ks) (signature top) Any ks [] :=
    .next (.chosen (.isAt rfl) hparameters) fun _ _ => .no (.isAt hresult) (.no (.isAtAny htype) (.pure trivial))
  have hname : Parser.Finds (.identifier :: .leftParen :: .rightParen :: ks) (name "function name") Any
      (.leftParen :: .rightParen :: ks) [] := .yes (.isAt rfl) (.node .advance)
  refine finds_file rfl (.peek (.node (.next .advance fun _ _ => .next (Parser.Finds.notGiven (.isAt rfl)) fun _ _ =>
    .next hname fun _ _ => .next (Parser.Finds.notGiven (.isAt rfl)) fun _ _ => .next hsignature fun _ _ => h)))

/-- A function whose body is braces. -/
lemma finds_body (n : Nat) : Parser.Finds (.packageKeyword :: .identifier :: .semicolon :: .funcKeyword :: .identifier ::
    .leftParen :: .rightParen :: braces n [.semicolon]) file Any [] (cutOff n nestingLimit) := by
  have hblock : Parser.Finds (braces n [.semicolon]) (block top) Any [.semicolon] (cutOff n nestingLimit) :=
    finds_block (fun n _ => finds_statement nestingLimit n) n
  have hstart := ahead_braces n [.semicolon]
  have hbrace : (ahead (braces n [.semicolon]) 0 == .leftBrace) = true := by rw [hstart]; rfl
  exact finds_function (by rw [hstart]; rfl) (by rw [hstart]; decide) (.yes (.isAt hbrace) hblock)

/-- A function without a body. -/
lemma finds_bodiless : Parser.Finds [.packageKeyword, .identifier, .semicolon, .funcKeyword, .identifier, .leftParen,
    .rightParen, .semicolon] file Any [] [] := finds_function rfl (by decide) (.no (.isAt rfl) (.pure trivial))

/-! ## Texts -/

/-- Behind the tokens that led to a state, the words of a text are of the kinds `ks`, and no token stands for a lexical
error. -/
def Lexes (s : State) (text : Text) (ks : List Kind) : Prop :=
  ∀ offset, ((scan s offset text).map Token.kind).filter (!·.isTrivia) = ks ∧
    ∀ t ∈ scan s offset text, t.kind.isLexicalError = false

/-- Pieces in front of a text. -/
lemma Lexes.pieces (ps : List (Kind × Text)) (js : List Kind) (s' : State) {rest : Text} {s : State} {ks : List Kind}
    (h : Reads rest ps) (hlay : ∀ offset, ((lay s offset ps).1.map Token.kind).filter (!·.isTrivia) = js ∧
      (lay s offset ps).1.all (!·.kind.isLexicalError) = true ∧ (lay s offset ps).2 = s')
    (hrest : Lexes s' rest ks) : Lexes s (ps.flatMap Prod.snd ++ rest) (js ++ ks) := by
  intro offset
  obtain ⟨offset', hscan⟩ := scan_append_of_reads h s offset
  obtain ⟨hkinds, hquiet, hstate⟩ := hlay offset
  rw [hscan, hstate]
  constructor
  · rw [List.map_append, List.filter_append, hkinds, (hrest offset').1]
  · refine List.forall_mem_append.2 ⟨fun t ht => ?_, (hrest offset').2⟩
    simpa using List.all_eq_true.1 hquiet t ht

/-- A piece of one character. -/
lemma Lexes.cons {c : Char} {k : Kind} {rest : Text} {s : State} {ks : List Kind} (h : lexeme c rest = (k, 0))
    (hk : k.isTrivia = false ∧ k.isLexicalError = false) (hrest : Lexes (s.track k) rest ks) :
    Lexes s (c :: rest) (k :: ks) := by
  refine .pieces [(k, [c])] [k] (s.track k) ⟨h, trivial⟩ (fun offset => ?_) hrest
  have hnewline : k ≠ .newline := fun h => Bool.false_ne_true (hk.1.symm.trans (congrArg Kind.isTrivia h))
  have hcomment : k ≠ .blockComment := fun h => Bool.false_ne_true (hk.1.symm.trans (congrArg Kind.isTrivia h))
  simp [lay, State.step, hnewline, hcomment, hk]

/-- A line end behind which a statement ends ends a file. -/
lemma lexes_lineEnd {s : State} (hgroups : s.groups = []) (hpending : s.pending = true) :
    Lexes s ['\n'] [.semicolon] := by
  obtain ⟨groups, pending, last⟩ := s
  subst hgroups hpending
  have hnil (last : Kind) : Lexes ⟨[], false, last⟩ [] [] := by
    intro offset
    rw [scan]
    exact ⟨rfl, fun _ ht => absurd ht List.not_mem_nil⟩
  exact .pieces [(.newline, ['\n'])] [.semicolon] ⟨[], false, last⟩ ⟨rfl, trivial⟩ (fun _ => ⟨rfl, rfl, rfl⟩)
    (hnil last)

/-- In front of a closer or a line end, a text is read as words of known kinds; behind it a statement can end, and the
same brackets are open as in front of it. -/
def Balanced (text : Text → Text) (kinds : List Kind → List Kind) : Prop :=
  ∀ s rest ks, (∃ c ∈ [')', '}', '\n'], rest.head? = some c) →
    (∀ s' : State, s'.groups = s.groups → s'.pending = true → Lexes s' rest ks) → Lexes s (text rest) (kinds ks)

/-- Brackets around a text. -/
lemma Balanced.bracketed {a b : Char} {k j : Kind} {core : Text} {kinds : List Kind}
    (hcore : Balanced (core ++ ·) (kinds ++ ·)) (ha : ∀ rest, lexeme a rest = (k, 0))
    (hb : ∀ rest, lexeme b rest = (j, 0)) (hk : k.isTrivia = false ∧ k.isLexicalError = false)
    (hj : j.isTrivia = false ∧ j.isLexicalError = false) (hopen : ∀ s : State, (s.groupsAfter k).tail = s.groups)
    (hclose : ∀ s : State, s.groupsAfter j = s.groups.tail) (hend : canEnd j = true)
    (hcloser : b ∈ [')', '}', '\n']) (n : Nat) :
    Balanced (Parser.bracketed a b core n) (Parser.bracketed k j kinds n) := by
  induction n with
  | zero => exact hcore
  | succ n ih =>
    intro s rest ks hrest hbehind
    refine .cons (ha _) hk (ih (s.track k) (b :: rest) (j :: ks) ⟨b, hcloser, rfl⟩ fun s' hs' _ =>
      .cons (hb _) hj ?_)
    -- the closer takes away the group that was opened in front
    refine hbehind _ ?_ hend
    change s'.groupsAfter j = s.groups
    rw [hclose, hs']
    exact hopen s

/-- A digit. -/
lemma balanced_digit : Balanced (['1'] ++ ·) ([.intNumber] ++ ·) := by
  rintro s rest ks ⟨c, hc, hrest⟩ hbehind
  obtain ⟨cs, rfl⟩ : ∃ cs, rest = c :: cs := List.head?_eq_some_iff.1 hrest
  refine .cons (s := s) ?_ ⟨rfl, rfl⟩ (hbehind (s.track .intNumber) rfl rfl)
  simp only [List.mem_cons, List.not_mem_nil, or_false] at hc
  rcases hc with rfl | rfl | rfl <;> rfl

/-- A pair of braces. -/
lemma balanced_braces : Balanced (['{', '}'] ++ ·) ([.leftBrace, .rightBrace] ++ ·) := fun s _ _ _ hbehind =>
  .cons rfl ⟨rfl, rfl⟩ (.cons rfl ⟨rfl, rfl⟩ (hbehind ((s.track .leftBrace).track .rightBrace) rfl rfl))

/-- Stars in front of the name of a type, at the end of a file. -/
lemma lexes_stars (n : Nat) {s : State} (hgroups : s.groups = []) :
    Lexes s (List.replicate n '*' ++ "int\n".toList) (stars n [.semicolon]) := by
  induction n generalizing s with
  | zero =>
    exact .pieces [(.identifier, "int".toList)] [.identifier] (s.track .identifier) ⟨rfl, trivial⟩
      (fun _ => ⟨rfl, rfl, rfl⟩) (lexes_lineEnd (s := s.track .identifier) hgroups rfl)
  | succ n ih =>
    have hstar : lexeme '*' (List.replicate n '*' ++ "int\n".toList) = (.star, 0) := by cases n <;> rfl
    exact .cons hstar ⟨rfl, rfl⟩ (ih hgroups)

/-! ## Problems -/

/-- The problems of a text whose words are known. -/
lemma problems_parse {text : Text} {ks ks' : List Kind} {es : List Problem} (hlexes : Lexes {} text ks)
    (h : Parser.Finds ks file Any ks' es) : (parse text).errors.map SyntaxError.problem = es := by
  have hlimit : 2 + 66 * nestingLimit + 68 ≤ lookLimit := by decide
  exact problems_tree_of_fits (b := topFrame ⟨0, text.size⟩) (covers_tokens text) rfl rfl fits_file (by decide)
    hlimit (hlexes 0).1 (hlexes 0).2 h

/-- The pieces of a package clause and of the start of a declaration of a variable. -/
def variablePieces : List (Kind × Text) :=
  [(.packageKeyword, "package".toList), (.whitespace, " ".toList), (.identifier, "p".toList), (.newline, "\n".toList),
    (.varKeyword, "var".toList), (.whitespace, " ".toList), (.identifier, "x".toList), (.whitespace, " ".toList)]

/-- The pieces in front of the value of a variable. -/
def valuePieces : List (Kind × Text) := variablePieces ++ [(.assign, "=".toList), (.whitespace, " ".toList)]

/-- The pieces of a package clause and of the head of a function. -/
def functionPieces : List (Kind × Text) :=
  [(.packageKeyword, "package".toList), (.whitespace, " ".toList), (.identifier, "p".toList), (.newline, "\n".toList),
    (.funcKeyword, "func".toList), (.whitespace, " ".toList), (.identifier, "f".toList), (.leftParen, "(".toList),
    (.rightParen, ")".toList), (.whitespace, " ".toList)]

/-- A file with a variable whose value is a number between `n` pairs of parentheses. -/
def parensText (n : Nat) : Text :=
  "package p\nvar x = ".toList ++ List.replicate n '(' ++ ['1'] ++ List.replicate n ')' ++ ['\n']

/-- A file with a function whose body is `n` pairs of braces. -/
def bracesText (n : Nat) : Text :=
  "package p\nfunc f() ".toList ++ List.replicate n '{' ++ List.replicate n '}' ++ ['\n']

/-- A file with a variable whose type is a name behind `n` stars. -/
def starsText (n : Nat) : Text := "package p\nvar x ".toList ++ List.replicate n '*' ++ "int\n".toList

lemma lexes_parensText (n : Nat) : Lexes {} (parensText n)
    (.packageKeyword :: .identifier :: .semicolon :: .varKeyword :: .identifier :: .assign :: parens n [.semicolon]) := by
  have hhead : "package p\nvar x = ".toList = valuePieces.flatMap Prod.snd := by decide +kernel
  have htext : parensText n = valuePieces.flatMap Prod.snd ++ bracketed '(' ')' ['1'] n ['\n'] := by
    unfold parensText
    rw [hhead, bracketed_eq, List.append_assoc, List.append_assoc, List.append_assoc]
  have hblank : lexeme ' ' (bracketed '(' ')' ['1'] n ['\n']) = (.whitespace, 0) := by cases n <;> rfl
  have hvalue := balanced_digit.bracketed (a := '(') (b := ')') (k := .leftParen) (j := .rightParen) (fun _ => rfl)
    (fun _ => rfl) ⟨rfl, rfl⟩ ⟨rfl, rfl⟩ (fun _ => rfl) (fun _ => rfl) rfl (by decide) n
  rw [htext]
  refine .pieces _ [.packageKeyword, .identifier, .semicolon, .varKeyword, .identifier, .assign]
    ⟨[], false, .assign⟩ ⟨rfl, rfl, rfl, rfl, rfl, rfl, rfl, rfl, rfl, hblank, trivial⟩ (fun _ => ⟨rfl, rfl, rfl⟩) ?_
  exact hvalue _ _ _ ⟨'\n', by decide, rfl⟩ fun s hgroups hpending => lexes_lineEnd hgroups hpending

lemma lexes_starsText (n : Nat) : Lexes {} (starsText n)
    (.packageKeyword :: .identifier :: .semicolon :: .varKeyword :: .identifier :: stars n [.semicolon]) := by
  have hhead : "package p\nvar x ".toList = variablePieces.flatMap Prod.snd := by decide +kernel
  have htext : starsText n = variablePieces.flatMap Prod.snd ++ (List.replicate n '*' ++ "int\n".toList) := by
    unfold starsText
    rw [hhead, List.append_assoc]
  have hblank : lexeme ' ' (List.replicate n '*' ++ "int\n".toList) = (.whitespace, 0) := by cases n <;> rfl
  rw [htext]
  exact .pieces _ [.packageKeyword, .identifier, .semicolon, .varKeyword, .identifier] ⟨[], true, .identifier⟩
    ⟨rfl, rfl, rfl, rfl, rfl, rfl, rfl, hblank, trivial⟩ (fun _ => ⟨rfl, rfl, rfl⟩) (lexes_stars n rfl)

/-- What follows the head of a function. -/
lemma lexes_function {rest : Text} {ks : List Kind} (hblank : lexeme ' ' rest = (.whitespace, 0))
    (h : Lexes ⟨[], true, .rightParen⟩ rest ks) : Lexes {} ("package p\nfunc f() ".toList ++ rest)
      (.packageKeyword :: .identifier :: .semicolon :: .funcKeyword :: .identifier :: .leftParen ::
        .rightParen :: ks) := by
  have hhead : "package p\nfunc f() ".toList = functionPieces.flatMap Prod.snd := by decide +kernel
  rw [hhead]
  exact .pieces _ [.packageKeyword, .identifier, .semicolon, .funcKeyword, .identifier, .leftParen, .rightParen]
    ⟨[], true, .rightParen⟩ ⟨rfl, rfl, rfl, rfl, rfl, rfl, rfl, rfl, rfl, hblank, trivial⟩ (fun _ => ⟨rfl, rfl, rfl⟩) h

lemma lexes_bracesText (n : Nat) : Lexes {} (bracesText (n + 1)) (.packageKeyword :: .identifier :: .semicolon ::
    .funcKeyword :: .identifier :: .leftParen :: .rightParen :: braces n [.semicolon]) := by
  have htext : bracesText (n + 1) = "package p\nfunc f() ".toList ++ bracketed '{' '}' ['{', '}'] n ['\n'] := by
    unfold bracesText
    rw [bracketed_eq, List.replicate_succ', List.replicate_succ, List.append_assoc, List.append_assoc,
      List.append_assoc]
    rfl
  have hblank : lexeme ' ' (bracketed '{' '}' ['{', '}'] n ['\n']) = (.whitespace, 0) := by cases n <;> rfl
  have hbody := balanced_braces.bracketed (a := '{') (b := '}') (k := .leftBrace) (j := .rightBrace) (fun _ => rfl)
    (fun _ => rfl) ⟨rfl, rfl⟩ ⟨rfl, rfl⟩ (fun _ => rfl) (fun _ => rfl) rfl (by decide) n
  rw [htext]
  refine lexes_function hblank (hbody _ _ _ ⟨'\n', by decide, rfl⟩ fun s hgroups hpending => ?_)
  exact lexes_lineEnd hgroups hpending

/-! ## The cut-off -/

/-- Parentheses are cut off where they would go further down than the limit. -/
lemma problems_parensText (n : Nat) :
    (parse (parensText n)).errors.map SyntaxError.problem = cutOff (n + 1) nestingLimit :=
  problems_parse (lexes_parensText n) (finds_value n)

/-- So are the stars in front of a type. -/
lemma problems_starsText (n : Nat) :
    (parse (starsText n)).errors.map SyntaxError.problem = cutOff (n + 1) nestingLimit :=
  problems_parse (lexes_starsText n) (finds_typed n)

/-- The outermost braces belong to the function and enter no level, so there can be one pair more. -/
lemma problems_bracesText (n : Nat) :
    (parse (bracesText n)).errors.map SyntaxError.problem = cutOff n (nestingLimit + 1) := by
  cases n with
  | zero => exact problems_parse (lexes_function rfl (lexes_lineEnd rfl rfl)) finds_bodiless
  | succ n =>
    rw [cutOff_succ]
    exact problems_parse (lexes_bracesText n) (finds_body n)

end GoFront.Source
