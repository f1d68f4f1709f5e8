import GoFront.Proofs.Parse.Finding
import GoFront.Proofs.Parse.Template.Effort
import GoFront.Proofs.Token.Modes

/-!
# Where nesting is cut off in a template

A field in parentheses goes down a level for each pair (`finds_pipeline`). Where no level is left, the pipeline behind the
last parenthesis is one error, and skipping stops at the parenthesis that closes it, so nothing else is reported
(`problems_parensAction`).
-/

namespace GoFront.Template

open GoFront.Parser

variable {g : Nested} {d : Delimiters} {rest : List Kind}

/-- Where a pipeline that is nested ends: at its closing parenthesis, or at the end of the directive. -/
def PipelineEnd (ks : List Kind) : Prop := ahead ks 0 = .rightParen ∨ ahead ks 0 = .rightDelimiter

/-- Parentheses around a field. -/
abbrev parens : Nat → List Kind → List Kind := bracketed .leftParen .rightParen [.field]

/-! ## Skipping -/

/-- Skipping gets over what the parentheses close. -/
lemma finds_skipParens (hrest : PipelineEnd rest) (n : Nat) : LoopFinds (parens n rest) skipParens 0 Any rest [] := by
  have hopen (depth : Nat) (ks : List Kind) :
      Parser.Finds (.leftParen :: ks) (skipParens depth) (· = ForInStep.yield (depth + 1)) ks [] :=
    .no (.or_no (.isAt rfl) (.isAt rfl)) (.peek (.next .advance fun _ _ => .pure rfl))
  have hclose (depth : Nat) (ks : List Kind) :
      Parser.Finds (.rightParen :: ks) (skipParens (depth + 1)) (· = ForInStep.yield depth) ks [] :=
    .no (.or_no (.isAt rfl) (.isAt rfl)) (.peek (.ifNeg (Nat.succ_ne_zero depth) (.next .advance fun _ _ => .pure rfl)))
  have hfield (depth : Nat) (ks : List Kind) :
      Parser.Finds (.field :: ks) (skipParens depth) (· = ForInStep.yield depth) ks [] :=
    .no (.or_no (.isAt rfl) (.isAt rfl)) (.peek (.next .advance fun _ _ => .pure rfl))
  have hend : Parser.Finds rest (skipParens 0) (· = ForInStep.done 0) rest [] := by
    rcases hrest with h | h
    · refine .no (.or_no (.isAt ?_) (.isAt ?_)) (.peek ?_)
      · rw [h]; rfl
      · rw [h]; rfl
      · rw [h]; exact .pure rfl
    · refine .yes (.or_no (.isAt ?_) (.isAt ?_)) (.pure rfl)
      · rw [h]; rfl
      · rw [h]; rfl
  exact .bracketed hopen hclose (.yield (hfield _ _)) (.done hend trivial) n

/-! ## Pipelines -/

lemma finds_noField (hrest : PipelineEnd rest) : Parser.Finds rest (isAdjacent .field) (· = false) rest [] := by
  refine .isAdjacent ?_
  rcases hrest with h | h <;> rw [h] <;> rfl

/-- No operand follows. -/
lemma finds_noOperand (hrest : PipelineEnd rest) : Parser.Finds rest (operand g) (· = false) rest [] := by
  have hterm : Parser.Finds rest (term? g) (· = none) rest [] := by
    refine .peek ?_
    rcases hrest with h | h <;> rw [h] <;> exact .pure rfl
  refine .next hterm fun v hv => ?_
  subst hv
  exact .pure rfl

/-- An operand with nothing behind it that belongs to it. -/
lemma finds_operand {ks : List Kind} {es : List Problem} (hrest : PipelineEnd rest)
    (h : Parser.Finds ks (term? g) (·.isSome = true) rest es) : Parser.Finds ks (operand g) (· = true) rest es := by
  refine .before h fun v hv => ?_
  obtain ⟨k, rfl⟩ := Option.isSome_iff_exists.1 hv
  have hnone : Parser.Finds rest (pure (decide (k = .templateVariable) || decide (k = .templateParen)) <&&> isAdjacent .field)
      (· = false) rest [] := by
    cases decide (k = .templateVariable) || decide (k = .templateParen) with
    | false => exact .and_no (.pure rfl)
    | true => exact .and_yes (.pure rfl) (finds_noField hrest)
  exact .next (Parser.Finds.notGiven hnone) fun _ _ => .pure rfl

/-- An operand alone is a pipeline. -/
lemma finds_alone {ks : List Kind} {es : List Problem} (hrest : PipelineEnd rest)
    (hstart : (ahead ks 0 == .variable) = false) (h : Parser.Finds ks (operand g) (· = true) rest es) :
    Parser.Finds ks (pipeline g) Any rest es := by
  have hpipe : (ahead rest 0 == .pipe) = false := by rcases hrest with h | h <;> rw [h] <;> rfl
  have hcommand : Parser.Finds ks (command g) Any rest es := by
    refine .node (.before h fun v hv => .ifPos hv ?_)
    exact (LoopFinds.last (finds_noOperand hrest)).repeatWhile
  have hround : Parser.Finds ks (command g >>= fun _ => eat .pipe) (· = false) rest es :=
    .before hcommand fun _ _ => .notEat hpipe
  exact .node (.next (Parser.Finds.notGiven (.and_no (.isAt hstart))) fun _ _ => (LoopFinds.last hround).repeatWhile)

/-- A field between parentheses goes down a level for each pair. -/
lemma finds_pipeline (hrest : PipelineEnd rest) (levels n : Nat) :
    Parser.Finds (parens n rest) (nested d levels).pipeline Any rest (cutOff (n + 1) levels) := by
  induction levels generalizing n rest with
  | zero => exact .node (.before .error fun _ _ => (finds_skipParens hrest n).loop.discard)
  | succ levels ih =>
    change Parser.Finds _ (pipeline (nested d levels)) _ _ _
    cases n with
    | zero =>
      have hfields : Parser.Finds rest fields Any rest [] :=
        (LoopFinds.last (.no (finds_noField hrest) (.pure rfl))).repeatWhile
      have hnode : Parser.Finds (.field :: rest) (nodeBy do advance; fields; pure .templateFieldChain) Any rest [] :=
        .nodeBy (.next .advance fun _ _ => .next hfields fun _ _ => .pure trivial)
      exact finds_alone hrest rfl (finds_operand hrest (.peek (hnode.map fun _ _ => rfl)))
    | succ n =>
      have hnode : Parser.Finds (.leftParen :: parens n (.rightParen :: rest))
          (nodeBy do advance; (nested d levels).pipeline; expect .rightParen; pure .templateParen) Any rest
          (cutOff (n + 1) levels) :=
        .nodeBy (.next .advance fun _ _ => .before (ih (.inl rfl) n) fun _ _ =>
          .next (.expect .rightParen) fun _ _ => .pure trivial)
      rw [cutOff_succ]
      exact finds_alone hrest rfl (finds_operand hrest (.peek (hnode.map fun _ _ => rfl)))

/-! ## Documents -/

lemma ahead_parens (n : Nat) (ks : List Kind) : ahead (parens n ks) 0 = .field ∨ ahead (parens n ks) 0 = .leftParen := by
  cases n with
  | zero => exact .inl rfl
  | succ n => exact .inr rfl

/-- A directive that is a field between parentheses. -/
lemma finds_topLevel (levels n : Nat) : Parser.Finds (.leftDelimiter :: parens n [.rightDelimiter])
    (topLevel (nested d levels) d) Any [] (cutOff n levels) := by
  have hpipeline : Parser.Finds (parens n [.rightDelimiter]) (requiredPipeline (nested d levels) "command") Any
      [.rightDelimiter] (cutOff n levels) := by
    have hinner : Parser.Finds (parens n [.rightDelimiter]) (pipeline (nested d levels)) Any [.rightDelimiter]
        (cutOff (n + 1) (levels + 1)) := finds_pipeline (.inr rfl) (levels + 1) n
    rw [cutOff_succ] at hinner
    refine .no (.or_no (.isAt ?_) (.isAt ?_)) hinner
    · rcases ahead_parens n [.rightDelimiter] with h | h <;> rw [h] <;> rfl
    · rcases ahead_parens n [.rightDelimiter] with h | h <;> rw [h] <;> rfl
  have hclose : Parser.Finds [.rightDelimiter] (closeAction d) Any [] [] := .yes (.eat _) (.pure trivial)
  have hnode : Parser.Finds (.leftDelimiter :: parens n [.rightDelimiter])
      (node .templateAction do advance; requiredPipeline (nested d levels) "command"; closeAction d) Any []
      (cutOff n levels) := .node (.next .advance fun _ _ => .before hpipeline fun _ _ => hclose)
  have hsecond : ahead (.leftDelimiter :: parens n [.rightDelimiter]) 1 = ahead (parens n [.rightDelimiter]) 0 := rfl
  refine .no (.and_yes (.isAt rfl) (.nth ?_)) (.yes (.isAt rfl) (.nth ?_))
  · rw [hsecond]
    rcases ahead_parens n [.rightDelimiter] with h | h <;> rw [h] <;> exact .pure rfl
  · rw [hsecond]
    rcases ahead_parens n [.rightDelimiter] with h | h <;> rw [h] <;> exact .ifNeg Bool.false_ne_true hnode

lemma finds_document (n : Nat) :
    Parser.Finds (.leftDelimiter :: parens n [.rightDelimiter]) (document d) Any [] (cutOff n nestingLimit) := by
  have hround (g : Nested) {ks : List Kind} {es : List Problem}
      (h : Parser.Finds (.leftDelimiter :: ks) (topLevel g d) Any [] es) : Parser.Finds (.leftDelimiter :: ks)
        (isAt .endOfInput >>= fun v => if v = true then pure false else topLevel g d >>= fun _ => pure true)
        (· = true) [] es := .no (.isAt rfl) (.before h fun _ _ => .pure rfl)
  exact (LoopFinds.most (hround _ (finds_topLevel nestingLimit n)) (.last (.yes (.isAt rfl) (.pure rfl)))).repeatWhile

/-! ## Texts -/

/-- Behind the text that led to a state, the tokens of a text are of the kinds `ks`. -/
def Lexes (host : HostLanguage) (s : State) (text : Text) (ks : List Kind) : Prop :=
  ∀ offset, (scan .braces host s offset text).map (fun p => p.token.kind) = ks

variable {host : HostLanguage}

/-- A token in front of a text. -/
lemma Lexes.cons {s : State} {c : Char} {cs : Text} {p : Piece} {ks : List Kind} (hp : piece .braces host s c cs = p)
    (h : ∀ previous, Lexes host ⟨p.inAction, p.trims, previous⟩ (cs.drop (p.length - 1)) ks) :
    Lexes host s (c :: cs) (p.kind :: ks) := by
  intro offset
  rw [scan, hp]
  exact congrArg (p.kind :: ·) (h _ _)

/-- The field between parentheses, in front of a closer. -/
lemma lexes_parens (n : Nat) {rest : Text} {ks : List Kind} (hrest : ∃ c ∈ [')', '}'], rest.head? = some c)
    (h : ∀ previous, Lexes host ⟨true, false, previous⟩ rest ks) (previous : Option Char) :
    Lexes host ⟨true, false, previous⟩ (bracketed '(' ')' ['.', 'X'] n rest) (parens n ks) := by
  induction n generalizing previous rest ks with
  | zero =>
    obtain ⟨c, hc, hrest⟩ := hrest
    obtain ⟨cs, rfl⟩ : ∃ cs, rest = c :: cs := List.head?_eq_some_iff.1 hrest
    have hfield : piece .braces host ⟨true, false, previous⟩ '.' ('X' :: c :: cs) =
        { kind := .field, length := 2, inAction := true } := by
      simp only [List.mem_cons, List.not_mem_nil, or_false] at hc
      rcases hc with rfl | rfl <;> rfl
    exact .cons hfield h
  | succ n ih =>
    have hopen (cs : Text) : piece .braces host ⟨true, false, previous⟩ '(' cs =
        { kind := .leftParen, length := 1, inAction := true } := rfl
    have hclose (previous : Option Char) : piece .braces host ⟨true, false, previous⟩ ')' rest =
        { kind := .rightParen, length := 1, inAction := true } := rfl
    exact .cons (hopen _) (ih ⟨')', by decide, rfl⟩ fun previous => .cons (hclose previous) h)

/-- A directive that is a field between `n` pairs of parentheses. -/
def parensAction (n : Nat) : Text :=
  ['{', '{'] ++ List.replicate n '(' ++ ['.', 'X'] ++ List.replicate n ')' ++ ['}', '}']

lemma lexes_parensAction (n : Nat) :
    Lexes host {} (parensAction n) (.leftDelimiter :: parens n [.rightDelimiter]) := by
  have htext : parensAction n = '{' :: '{' :: bracketed '(' ')' ['.', 'X'] n ['}', '}'] := by
    simp only [parensAction, bracketed_eq, List.append_assoc]
    rfl
  have hopen : piece .braces host {} '{' ('{' :: bracketed '(' ')' ['.', 'X'] n ['}', '}']) =
      { kind := .leftDelimiter, length := 2, inAction := true } := by cases n <;> rfl
  have hclose (previous : Option Char) : piece .braces host ⟨true, false, previous⟩ '}' ['}'] =
      { kind := .rightDelimiter, length := 2, inAction := false } := rfl
  have hend (previous : Option Char) : Lexes host ⟨false, false, previous⟩ [] [] := by
    intro offset
    rw [scan]
    rfl
  rw [htext]
  exact .cons hopen (lexes_parens n ⟨'}', by decide, rfl⟩ fun previous => .cons (hclose previous) hend)

/-! ## The cut-off -/

/-- Parentheses are cut off where they would go further down than the limit. -/
lemma problems_parensAction (offset n : Nat) :
    (parse .braces host offset (parensAction n)).errors.map SyntaxError.problem = cutOff n nestingLimit := by
  have hlimit : 3 + 40 * nestingLimit + 35 ≤ lookLimit := by decide
  have hkinds : (tokens .braces host offset (parensAction n)).map Token.kind =
      .leftDelimiter :: parens n [.rightDelimiter] := by
    rw [tokens, List.map_map]
    exact lexes_parensAction n offset
  have hplain : ∀ k ∈ Kind.leftDelimiter :: parens n [.rightDelimiter],
      isTrivia k = false ∧ k.isLexicalError = false := by
    have hcore : ∀ k ∈ [Kind.field], isTrivia k = false ∧ k.isLexicalError = false := by decide
    have hrest : ∀ k ∈ [Kind.rightDelimiter], isTrivia k = false ∧ k.isLexicalError = false := by decide
    exact List.forall_mem_cons.2 ⟨by decide, forall_mem_bracketed (by decide) (by decide) hcore hrest⟩
  have hwords : ((tokens .braces host offset (parensAction n)).map Token.kind).filter (!isTrivia ·) =
      .leftDelimiter :: parens n [.rightDelimiter] := by
    rw [hkinds]
    refine List.filter_eq_self.2 fun k hk => ?_
    rw [(hplain k hk).1]
    rfl
  have hquiet : ∀ t ∈ tokens .braces host offset (parensAction n), t.kind.isLexicalError = false :=
    fun t ht => (hplain _ (hkinds ▸ List.mem_map_of_mem ht)).2
  exact problems_tree_of_fits (b := topFrame ⟨offset, (parensAction n).size⟩) (covers_tokens .braces host offset _) rfl
    rfl fits_document (by decide) hlimit hwords hquiet (finds_document n)

end GoFront.Template
