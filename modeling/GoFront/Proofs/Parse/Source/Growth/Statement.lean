import GoFront.Proofs.Parse.Source.Growth.Type
import GoFront.Proofs.Parse.Source.Statement

/-!
# The source grammar grows what it should: declarations and statements
-/

namespace GoFront.Source

open GoFront.Parser

variable {ws : List Word} {st : List Kind} {f : List Sprout} {g : Nested} (hg : g.Formed)

/-! ## Declarations -/

/-- A declaration that can stand behind the package clause. -/
def isTopLevel : Kind → Bool
  | .importDeclaration | .functionDeclaration | .typeDeclaration | .variableDeclaration | .constantDeclaration => true
  | _ => false

/-- A node for such a declaration. -/
inductive IsTopLevel : Sprout → Prop
  | node {k : Kind} {cs : List Sprout} (hk : isTopLevel k = true) : IsTopLevel (.node k cs)

/-- A node for a declaration, if its parts close what they open. -/
lemma grows_topLevelNode {k : Kind} {p : Parser Unit} (hp : Grows ws [] p (Ends [])) (hk : isTopLevel k = true) :
    Grows ws f (node k p) fun _ _ => Tops IsTopLevel f := by
  refine .node (hp.mono fun _ _ g hg => ⟨_, rfl, hg.plainNode ?_, .node hk⟩)
  revert hk
  cases k <;> decide

/-- Specifications in a group, or one alone, if each of them leaves open what was open. -/
lemma grows_declare {k c : Kind} {spec : Parser Unit} (h : kindAt ws 0 = c) (hc : nest [] [c] = some [])
    (hspec : ∀ {ws st f}, Leaves st f → Grows ws f spec (Ends st))
    (hk : autoParam (isTopLevel k = true) Rat.normalize._auto_1)
    (hend : autoParam (c ≠ .endOfInput) Rat.normalize._auto_1) :
    Grows ws f (declare k spec) fun _ _ => Tops IsTopLevel f := by
  refine grows_topLevelNode (Leaves.nil.take h hc (fun _ _ hf => ?_) hend) hk
  refine .ite (.isAt _) (fun h => ?_) fun _ => hspec hf
  refine hf.take h rfl fun _ _ hf => .bind (Q := Ends [.leftParen]) ?_ fun _ _ _ hf => hf.expect rfl
  refine hf.repeatWhile fun _ _ hf => .ite ((Asks.isAt _).or ((Asks.isAt _).or (asks_startsDeclaration 0)))
    (fun _ => .pure hf) fun _ => hf.ifEat rfl (fun _ _ hf => .pure hf) fun _ => ?_
  exact (grows_orSkip (hspec hf) fun _ _ => grows_separator).andPure fun _ _ _ hf => hf

lemma grows_nameList (hf : Leaves st f) : Grows ws f nameList (Ends st) := by
  refine (grows_name hf).bind fun _ _ _ hf => hf.repeatWhile fun _ _ hf => ?_
  refine .ite ((Asks.isAt _).and (.nthIs 1 _)) (fun h => hf.take h.1 rfl fun _ _ hf => ?_) fun _ => .pure hf
  exact (grows_name hf).andPure fun _ _ _ hf => hf

lemma grows_importSpec (hf : Leaves st f) : Grows ws f importSpec (Ends st) := by
  refine hf.inNode (.bind (Q := Ends []) ?_ fun _ _ _ hf => .peek ?_)
  · exact .choose (.isAt _) (fun _ => grows_name .nil) fun _ => (Leaves.nil.eat rfl).discard fun _ _ _ hf => hf
  · split
    iterate 4
      · next h => exact hf.advance h rfl
    · exact hf.expected

include hg

/-- A type that may be missing, whatever becomes of it. -/
lemma grows_discardType (hf : Leaves st f) : Grows ws f (discard (type? g)) (Ends st) :=
  (grows_type? hg).discard fun _ _ _ h => (h.tries hf).leaves hf

lemma grows_variableSpec (hf : Leaves st f) : Grows ws f (variableSpec g) (Ends st) := by
  have hvalues : ∀ ws f typed, Leaves [] f → Grows ws f (do
      given (pure typed) (discard (type? g))
      if ← eat .assign then expressionList g
      else unless typed do expected "type or '='") (Ends []) := fun ws f typed hf => by
    refine .bind (Q := Ends []) ?_ fun _ _ _ hf => ?_
    · exact .given (.pure typed) (fun _ => grows_discardType hg hf) fun _ => hf
    · refine hf.ifEat rfl (fun _ _ hf => grows_expressionList hg hf) fun _ => ?_
      cases typed with
      | true => exact .pure hf
      | false => exact hf.expected
  refine hf.inNode ((grows_nameList .nil).bind fun _ ws' f' hf => .ask (.isAtAny _) (fun _ => ?_) fun _ => ?_)
  · exact hvalues ws' f' true hf
  · exact hvalues ws' f' false hf

lemma grows_constantSpec (hf : Leaves st f) : Grows ws f (constantSpec g) (Ends st) := by
  refine hf.inNode ((grows_nameList .nil).bind fun _ _ _ hf => .bind (Q := Ends []) ?_ fun _ _ _ hf => ?_)
  · exact .given (.isAtAny _) (fun _ => grows_discardType hg hf) fun _ => hf
  · exact hf.ifEat rfl (fun _ _ hf => grows_expressionList hg hf) fun _ => .pure hf

lemma grows_typeSpec (hf : Leaves st f) : Grows ws f (typeSpec g) (Ends st) := by
  refine hf.inNode ((grows_name .nil).bind fun _ _ _ hf => .bind (Q := Ends []) ?_ fun _ _ _ hf => ?_)
  · refine .given ((Asks.isAt _).and ((Asks.nthIs 1 _).and (.not (.nthIs 2 _)))) (fun h => ?_) fun _ => hf
    exact grows_typeParameters hg hf h.1
  · exact (hf.eat rfl).bind fun _ _ _ hf => grows_type hg hf

lemma grows_declaration : Grows ws f (declaration g) fun _ _ => Tops IsTopLevel f := by
  refine .peek ?_
  split
  · next h => exact grows_declare h rfl (grows_variableSpec hg)
  · next h => exact grows_declare h rfl (grows_constantSpec hg)
  · next h => exact grows_declare h rfl (grows_typeSpec hg)
  · exact .fail

lemma grows_functionDeclaration (h : kindAt ws 0 = .funcKeyword) :
    Grows ws f (functionDeclaration g) fun _ _ => Tops IsTopLevel f := by
  refine grows_topLevelNode (Leaves.nil.take h rfl fun _ _ hf => .bind (Q := Ends []) ?_ fun _ _ _ hf =>
    (grows_name hf).bind fun _ _ _ hf => .bind (Q := Ends []) ?_ fun _ _ _ hf =>
    (grows_signature hg hf).bind fun _ _ _ hf => ?_) rfl
  · exact .given (.isAt _) (fun h => grows_parameterList hg hf h) fun _ => hf
  · exact .given (.isAt _) (fun h => grows_typeParameters hg hf h) fun _ => hf
  · exact .ite (.isAt _) (fun _ => grows_block hg hf) fun _ => .pure hf

/-! ## Simple statements -/

omit hg in
/-- A statement is grown as one sprout, and no word is taken. -/
lemma grows_asStatement {k : Kind} {P : Sprout → Prop} {f' : List Sprout} (hf : Tops P f f') :
    Grows ws f' (asStatement k) fun _ ws' f' => ws' = ws ∧ Tops (fun _ => True) f f' := by
  unfold asStatement
  split
  · exact .pure ⟨rfl, hf.mono fun _ _ => trivial⟩
  · obtain ⟨x, rfl, hx, -⟩ := hf
    exact .wrap (.pure ⟨rfl, _, rfl, hx.plainNode rfl, trivial⟩)

omit hg in
/-- An assignment operator is no bracket, and makes an ordinary node. -/
lemma assignmentKind?_eq_some {c k : Kind} (h : assignmentKind? c = some k) :
    (isOpening c = false ∧ opening? c = none) ∧ isPlain k = true := by
  have hall : ∀ c, ∀ k ∈ assignmentKind? c, (isOpening c = false ∧ opening? c = none) ∧ isPlain k = true := by
    intro c
    cases c <;> decide
  exact hall c k h

lemma grows_assignment {allowRange : Bool} {k : Kind} {P : Sprout → Prop} {f' : List Sprout} (hf : Tops P f f')
    (h : assignmentKind? (kindAt ws 0) = some k) :
    Grows ws f' (assignment g allowRange k) fun _ _ => Tops IsOperand f := by
  obtain ⟨hbracket, hk⟩ := assignmentKind?_eq_some h
  have hend : kindAt ws 0 ≠ .endOfInput := by
    intro hend
    rw [hend] at h
    exact absurd h (by simp [assignmentKind?, Kind.isCompoundAssignment])
  refine grows_wrapBy hf fun x hx => .peek (hx.take rfl (nest_of_not_bracket hbracket []) (fun _ _ hf => ?_) hend)
  refine .ite ((Asks.pure _).and (.isAt _)) (fun h => ?_) fun _ => ?_
  · exact hf.take h.2 rfl fun _ _ hf => (grows_expression hg hf).andPure fun _ _ _ hf => ⟨rfl, hf⟩
  · exact (grows_expressionList hg hf).andPure fun _ _ _ hf => ⟨hk, hf⟩

lemma grows_simpleRest {allowRange : Bool} {first : Kind} {P : Sprout → Prop} {f' : List Sprout} (hf : Tops P f f') :
    Grows ws f' (simpleRest g allowRange first) fun _ _ => Tops (fun _ => True) f := by
  refine .peek ?_
  split
  · next h => exact (grows_assignment hg hf h).mono fun _ _ _ h => h.mono fun _ _ => trivial
  · split
    iterate 2
      · next h =>
        refine .mono (grows_wrapBy hf fun x hx => ?_) fun _ _ _ h => h.mono fun _ _ => trivial
        exact hx.take h rfl fun _ _ hf => .pure ⟨rfl, hf⟩
    · next h =>
      refine .mono (grows_wrapBy hf fun x hx => ?_) fun _ _ _ h => h.mono fun _ _ => trivial
      exact hx.take h rfl fun _ _ hf => (grows_expression hg hf).andPure fun _ _ _ hf => ⟨rfl, hf⟩
    · exact .pure (hf.mono fun _ _ => trivial)

lemma grows_simpleStatement? {allowRange : Bool} (hf : Leaves st f) :
    Grows ws f (simpleStatement? g allowRange) (Tries st f) := by
  refine .ite ((Asks.pure _).and (.isAt _)) (fun h => ?_) fun _ => ?_
  · refine .map (grows_nodeBy (Leaves.nil.take h.2 rfl fun _ _ hf => ?_)) fun _ _ _ h => h.mono fun _ _ => trivial
    exact (grows_expression hg hf).andPure fun _ _ _ hf => ⟨rfl, hf⟩
  · refine (grows_expressionList? hg hf).bind fun v _ _ h => ?_
    cases v with
    | none => exact .pure h
    | some _ => exact (grows_simpleRest hg h).map fun _ _ _ h => h

/-- A simple statement, whatever becomes of it. -/
lemma grows_discardSimple {allowRange : Bool} (hf : Leaves st f) :
    Grows ws f (discard (simpleStatement? g allowRange)) (Ends st) :=
  (grows_simpleStatement? hg hf).discard fun _ _ _ h => h.leaves hf

lemma grows_wholeStatement (hf : Leaves st f) : Grows ws f (wholeStatement g) (Ends st) :=
  (grows_simpleStatement? hg hf).bind fun v _ _ h => by
    cases v with
    | none => exact .pure h
    | some _ => exact (grows_asStatement h).mono fun _ _ _ h => h.2.leaves hf

/-! ## Branches -/

omit hg in
lemma grows_branch {k c : Kind} (hf : Leaves st f) (h : kindAt ws 0 = c) (hc : nest [] [c] = some [])
    (hk : autoParam (isPlain k = true) Rat.normalize._auto_1)
    (hend : autoParam (c ≠ .endOfInput) Rat.normalize._auto_1) : Grows ws f (branch k) (Ends st) :=
  hf.inNode (Leaves.nil.take h hc (fun _ _ hf => .ite (.isAt _) (fun _ => grows_nameRef hf) fun _ => .pure hf) hend) hk

lemma grows_spawn {k c : Kind} (hf : Leaves st f) (h : kindAt ws 0 = c) (hc : nest [] [c] = some [])
    (hk : autoParam (isPlain k = true) Rat.normalize._auto_1)
    (hend : autoParam (c ≠ .endOfInput) Rat.normalize._auto_1) : Grows ws f (spawn g k) (Ends st) :=
  hf.inNode (Leaves.nil.take h hc (fun _ _ hf => grows_expression hg hf) hend) hk

/-! ## Blocks with headers -/

lemma grows_requiredBlock (hf : Leaves st f) : Grows ws f (requiredBlock g) (Ends st) :=
  .ite (.isAt _) (fun _ => grows_block hg hf) fun _ => hf.expected

lemma grows_header (hf : Leaves st f) : Grows ws f (header g) (Ends st) := by
  refine .withComposites (.ite (.isAt _) (fun _ => .pure hf) fun _ => .bind (Q := Ends st) ?_ fun _ _ _ hf => ?_)
  · exact .otherwise (.isAt _) (fun _ => hf) fun _ => grows_discardSimple hg hf
  · refine hf.ifEat rfl (fun _ _ hf => ?_) fun _ => .pure hf
    exact .ite (.isAt _) (fun _ => .pure hf) fun _ => grows_discardSimple hg hf

lemma grows_ifChain {links : Nat} (hf : Leaves st f) (h : kindAt ws 0 = .ifKeyword) :
    Grows ws f (ifChain g links) (Ends st) := by
  induction links generalizing ws st f with
  | zero => exact .fail
  | succ links ih =>
    refine hf.inNode (Leaves.nil.take h rfl fun _ _ hf => .bind (Q := Ends []) ?_ fun _ _ _ hf =>
      (grows_header hg hf).bind fun _ _ _ hf => (grows_requiredBlock hg hf).bind fun _ _ _ hf =>
      hf.ifEat rfl (fun _ _ hf => .peek ?_) fun _ => .pure hf)
    · exact .given (.isAt _) (fun _ => hf.fault) fun _ => hf
    · split
      · next h => exact ih hf h
      · exact grows_block hg hf
      · exact hf.expected

lemma grows_forParts (hf : Leaves st f) (h : kindAt ws 0 = .semicolon) : Grows ws f (forParts g) (Ends st) := by
  refine hf.take h rfl fun _ _ hf => .bind (Q := Ends st) ?_ fun _ _ _ hf => (hf.expect rfl).bind fun _ _ _ hf => ?_
  · exact .otherwise (.isAt _) (fun _ => hf) fun _ => grows_expression hg hf
  · exact .ite (.isAt _) (fun _ => .pure hf) fun _ => grows_wholeStatement hg hf

lemma grows_forHeader (hf : Leaves st f) : Grows ws f (forHeader g) (Ends st) := by
  refine .bind (Q := Tries st f) ?_ fun init _ _ h => ?_
  · exact .choose (.isAt _) (fun _ => .pure hf) fun _ => grows_simpleStatement? hg hf
  split
  · exact .pure (h.leaves hf)
  · refine .ite (.isAt _) (fun hsemicolon => ?_) fun _ => .pure (h.leaves hf)
    cases init with
    | none => exact (h.leaves hf).inNode (grows_forParts hg .nil hsemicolon)
    | some _ =>
      refine (grows_asStatement h).bind ?_
      rintro _ _ _ ⟨rfl, x, rfl, hx, -⟩
      exact .wrap ((grows_forParts hg hx hsemicolon).mono fun _ _ _ hg => (hg.plainNode rfl).cons hf)

lemma grows_forStatement (hf : Leaves st f) (h : kindAt ws 0 = .forKeyword) :
    Grows ws f (forStatement g) (Ends st) := by
  refine hf.inNode (Leaves.nil.take h rfl fun _ _ hf => .bind (Q := Ends []) (.withComposites ?_) fun _ _ _ hf =>
    grows_requiredBlock hg hf)
  exact .ite (.isAt _) (fun _ => .pure hf) fun _ => grows_forHeader hg hf

lemma grows_clause {k : Kind} (hf : Leaves st f) (h : kindAt ws 0 = .caseKeyword ∨ kindAt ws 0 = .defaultKeyword)
    (hk : isPlain k = true) : Grows ws f (clause g k) (Ends st) := by
  have hsubject : ∀ ws f, Leaves [] f → Grows ws f (caseSubject g k) (Ends []) := fun ws f hf => by
    unfold caseSubject
    split
    · exact grows_discardSimple hg hf
    · exact grows_expressionList hg hf
  refine hf.inNode (.bind (Q := Ends []) ?_ fun _ _ _ hf => (hf.expect rfl).bind fun _ _ _ hf =>
    grows_statements hg hf) hk
  exact Leaves.nil.ifEat rfl hsubject fun hne => Leaves.nil.advance (h.resolve_left hne) rfl

lemma grows_clauses {k : Kind} (hf : Leaves st f) (hk : autoParam (isPlain k = true) Rat.normalize._auto_1) :
    Grows ws f (clauses g k) (Ends st) := by
  have hclause : ∀ {ws st f}, Leaves st f → Grows ws f (clauseOrSkip g k) (Ends st) := fun hf => by
    refine .peek ?_
    split
    · next h => exact grows_clause hg hf (.inl h) hk
    · next h => exact grows_clause hg hf (.inr h) hk
    · next h => exact hf.advance h rfl
    · exact (grows_expectedAndAdvance hf.formed).mono fun _ _ _ ⟨_, _, h⟩ => h.leaves
  have hbrace : nest st [.leftBrace] = some (.leftBrace :: st) := rfl
  refine hf.ifEat hbrace (fun _ _ hf => ?_) fun _ => hf.expected
  refine .bind (Q := Ends (.leftBrace :: st)) (.withComposites ?_) fun _ _ _ hf =>
    hf.expect (by simp [nest, isOpening, opening?])
  refine hf.repeatWhile fun _ _ hf => .ite ((Asks.isAt _).or ((Asks.isAt _).or asks_breaksBlock))
    (fun _ => .pure hf) fun _ => (hclause hf).andPure fun _ _ _ hf => hf

/-! ## Statements -/

lemma grows_labeledStatement (hf : Leaves st f) (h : kindAt ws 0 = .identifier) (hcolon : kindAt ws 1 = .colon) :
    Grows ws f (labeledStatement g) (Ends st) := by
  have hname : Grows ws [] (name "label") fun _ ws' f' => kindAt ws' 0 = .colon ∧ Leaves [] f' := by
    refine .ite (.isAt _) (fun _ => .node ?_) fun hne => absurd h hne
    cases ws with
    | nil => exact absurd h (by decide)
    | cons w ws =>
      have hw : nest [] [w.kind] = some [] := by
        rw [show w.kind = .identifier from h]
        rfl
      exact .advance ⟨hcolon, (Leaves.nil.word hw).plainNode rfl⟩
  refine hf.inNode (hname.bind fun _ _ _ ⟨hcolon, hf⟩ => hf.take hcolon rfl fun _ _ hf => ?_)
  exact .ite ((Asks.isAt _).or (.isAt _)) (fun _ => .pure hf) fun _ => hg.statement hf

lemma grows_statementInner (hf : Leaves st f) : Grows ws f (statementInner g) (Ends st) := by
  refine .peek ?_
  split
  iterate 3
    · exact hf.inNode ((grows_declaration hg).mono fun _ _ _ h => h.leaves .nil)
  · next h =>
    refine hf.inNode (Leaves.nil.take h rfl fun _ _ hf => ?_)
    exact .ite (.isAtAny _) (fun _ => grows_expressionList hg hf) fun _ => .pure hf
  iterate 2
    · next h => exact grows_branch hf h rfl
  · next h => exact hf.inNode (Leaves.nil.take h rfl fun _ _ hf => grows_nameRef hf)
  · next h => exact hf.inNode (Leaves.nil.advance h rfl)
  iterate 2
    · next h => exact grows_spawn hg hf h rfl
  · next h => exact .remaining (grows_ifChain hg hf h)
  · next h => exact grows_forStatement hg hf h
  · next h =>
    refine hf.inNode (Leaves.nil.take h rfl fun _ _ hf => ?_)
    exact (grows_header hg hf).bind fun _ _ _ hf => grows_clauses hg hf
  · next h => exact hf.inNode (Leaves.nil.take h rfl fun _ _ hf => grows_clauses hg hf)
  · exact grows_block hg hf
  · refine .ite ((Asks.pure _).and (.nthIs 1 _)) (fun h => ?_) fun _ => ?_
    · exact grows_labeledStatement hg hf (eq_of_beq h.1) h.2
    · exact .ite (.isAtAny _) (fun _ => grows_wholeStatement hg hf) fun _ => .pure hf

end GoFront.Source
