import GoFront.Proofs.Parse.Source.Growth.Basic
import GoFront.Proofs.Parse.Source.Type

/-!
# The source grammar grows what it should: signatures and types

A production that takes its first word without a look at it is entered at a word of a known kind, and the lemma about
it asks for that word.
-/

namespace GoFront.Source

open GoFront.Parser

variable {ws : List Word} {st : List Kind} {f : List Sprout} {g : Nested} (hg : g.Formed)

include hg

/-! ## Signatures -/

lemma grows_parameter (hf : Leaves st f) : Grows ws f (parameter g) (Ends st) := by
  refine .ite ((Asks.isAtAny _).or (.isAt _)) (fun _ => ?_) fun _ => .pure hf
  have hname : Grows ws [] (given (isAt .identifier <&&> namesParameter) (name "parameter name")) (Ends []) :=
    .given ((Asks.isAt _).and asks_namesParameter) (fun _ => grows_name .nil) fun _ => .nil
  refine .andPure (hf.inNode (hname.bind fun _ _ _ hf => ?_)) fun _ _ _ hf => hf
  exact (hf.eat rfl).bind fun _ _ _ hf => grows_type hg hf

lemma grows_parameterList {k : Kind} (hf : Leaves st f) (h : kindAt ws 0 = .leftParen)
    (hk : autoParam (isPlain k = true) Rat.normalize._auto_1) : Grows ws f (parameterList g k) (Ends st) := by
  refine hf.inNode (Leaves.nil.take h rfl fun _ _ hf => .bind (Q := Ends [.leftParen]) ?_ fun _ _ _ hf =>
    hf.expect rfl) hk
  refine hf.repeatWhile fun _ _ hf => .ite ((Asks.isAt _).or (.isAt _)) (fun _ => .pure hf) fun _ => ?_
  refine (grows_parameter hg hf).bind fun v _ _ hf => ?_
  cases v with
  | true => exact hf.eat rfl
  | false => exact .pure hf

lemma grows_signature (hf : Leaves st f) : Grows ws f (signature g) (Ends st) := by
  have hparameters :
      Grows ws f (choose (isAt .leftParen) (parameterList g .parameterList) (expected "'('")) (Ends st) :=
    .choose (.isAt _) (fun h => grows_parameterList hg hf h) fun _ => hf.expected
  refine hparameters.bind fun _ _ _ hf => .ite (.isAt _) (fun h => ?_) fun _ => ?_
  · exact hf.inNode (grows_parameterList hg .nil h)
  · refine .ite (.isAtAny _) (fun _ => ?_) fun _ => .pure hf
    exact hf.inNode ((grows_type? hg).discard fun _ _ _ h => (h.tries .nil).leaves .nil)

lemma grows_typeElement (hf : Leaves st f) : Grows ws f (typeElement g) (Ends st) := by
  refine .nodeIf (.mono (Q := Ends []) ?_ fun v _ _ hg => ?_)
  · refine .loop (I := Ends []) (E := Ends []) Leaves.nil fun _ _ _ hf => (hf.eat rfl).bind fun _ _ _ hf =>
      (grows_type hg hf).bind fun _ _ _ hf => hf.ifEat rfl (fun _ _ hf => .pure hf) fun _ => .pure hf
  · cases v with
    | true => exact (hg.plainNode rfl).cons hf
    | false => exact hg.append hf

lemma grows_typeParameters (hf : Leaves st f) (h : kindAt ws 0 = .leftBracket) :
    Grows ws f (typeParameters g) (Ends st) := by
  refine hf.inNode (Leaves.nil.take h rfl fun _ _ hf => .bind (Q := Ends [.leftBracket]) ?_ fun _ _ _ hf =>
    hf.expect rfl)
  refine hf.repeatWhile fun _ _ hf => .ite (.isAt _) (fun _ => ?_) fun _ => .pure hf
  refine .bind (hf.inNode ((grows_name .nil).bind fun _ _ _ hf => ?_)) fun _ _ _ hf => hf.eat rfl
  exact .ite ((Asks.isAtAny _).or (.isAt _)) (fun _ => grows_typeElement hg hf) fun _ => .pure hf

/-! ## Types -/

lemma grows_typeArguments (hf : Leaves st f) (h : kindAt ws 0 = .leftBracket) :
    Grows ws f (typeArguments g) (Ends st) := by
  refine hf.inNode (Leaves.nil.take h rfl fun _ _ hf => .bind (Q := Ends [.leftBracket]) ?_ fun _ _ _ hf =>
    hf.expect rfl)
  refine hf.repeatWhile fun _ _ hf => (grows_type hg hf).bind fun _ _ _ hf => ?_
  exact hf.ifEat rfl (fun _ _ hf => hf.ask (.not (.isAt _))) fun _ => .pure hf

lemma grows_typeName (h : kindAt ws 0 = .identifier) : Grows ws f (typeName g) fun _ _ => Tops IsOperand f := by
  refine grows_nodeBy (Leaves.nil.take h rfl fun _ _ hf => .bind (Q := Ends []) ?_ fun _ _ _ hf => .andPure
    (Q := Ends []) ?_ fun _ _ _ hf => ⟨rfl, hf⟩)
  · refine .given ((Asks.isAt _).and (.nthIs 1 _)) (fun h => ?_) fun _ => hf
    refine .take (K := (· = .dot)) h.1 (by decide) fun w ws' hws hw => ?_
    subst hws
    exact (hf.word (hw ▸ rfl)).advance h.2 rfl
  · exact .given ((Asks.isAt _).and (.not (.nthIs 1 _))) (fun h => grows_typeArguments hg hf h.1) fun _ => hf

omit hg in
/-- Members between braces, if each of them leaves open what was open. -/
lemma grows_members {member : Parser Unit} {what : String} (hf : Leaves st f)
    (h : ∀ {ws st f}, Leaves st f → Grows ws f member (Ends st)) : Grows ws f (members member what) (Ends st) := by
  have hbrace : nest st [.leftBrace] = some (.leftBrace :: st) := rfl
  refine hf.ifEat hbrace (fun _ _ hf => ?_) fun _ => hf.expected
  refine .bind (Q := Ends (.leftBrace :: st)) ?_ fun _ _ _ hf => hf.expect (by simp [nest, isOpening, opening?])
  refine hf.repeatWhile fun _ _ hf => .ite ((Asks.isAt _).or (.isAt _)) (fun _ => .pure hf) fun _ => ?_
  refine hf.ifEat rfl (fun _ _ hf => .pure hf) fun _ => ?_
  exact (grows_orSkip (h hf) fun _ _ => grows_separator).andPure fun _ _ _ hf => hf

lemma grows_namedFields (hf : Leaves st f) : Grows ws f (namedFields g) (Ends st) :=
  (grows_name hf).bind fun _ _ _ hf => (grows_commas hf fun _ _ => grows_name).bind fun _ _ _ hf => grows_type hg hf

omit hg in
lemma grows_fieldTag (hf : Leaves st f) : Grows ws f fieldTag (Ends st) := by
  refine .ite ((Asks.isAt _).or (.isAt _)) (fun h => ?_) fun _ => .pure hf
  rcases h with h | h
  · exact hf.advance h rfl
  · exact hf.advance h rfl

lemma grows_fieldDeclaration (hf : Leaves st f) : Grows ws f (fieldDeclaration g) (Ends st) := by
  have hembedded : kindAt ws 0 = .identifier → Grows ws f (node .fieldDeclaration do
      let _ ← typeName g
      fieldTag) (Ends st) := fun h =>
    hf.inNode ((grows_typeName hg h).bind fun _ _ _ h => grows_fieldTag (h.leaves .nil))
  refine .peek (.nth ?_)
  split
  · exact hf.inNode ((grows_type? hg).bind fun _ _ _ h => grows_fieldTag ((h.tries .nil).leaves .nil))
  iterate 5
    · next h _ => exact hembedded h
  · exact hf.inNode ((grows_namedFields hg .nil).bind fun _ _ _ hf => grows_fieldTag hf)
  · exact .pure hf

lemma grows_interfaceMember (hf : Leaves st f) : Grows ws f (interfaceMember g) (Ends st) := by
  refine .ite ((Asks.isAt _).and (.nthIs 1 _)) (fun _ => ?_) fun _ => ?_
  · exact hf.inNode ((grows_name .nil).bind fun _ _ _ hf => grows_signature hg hf)
  · exact .ite ((Asks.isAtAny _).or (.isAt _)) (fun _ => grows_typeElement hg hf) fun _ => .pure hf

/-- What a type is grown from: a node of an ordinary kind that closes what it opens. -/
abbrev Ordinary : Kind → List Word → List Sprout → Prop := fun k _ f => isPlain k = true ∧ Leaves [] f

lemma grows_bracketType (h : kindAt ws 0 = .leftBracket) : Grows ws [] (bracketType g) Ordinary := by
  refine Leaves.nil.take h rfl fun _ _ hf => hf.ifEat rfl (fun _ _ hf => ?_) fun _ => ?_
  · exact (grows_type hg hf).andPure fun _ _ _ hf => ⟨rfl, hf⟩
  · refine (Leaves.otherwiseAfter (hf.eat rfl) fun _ _ => grows_expression hg).bind fun _ _ _ hf => ?_
    exact (hf.expect rfl).bind fun _ _ _ hf => (grows_type hg hf).andPure fun _ _ _ hf => ⟨rfl, hf⟩

lemma grows_compoundType (h : typeStart.contains (kindAt ws 0) = true) (hne : kindAt ws 0 ≠ .identifier) :
    Grows ws [] (compoundType g (kindAt ws 0)) Ordinary := by
  have htype : ∀ {ws f k}, isPlain k = true → Leaves [] f →
      Grows ws f (type g >>= fun _ => pure (f := Parser) k) Ordinary := fun hk hf =>
    (grows_type hg hf).andPure fun _ _ _ hf => ⟨hk, hf⟩
  unfold compoundType
  split
  · next h => exact Leaves.nil.take h rfl fun _ _ hf => htype rfl hf
  · next h => exact grows_bracketType hg h
  · next h =>
    refine Leaves.nil.take h rfl fun _ _ hf => (grows_type hg hf).bind fun _ _ _ hf => ?_
    exact (hf.expect rfl).andPure fun _ _ _ hf => ⟨rfl, hf⟩
  · next h =>
    refine Leaves.nil.take h rfl fun _ _ hf => (hf.expect rfl).bind fun _ _ _ hf => ?_
    refine (grows_type hg hf).bind fun _ _ _ hf => (hf.expect rfl).bind fun _ _ _ hf => htype rfl hf
  · next h => exact Leaves.nil.take h rfl fun _ _ hf => (hf.eat rfl).bind fun _ _ _ hf => htype rfl hf
  · next h => exact Leaves.nil.take h rfl fun _ _ hf => (hf.expect rfl).bind fun _ _ _ hf => htype rfl hf
  · next h =>
    exact Leaves.nil.take h rfl fun _ _ hf => (grows_signature hg hf).andPure fun _ _ _ hf => ⟨rfl, hf⟩
  · next h =>
    refine Leaves.nil.take h rfl fun _ _ hf => ?_
    exact (grows_members hf (grows_fieldDeclaration hg)).andPure fun _ _ _ hf => ⟨rfl, hf⟩
  · -- Only one word is left that can start a type.
    have hinterface : kindAt ws 0 = .interfaceKeyword := by
      generalize kindAt ws 0 = k at *
      cases k <;> first | rfl | contradiction
    refine Leaves.nil.take hinterface rfl fun _ _ hf => ?_
    exact (grows_members hf (grows_interfaceMember hg)).andPure fun _ _ _ hf => ⟨rfl, hf⟩

lemma grows_typeInner (h : typeStart.contains (kindAt ws 0) = true) :
    Grows ws f (typeInner g) (Perhaps IsOperand f) := by
  refine .ite (.isAt _) (fun h => ?_) fun hne => .peek ?_
  · exact (grows_typeName hg h).map fun _ _ _ h => h
  · exact (grows_nodeBy (grows_compoundType hg h hne)).map fun _ _ _ h => h

end GoFront.Source
