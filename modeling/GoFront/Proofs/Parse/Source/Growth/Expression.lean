import GoFront.Proofs.Parse.Source.Expression
import GoFront.Proofs.Parse.Source.Growth.Type

/-!
# The source grammar grows what it should: operands

An operand is grown as one sprout that is no binary expression, and so is an operand with what follows it and with the
operators before it.
-/

namespace GoFront.Source

open GoFront.Parser

variable {ws : List Word} {st : List Kind} {f : List Sprout} {g : Nested} (hg : g.Formed)

include hg

/-! ## Composite literals -/

lemma grows_elementValue? (hf : Leaves st f) : Grows ws f (elementValue? g) (Tries st f) :=
  .ite (.isAt _) (fun h => (hg.literalValue h).map fun _ _ _ h => h.mono fun _ _ => trivial)
    fun _ => grows_expression? hg hf

lemma grows_element (hf : Leaves st f) : Grows ws f (element g) (Ends st) := by
  refine (grows_elementValue? hg hf).bind fun v _ _ h => ?_
  cases v with
  | none => exact .pure h
  | some _ =>
    refine .andPure (Q := Ends st) (.given (.isAt _) (fun hcolon => ?_) fun _ => h.leaves hf) fun _ _ _ hf => hf
    obtain ⟨x, rfl, hx, -⟩ := h
    refine .wrap (hx.take hcolon rfl fun _ _ hx => (grows_elementValue? hg hx).discard fun _ _ _ h => ?_)
    exact ((h.leaves hx).plainNode rfl).cons hf

lemma grows_literalValue (h : kindAt ws 0 = .leftBrace) :
    Grows ws f (literalValue g) fun _ _ => Tops IsOperand f := by
  refine grows_nodeBy (Leaves.nil.take h rfl fun _ _ hf => .bind (Q := Ends [.leftBrace]) (.withComposites ?_)
    fun _ _ _ hf => (hf.expect rfl).andPure fun _ _ _ hf => ⟨rfl, hf⟩)
  refine hf.repeatWhile fun _ _ hf => .ite ((Asks.isAt _).or (.isAt _)) (fun _ => .pure hf) fun _ => ?_
  refine (grows_element hg hf).bind fun v _ _ hf => ?_
  cases v with
  | true => exact hf.eat rfl
  | false => exact .pure hf

/-! ## Operands -/

lemma grows_operand? : Grows ws f (operand? g) (Perhaps IsOperand f) := by
  have hleaf : ∀ {c k : Kind}, kindAt ws 0 = c → nest [] [c] = some [] → c ≠ .endOfInput → isPlain k = true →
      Grows ws f (some <$> nodeBy do
        advance
        pure k) (Perhaps IsOperand f) := fun h hc hend hk =>
    (grows_nodeBy (Leaves.nil.take h hc (fun _ _ hf => .pure ⟨hk, hf⟩) hend)).map fun _ _ _ h => h
  refine .peek ?_
  split
  iterate 10
    · next h => exact hleaf h rfl (by decide) rfl
  · next h =>
    refine .map (grows_nodeBy (Leaves.nil.take h rfl fun _ _ hf => ?_)) fun _ _ _ h => h
    refine (Grows.withComposites (grows_expression hg hf)).bind fun _ _ _ hf => ?_
    exact (hf.expect rfl).andPure fun _ _ _ hf => ⟨rfl, hf⟩
  · next h =>
    refine .map (grows_nodeBy (Leaves.nil.take h rfl fun _ _ hf => ?_)) fun _ _ _ h => h
    refine (grows_signature hg hf).bind fun _ _ _ hf => .ite (.isAt _) (fun _ => ?_) fun _ => .pure ⟨rfl, hf⟩
    exact (grows_block hg hf).andPure fun _ _ _ hf => ⟨rfl, hf⟩
  iterate 6 exact grows_type? hg
  · exact .pure rfl

/-! ## What follows an operand -/

section

variable {P : Sprout → Prop} {f' : List Sprout} (hf : Tops P f f')

include hf

lemma grows_selector (h : kindAt ws 0 = .dot) : Grows ws f' (selector g) fun _ _ => Tops IsOperand f := by
  refine grows_wrapBy hf fun x hx => hx.take h rfl fun _ _ hf => hf.ifEat rfl (fun _ _ hf => ?_) fun _ => ?_
  · refine (Leaves.otherwiseAfter (hf.eat rfl) fun _ _ => grows_type hg).bind fun _ _ _ hf => ?_
    exact (hf.expect rfl).andPure fun _ _ _ hf => ⟨rfl, hf⟩
  · exact (grows_nameRef hf).andPure fun _ _ _ hf => ⟨rfl, hf⟩

omit hf in
lemma grows_argumentList (hf : Leaves st f) (h : kindAt ws 0 = .leftParen) :
    Grows ws f (argumentList g) (Ends st) := by
  refine hf.inNode (Leaves.nil.take h rfl fun _ _ hf => .bind (Q := Ends [.leftParen]) (.withComposites ?_)
    fun _ _ _ hf => hf.expect rfl)
  refine hf.repeatWhile fun _ _ hf => .ite ((Asks.isAt _).or (.isAt _)) (fun _ => .pure hf) fun _ => ?_
  refine (grows_expression? hg hf).bind fun v _ _ h => ?_
  have hf := h.leaves hf
  cases v with
  | none => exact .pure hf
  | some _ => exact (hf.eat rfl).bind fun _ _ _ hf => hf.eat rfl

omit hf in
lemma grows_sliceBounds (hf : Leaves st f) : Grows ws f (sliceBounds g) (Ends st) := by
  refine .loop (I := Ends st) (E := Ends st) hf fun _ _ _ hf => hf.ifEat rfl (fun _ _ hf => ?_) fun _ => .pure hf
  refine .andPure (Q := Ends st) ?_ fun _ _ _ hf => hf
  exact .otherwise ((Asks.isAt _).or (.isAt _)) (fun _ => hf) fun _ => grows_expression hg hf

omit hf in
lemma grows_indices (hf : Leaves st f) : Grows ws f (indices g) (Ends st) := by
  refine (grows_expression hg hf).bind fun _ _ _ hf => hf.repeatWhile fun _ _ hf => ?_
  refine hf.ifEat rfl (fun _ _ hf => .ite (.isAt _) (fun _ => .pure hf) fun _ => ?_) fun _ => .pure hf
  exact (grows_expression hg hf).andPure fun _ _ _ hf => hf

lemma grows_index (h : kindAt ws 0 = .leftBracket) : Grows ws f' (index g) fun _ _ => Tops IsOperand f := by
  refine grows_wrapBy hf fun x hx => hx.take h rfl fun _ _ hf => .bind (Q := Ends [.leftBracket]) ?_
    fun sliced _ _ hf => (hf.expect rfl).andPure fun _ _ _ hf => ⟨?_, hf⟩
  · refine .withComposites (.bind (Q := Ends [.leftBracket]) ?_ fun _ _ _ hf => grows_sliceBounds hg hf)
    exact .otherwise (.isAt _) (fun _ => hf) fun _ => grows_indices hg hf
  · cases sliced <;> rfl

/-- What follows an operand is put into a node with it. -/
lemma grows_suffix {operand : Kind} (hP : ∀ x, P x → IsOperand x) :
    Grows ws f' (suffix g operand) (Grows.Goes (fun _ _ => Tops IsOperand f) fun _ _ => Tops IsOperand f) := by
  refine .peek ?_
  split
  · next h => exact (grows_selector hg hf h).map fun _ _ _ h => h
  · next h =>
    refine .map (grows_wrapBy hf fun x hx => ?_) fun _ _ _ h => h
    exact (grows_argumentList hg hx h).andPure fun _ _ _ hf => ⟨rfl, hf⟩
  · next h => exact (grows_index hg hf h).map fun _ _ _ h => h
  · next h =>
    refine .look fun allowed => ?_
    split
    · refine .map (grows_wrapBy hf fun x hx => ?_) fun _ _ _ h => h
      exact (grows_literalValue hg h).andPure fun _ _ _ h => ⟨rfl, h.leaves hx⟩
    · exact .pure (hf.mono hP)
  · exact .pure (hf.mono hP)

end

lemma grows_primary? : Grows ws f (primary? g) (Perhaps IsOperand f) := by
  refine (grows_operand? hg).bind fun v _ _ h => ?_
  cases v with
  | none => exact .pure h
  | some _ =>
    refine .map (Q := fun _ _ => Tops IsOperand f) ?_ fun _ _ _ h => h
    exact .loop (I := fun _ _ => Tops IsOperand f) h fun _ _ _ h => grows_suffix hg h fun _ hx => hx

/-! ## Operators before an operand -/

omit hg in
/-- An operator that stands before its operand is no bracket. -/
lemma nest_of_unaryOperator {k : Kind} (h : unaryOperators.contains k = true ∨ k = .arrow) (st : List Kind) :
    nest st [k] = some st := by
  refine nest_of_not_bracket ?_ st
  revert h
  cases k <;> decide

lemma grows_operandInner : Grows ws f (operandInner g) (Perhaps IsOperand f) := by
  refine .ite asks_isAtUnaryOperator (fun hop => .peek ?_) fun _ => grows_primary? hg
  refine .map (Q := fun _ _ => Tops IsOperand f) (.nodeBy ?_) fun _ _ _ h => h
  refine .take (K := fun k => unaryOperators.contains k = true ∨ k = .arrow) hop (by decide) fun w _ _ hw => ?_
  have hw : Leaves [] [.word w] := Leaves.nil.word (nest_of_unaryOperator hw [])
  refine .andPure (Q := fun _ _ g => Leaves [] [.node .unaryExpression g.reverse])
    (.givenNone (grows_unary? hg) (fun _ g h => .error fun r => ?_) fun _ _ g h => ?_)
    fun _ _ g hg => ⟨_, rfl, hg, .node (by decide)⟩
  · obtain rfl : g = [.word w] := h
    refine hw.error.node ⟨?_, fun _ => ⟨by decide, nofun⟩⟩
    simp [Grouped, Sprout.stemsIn, Sprout.stems]
  · obtain ⟨_, rfl, hx, ⟨hk⟩⟩ := h
    refine (hx.cons hw).node ⟨?_, fun _ => ⟨by decide, nofun⟩⟩
    simp [Grouped, Sprout.stemsIn, Sprout.stems, Ne.symm hk]

end GoFront.Source
