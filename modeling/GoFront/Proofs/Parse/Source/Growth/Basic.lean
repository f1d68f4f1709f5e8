import GoFront.Proofs.Parse.Source.Basic
import GoFront.Proofs.Parse.Source.Form

/-!
# The source grammar grows what it should: entries

The productions of the source grammar close the brackets they open, or report an error, and what they grow has the
right form. A production that answers with a kind has grown one sprout, on top of what was there (`Tops`).

The operators of a chain are put into the right form by `grows_binary?`: where the chain for the right side of an
operator ends, the next operator does not bind more strongly than the one before it.
-/

namespace GoFront.Source

open GoFront.Parser

/-- One sprout of which `P` holds and that closes what it opens was grown on top of `f`. -/
def Tops (P : Sprout → Prop) (f f' : List Sprout) : Prop := ∃ x, f' = x :: f ∧ Leaves [] [x] ∧ P x

/-- One sprout was grown, or nothing if there is no answer. -/
def Perhaps (P : Sprout → Prop) (f : List Sprout) : Option Kind → List Word → List Sprout → Prop
  | none, _, f' => f' = f
  | some _, _, f' => Tops P f f'

/-- One sprout was grown; if there is no answer, `st` are the brackets that are open. -/
def Tries (st : List Kind) (f : List Sprout) : Option Kind → List Word → List Sprout → Prop
  | none, _, f' => Leaves st f'
  | some _, _, f' => Tops (fun _ => True) f f'

/-- The productions one level down grow what they should. -/
structure Nested.Formed (g : Nested) : Prop where
  operand : ∀ {ws f}, expressionStart.contains (kindAt ws 0) = true → Grows ws f g.operand (Perhaps IsOperand f)
  type : ∀ {ws f}, typeStart.contains (kindAt ws 0) = true → Grows ws f g.type (Perhaps IsOperand f)
  statement : ∀ {ws st f}, Leaves st f → Grows ws f g.statement (Ends st)
  literalValue : ∀ {ws f}, kindAt ws 0 = .leftBrace → Grows ws f g.literalValue fun _ _ => Tops IsOperand f

variable {ws : List Word} {st : List Kind} {f : List Sprout}

lemma Tops.mono {P P' : Sprout → Prop} {f' : List Sprout} (h : Tops P f f') (hP : ∀ x, P x → P' x) : Tops P' f f' := by
  obtain ⟨x, rfl, hx, hPx⟩ := h
  exact ⟨x, rfl, hx, hP x hPx⟩

lemma Tops.leaves {P : Sprout → Prop} {f' : List Sprout} (h : Tops P f f') (hf : Leaves st f) : Leaves st f' := by
  obtain ⟨x, rfl, hx, -⟩ := h
  exact hx.cons hf

/-- What a production grows that answers with a kind, whatever the answer is. -/
lemma Tries.leaves {v : Option Kind} {ws' : List Word} {f' : List Sprout} (h : Tries st f v ws' f') (hf : Leaves st f) :
    Leaves st f' := by
  cases v with
  | none => exact h
  | some _ => exact Tops.leaves h hf

lemma Perhaps.tries {P : Sprout → Prop} {v : Option Kind} {ws' : List Word} {f' : List Sprout}
    (h : Perhaps P f v ws' f') (hf : Leaves st f) : Tries st f v ws' f' := by
  cases v with
  | none =>
    obtain rfl : f' = f := h
    exact hf
  | some _ => exact Tops.mono h fun _ _ => trivial

/-- A node of an ordinary kind that is grown on its own. -/
lemma grows_nodeBy {p : Parser Kind} (h : Grows ws [] p fun k _ g => isPlain k = true ∧ Leaves [] g) :
    Grows ws f (nodeBy p) fun _ _ => Tops IsOperand f := by
  refine .nodeBy (h.mono fun k _ g ⟨hk, hg⟩ => ⟨_, rfl, hg.plainNode hk, .node ?_⟩)
  rintro rfl
  exact absurd hk (by decide)

/-- A node of an ordinary kind that is grown around the last sprout. -/
lemma grows_wrapBy {p : Parser Kind} {P : Sprout → Prop} {f' : List Sprout} (hf : Tops P f f')
    (h : ∀ x, Leaves [] [x] → Grows ws [x] p fun k _ g => isPlain k = true ∧ Leaves [] g) :
    Grows ws f' (wrapBy p) fun _ _ => Tops IsOperand f := by
  obtain ⟨x, rfl, hx, -⟩ := hf
  refine .wrapBy ((h x hx).mono fun k _ g ⟨hk, hg⟩ => ⟨_, rfl, hg.plainNode hk, .node ?_⟩)
  rintro rfl
  exact absurd hk (by decide)

/-! ## Names -/

lemma grows_name {what : String} (hf : Leaves st f) : Grows ws f (name what) (Ends st) :=
  .ite (.isAt _) (fun h => hf.inNode (Leaves.nil.advance h rfl)) fun _ => hf.expected

lemma grows_nameRef {what : String} (hf : Leaves st f) : Grows ws f (nameRef what) (Ends st) :=
  .ite (.isAt _) (fun h => hf.inNode (Leaves.nil.advance h rfl)) fun _ => hf.expected

/-! ## Skipping -/

lemma grows_skipRound {depth : Nat} (hf : Reported f) : Grows ws f (skipRound depth) fun _ _ f' => Reported f' := by
  refine .ite (.isAt _) (fun _ => .pure hf) fun _ => .peek ?_
  have htake : ∀ r : ForInStep Nat, Grows ws f (advance >>= fun _ => pure (f := Parser) r) fun _ _ f' => Reported f' :=
    fun r => hf.advance.andPure fun _ _ _ hf => hf
  split
  iterate 3 exact htake _
  iterate 5
    · split
      · exact .pure hf
      · exact htake _
  · exact htake _

lemma grows_tooDeep : Grows ws f tooDeep fun _ _ => Tops IsOperand f := by
  refine .nodeBy ((Reported.fault formedIn_nil).bind fun _ _ _ hg => ?_)
  have hskip : ∀ ws g, Reported g → Grows ws g skipTooDeep fun _ _ f' => Reported f' := fun ws g hg =>
    (Grows.loop (I := fun _ _ f' => Reported f') (E := fun _ _ f' => Reported f') hg fun _ _ _ hf =>
      (grows_skipRound hf).mono fun v _ _ hf => by cases v <;> exact hf).discard fun _ _ _ hf => hf
  refine (hskip _ _ hg).andPure fun _ _ g hg => ⟨_, rfl, ?_, .node (by decide)⟩
  exact (hg.node formedIn_nil).leaves

lemma formed_bottom : Nested.bottom.Formed where
  operand _ := grows_tooDeep.map fun _ _ _ h => h
  type _ := grows_tooDeep.map fun _ _ _ h => h
  statement hf := grows_tooDeep.discard fun _ _ _ h => h.leaves hf
  literalValue _ := grows_tooDeep

/-! ## Types and expressions -/

section

variable {g : Nested} (hg : g.Formed)

include hg

lemma grows_type? : Grows ws f (type? g) (Perhaps IsOperand f) :=
  .ite (.isAtAny _) (fun h => hg.type h) fun _ => .pure rfl

lemma grows_type (hf : Leaves st f) : Grows ws f (type g) (Ends st) :=
  (grows_type? hg).bind fun v _ _ h => by
    have hf := (h.tries hf).leaves hf
    cases v with
    | none => exact grows_expectedOr hf
    | some _ => exact .pure hf

lemma grows_unary? : Grows ws f (unary? g) (Perhaps IsOperand f) :=
  .ite (.isAtAny _) (fun h => hg.operand h) fun _ => .pure rfl

/-- A sprout in a chain of operators that bind at least as strongly as `least`: the operator behind it does not bind
more strongly than its own. -/
inductive Chained (least : Nat) (ws : List Word) : Sprout → Prop
  | node {k : Kind} {cs : List Sprout} (strength : ∀ n ∈ strength? (.branch k (Sprout.stemsIn cs)), least ≤ n)
    (behind : ∀ n ∈ wholeStrength? (.branch k (Sprout.stemsIn cs)), ∀ m ∈ precedence? (kindAt ws 0), m ≤ n) :
    Chained least ws (.node k cs)

omit hg in
lemma IsOperand.chained {x : Sprout} (h : IsOperand x) (least : Nat) (ws : List Word) : Chained least ws x := by
  cases h with
  | node hk =>
    refine .node ?_ ?_
    · rw [strength?_of_ne hk]
      simp
    · rw [wholeStrength?_of_ne hk]
      simp

omit hg in
lemma precedence?_lt {k : Kind} {n : Nat} (h : precedence? k = some n) : n < 7 := by
  have hall : ∀ k, ∀ n ∈ precedence? k, n < 7 := by
    intro k
    cases k <;> decide
  exact hall k n h

omit hg in
lemma nest_of_precedence? {k : Kind} {n : Nat} (h : precedence? k = some n) (st : List Kind) :
    nest st [k] = some st := by
  refine nest_of_not_bracket ?_ st
  revert h
  cases k <;> first | exact fun _ => ⟨rfl, rfl⟩ | exact fun h => nomatch h

/-- What a chain of operators that bind at least as strongly as `least` grows: it ends where the next operator binds
less strongly. -/
def Chain (least : Nat) (f : List Sprout) (v : Option Kind) (ws' : List Word) (f' : List Sprout) : Prop :=
  Perhaps (Chained least ws') f v ws' f' ∧ (v ≠ none → ∀ m ∈ precedence? (kindAt ws' 0), m < least)

omit hg in
/-- An operator whose operand is missing. -/
lemma tops_cut {least n : Nat} {x : Sprout} {w : Word} {ws ws' : List Word} {e : Problem} {r : Span}
    (hx : Leaves [] [x]) (hchained : Chained least (w :: ws) x) (hn : precedence? w.kind = some n)
    (hleast : least ≤ n) : Tops (Chained least ws') f (.node .binaryExpression [x, .word w, .error e r] :: f) := by
  obtain @⟨k, cs, -, hbehind⟩ := hchained
  have hparts : Leaves [] [.error e r, .word w, .node k cs] := (hx.word (nest_of_precedence? hn [])).error
  have hshaped : Shaped .binaryExpression [.node k cs, .word w, .error e r] :=
    ⟨Binds.cut hn fun m hm => hbehind m hm n hn, fun hclean => by simp [Sprout.reportsIn, Sprout.reports] at hclean⟩
  refine ⟨_, rfl, hparts.node hshaped, .node (fun m hm => ?_) fun m hm => ?_⟩
  · obtain rfl : n = m := Option.some.inj (hn.symm.trans hm)
    exact hleast
  · exact absurd hm (Option.not_mem_none m)

omit hg in
/-- An operator and its operands; behind the operand on its right side there is no operator that binds more
strongly. -/
lemma tops_whole {least n : Nat} {x y : Sprout} {w : Word} {ws ws' : List Word} (hx : Leaves [] [x])
    (hchained : Chained least (w :: ws) x) (hn : precedence? w.kind = some n) (hleast : least ≤ n) (hy : Leaves [] [y])
    (hright : Chained (n + 1) ws' y) (hnext : ∀ m ∈ precedence? (kindAt ws' 0), m < n + 1) :
    Tops (Chained least ws') f (.node .binaryExpression [x, .word w, y] :: f) := by
  obtain @⟨k, cs, -, hbehind⟩ := hchained
  obtain @⟨k', cs', hstrength, -⟩ := hright
  have hparts : Leaves [] [.node k' cs', .word w, .node k cs] := hy.cons (hx.word (nest_of_precedence? hn []))
  have hshaped : Shaped .binaryExpression [.node k cs, .word w, .node k' cs'] :=
    ⟨Binds.whole hn (fun m hm => hbehind m hm n hn) hstrength, fun _ => ⟨by decide, fun _ => rfl⟩⟩
  refine ⟨_, rfl, hparts.node hshaped, .node (fun m hm => ?_) fun m hm l hl => ?_⟩
  · obtain rfl : n = m := Option.some.inj (hn.symm.trans hm)
    exact hleast
  · obtain rfl : n = m := Option.some.inj (hn.symm.trans hm)
    exact Nat.le_of_lt_succ (hnext l hl)

/-- A chain of operators ends where the next operator binds less strongly than `least`. -/
lemma grows_binary? (tiers least : Nat) (hleast : 7 ≤ tiers + least) :
    Grows ws f (binary? g tiers least) (Chain least f) := by
  induction tiers generalizing least ws f with
  | zero =>
    refine (grows_unary? hg).mono fun v ws' f' h => ⟨?_, fun _ m hm => ?_⟩
    · cases v with
      | none => exact h
      | some _ => exact Tops.mono h fun x hx => hx.chained least ws'
    · have := precedence?_lt hm
      omega
  | succ tiers ih =>
    refine (grows_unary? hg).bind fun v ws' f' h => ?_
    cases v with
    | none => exact .pure ⟨h, fun hne => absurd rfl hne⟩
    | some first =>
      refine Grows.map (Q := fun k ws' f' => Chain least f (some k) ws' f') ?_ fun _ _ _ h => h
      refine .loop (I := fun _ ws f' => Tops (Chained least ws) f f')
        (Tops.mono h fun x hx => hx.chained least ws') fun left ws f' hf => .peek ?_
      split
      · next hnone => exact .pure ⟨hf, fun _ m hm => absurd (hnone.symm.trans hm) (Option.some_ne_none m).symm⟩
      · next n hn =>
        split
        · next hlt =>
          refine .pure ⟨hf, fun _ m hm => ?_⟩
          obtain rfl : n = m := Option.some.inj (hn.symm.trans hm)
          exact hlt
        · next hge =>
          obtain ⟨x, rfl, hx, hchained⟩ := hf
          refine .map (Q := fun _ ws' f' => Tops (Chained least ws') f f') (.wrapBy ?_) fun _ _ _ h => h
          refine .take (K := fun k => precedence? k = some n) hn (by simp [precedence?]) fun w ws' hws hw => ?_
          subst hws
          have hle : least ≤ n := Nat.le_of_not_lt hge
          refine .andPure (Q := fun _ ws' g => Tops (Chained least ws') f (.node .binaryExpression g.reverse :: f))
            (.givenNone (ih (n + 1) (by omega)) (fun ws'' g hright => ?_) fun k ws'' g hright => ?_) fun _ _ _ h => h
          · obtain rfl : g = [.word w, x] := hright.1
            exact .error fun r => tops_cut hx hchained hw hle
          · obtain ⟨⟨y, rfl, hy, hright⟩, hnext⟩ := hright
            exact tops_whole hx hchained hw hle hy hright (hnext (Option.some_ne_none k))

lemma grows_expression? (hf : Leaves st f) : Grows ws f (expression? g) (Tries st f) :=
  (grows_binary? hg 6 1 (by decide)).bind fun v _ _ h => by
    cases v with
    | none =>
      have hf := (h.1.tries hf).leaves hf
      exact (grows_expectedOr hf).andPure fun _ _ _ hf => hf
    | some _ => exact .pure (h.1.tries hf)

lemma grows_expression (hf : Leaves st f) : Grows ws f (expression g) (Ends st) :=
  (grows_expression? hg hf).discard fun _ _ _ h => h.leaves hf

omit hg in
/-- A list that goes on as long as there are commas. -/
lemma grows_commas {body : Parser Unit} (hf : Leaves st f) (h : ∀ ws f, Leaves st f → Grows ws f body (Ends st)) :
    Grows ws f (repeatWhile do
      if ← eat .comma then
        body
        pure true
      else pure false) (Ends st) :=
  hf.repeatWhile fun _ _ hf => hf.ifEat rfl (fun ws f hf => (h ws f hf).andPure fun _ _ _ hf => hf) fun _ => .pure hf

lemma grows_expressionList? (hf : Leaves st f) : Grows ws f (expressionList? g) (Tries st f) :=
  (grows_expression? hg hf).bind fun v _ _ h => by
    cases v with
    | none => exact .pure h
    | some _ =>
      refine .ite (.isAt _) (fun _ => ?_) fun _ => .pure h
      refine .map (Q := fun _ _ => Tops IsOperand f) (grows_wrapBy h fun x hx => ?_) fun _ _ _ h =>
        Tops.mono h fun _ _ => trivial
      exact (grows_commas hx fun _ _ => grows_expression hg).andPure fun _ _ _ h => ⟨rfl, h⟩

lemma grows_expressionList (hf : Leaves st f) : Grows ws f (expressionList g) (Ends st) :=
  (grows_expressionList? hg hf).discard fun _ _ _ h => h.leaves hf

/-! ## Statements -/

omit hg in
lemma grows_separator {closer : Kind} (hf : Leaves st f) : Grows ws f (separator closer) (Ends st) :=
  .ite (.isAt _) (fun _ => .pure hf) fun _ => hf.ifEat rfl (fun _ _ hf => .pure hf) fun _ => hf.expected

omit hg in
lemma grows_statementEnd (hf : Leaves st f) : Grows ws f statementEnd (Ends st) :=
  .ite ((Asks.isAt _).or (.peek _)) (fun _ => .pure hf) fun _ =>
    hf.ifEat rfl (fun _ _ hf => .pure hf) fun _ => hf.expected

lemma grows_statementRound (hf : Leaves st f) : Grows ws f (statementRound g) (Ends st) := by
  refine .peek ?_
  split
  iterate 4 exact .pure hf
  · next h => exact hf.take h rfl fun _ _ hf => .pure hf
  · split
    · next hlexical =>
      -- The error node holds the word alone, which brings its own error.
      refine .andPure (Q := fun _ _ => Leaves st) (.node ?_) fun _ _ _ hf => hf
      cases ws with
      | nil => exact absurd hlexical (by decide)
      | cons w ws => exact .advance ((Reported.word hlexical formedIn_nil).node hf.formed).leaves
    · refine .ite asks_breaksBlock (fun _ => .pure hf) fun _ => ?_
      exact (grows_orSkip (hg.statement hf) fun _ _ => grows_statementEnd).andPure fun _ _ _ hf => hf

lemma grows_statements (hf : Leaves st f) : Grows ws f (statements g) (Ends st) :=
  hf.repeatWhile fun _ _ hf => grows_statementRound hg hf

lemma grows_block (hf : Leaves st f) : Grows ws f (block g) (Ends st) :=
  hf.inNode <| (Leaves.nil.expect rfl).bind fun _ _ _ hf =>
    (Grows.withComposites (grows_statements hg hf)).bind fun _ _ _ hf => hf.expect rfl

end

end GoFront.Source
