import GoFront.Proofs.Parse.Source.Growth.File

/-!
# The operators of a source file bind by their strength

An operand is grown before the operator behind it is seen, and it becomes the first part of the binary expression
only then. So the tree is the only place where the operands of an operator can be read off: the left one does not bind
less strongly than the operator, the right one binds more strongly (`Binding`). Where an operand is missing an error is
reported, and the expression that lacks it can be the left operand of any operator.

In a file without errors no operand is missing. There the operator of a binary expression is the last of the weakest
ones in its chain (`Grouping`), so every chain of operators is grouped by strength, and from the left where the strength
is the same.
-/

namespace GoFront.Source

/-! ## Reading operators off a tree -/

/-- The operators of a node: its own tokens, blanks and comments apart. -/
def operators (n : Node) : List Leaf := n.tokens.filter (!·.kind.isTrivia)

/-- How strongly the operator of a node binds. -/
def operatorStrength? (n : Node) : Option Nat := (operators n).head?.bind (precedence? ·.kind)

/-- The nodes behind the operator of a node. -/
def behindOperator (n : Node) : List Node :=
  ((n.parts Kind.isTrivia).dropWhile (·.node?.isSome)).filterMap Element.node?

mutual

/-- How strongly the operators in a chain of binary expressions bind, in the order of the text. -/
def chain : Element → List Nat
  | .token _ t => (precedence? t.kind).toList
  | .node _ k _ cs => if k = .binaryExpression then chainIn cs else []

/-- How strongly the operators in elements that follow one another bind. -/
def chainIn : List Element → List Nat
  | [] => []
  | e :: es => chain e ++ chainIn es

end

/-- How the operator `op` of a binary expression binds. -/
structure Binding (n : Node) (op : Leaf) (k : Nat) : Prop where
  /-- The operator is the only token of the node, blanks and comments apart. -/
  operators : operators n = [op]
  strength : precedence? op.kind = some k
  /-- The left operand does not bind less strongly, unless an operand is missing in it. -/
  left : ∀ l ∈ n.nodes.head?, l.kind = .binaryExpression → behindOperator l ≠ [] → ∃ m ∈ operatorStrength? l, k ≤ m
  /-- The right operand binds more strongly. -/
  right : ∀ r ∈ behindOperator n, r.kind = .binaryExpression → ∃ m ∈ operatorStrength? r, k < m

/-- A binary expression whose operator is the last of the weakest ones in its chain. -/
structure Grouping (n l : Node) (op : Leaf) (r : Node) (k : Nat) : Prop where
  /-- Blanks and comments apart, the parts of the node are an operand, an operator and an operand. -/
  parts : n.parts Kind.isTrivia = [l.element, .token op.id op.token, r.element]
  strength : precedence? op.kind = some k
  /-- No operator before it is weaker. -/
  left : ∀ m ∈ chain l.element, k ≤ m
  /-- Every operator behind it is stronger. -/
  right : ∀ m ∈ chain r.element, k < m

/-- The operators of a tree bind by their strength. -/
structure BindsOperators (t : SyntaxTree) : Prop where
  /-- Every binary expression has one operator, and its operands leave to it what it should take. -/
  binary : ∀ n ∈ t.root.descendants, n.kind = .binaryExpression → ∃ op k, Binding n op k
  /-- An operator before an operand binds more strongly than any operator between operands. -/
  unary : ∀ n ∈ t.root.descendants, n.kind = .unaryExpression → ∀ m ∈ n.nodes, m.kind ≠ .binaryExpression
  /-- If nothing is wrong, every chain is grouped by strength, and from the left where the strength is the same. -/
  chains : t.errors = [] → ∀ n ∈ t.root.descendants, n.kind = .binaryExpression → ∃ l op r k, Grouping n l op r k

/-! ## The parts of a binary expression -/

/-- The parts of a binary expression as nodes and tokens of the tree: an operand, an operator and, unless it is missing,
another operand. -/
structure Splits (n l : Node) (op : Leaf) (r? : Option Node) (k : Nat) : Prop where
  parts : n.parts Kind.isTrivia = l.element :: .token op.id op.token :: r?.toList.map Node.element
  strength : precedence? op.kind = some k
  left : ∀ m ∈ wholeStrength? (l.stem Kind.isTrivia), k ≤ m
  right : ∀ r ∈ r?, ∀ m ∈ strength? (r.stem Kind.isTrivia), k < m

/-- The stem of a node, by its parts. -/
lemma stemsIn_children (n : Node) : Element.stemsIn Kind.isTrivia n.children =
    (n.parts Kind.isTrivia).map (Element.stem Kind.isTrivia) := Element.stemsIn_eq_map _

lemma exists_splits_of_binds {n : Node} (h : Binds (Element.stemsIn Kind.isTrivia n.children)) :
    ∃ l op r? k, Splits n l op r? k := by
  generalize hps : Element.stemsIn Kind.isTrivia n.children = ps at h
  rw [stemsIn_children] at hps
  -- The two parts that are always there.
  have hfront : ∀ {k c ps' qs}, (n.parts Kind.isTrivia).map (Element.stem Kind.isTrivia) =
      .branch k ps' :: .leaf c :: qs → ∃ (l : Node) (op : Leaf) (es : List Element),
        n.parts Kind.isTrivia = l.element :: .token op.id op.token :: es ∧ l.stem Kind.isTrivia = .branch k ps' ∧
          op.kind = c ∧ es.map (Element.stem Kind.isTrivia) = qs := by
    intro k c ps' qs hparts
    obtain ⟨x, xs, hparts, hx, hxs⟩ := List.map_eq_cons_iff.1 hparts
    obtain ⟨y, ys, rfl, hy, hys⟩ := List.map_eq_cons_iff.1 hxs
    obtain ⟨l, rfl, hl⟩ := Element.eq_element_of_stem hx
    obtain ⟨op, rfl, hop⟩ := Element.eq_token_of_stem hy
    exact ⟨l, op, ys, hparts, hl, hop, hys⟩
  cases h with
  | whole hk hleft hright =>
    obtain ⟨l, op, es, hparts, hl, rfl, hes⟩ := hfront hps
    obtain ⟨z, zs, rfl, hz, hzs⟩ := List.map_eq_cons_iff.1 hes
    obtain rfl := List.map_eq_nil_iff.1 hzs
    obtain ⟨r, rfl, hr⟩ := Element.eq_element_of_stem hz
    exact ⟨l, op, some r, _, hparts, hk, hl ▸ hleft, fun r' hr' => Option.some.inj hr' ▸ hr ▸ hright⟩
  | cut hk hleft =>
    obtain ⟨l, op, es, hparts, hl, rfl, hes⟩ := hfront hps
    obtain rfl := List.map_eq_nil_iff.1 hes
    exact ⟨l, op, none, _, hparts, hk, hl ▸ hleft, nofun⟩

/-- What holds of all nodes in the stem of a node holds of all nodes in the stems of its parts. -/
lemma all_of_mem_parts {P : Kind → List Stem → Prop} {n : Node} (h : Stem.All P (n.stem Kind.isTrivia)) :
    ∀ e ∈ n.parts Kind.isTrivia, Stem.All P (e.stem Kind.isTrivia) := by
  intro e he
  refine Stem.allIn_iff.1 h.2 _ ?_
  rw [stemsIn_children]
  exact List.mem_map_of_mem he

lemma sizeOf_lt_of_mem_parts {n m : Node} (h : m.element ∈ n.parts Kind.isTrivia) :
    sizeOf m.element < sizeOf n.element := by
  have hchildren : sizeOf n.children < sizeOf n.element := by
    rw [Node.element, Element.node.sizeOf_spec]
    omega
  exact (List.sizeOf_lt_of_mem (List.mem_of_mem_filter h)).trans hchildren

namespace Splits

variable {n l : Node} {op : Leaf} {r? : Option Node} {k : Nat} (h : Splits n l op r? k)

include h

lemma operators_eq : operators n = [op] := by
  have hleaves : operators n = (n.parts Kind.isTrivia).filterMap Element.leaf? := n.tokens_eq_parts Kind.isTrivia
  rw [hleaves, h.parts]
  cases r? <;> rfl

lemma operatorStrength?_eq : operatorStrength? n = some k := by
  rw [operatorStrength?, h.operators_eq]
  exact h.strength

lemma behindOperator_eq : behindOperator n = r?.toList := by
  rw [behindOperator, h.parts]
  cases r? <;> rfl

lemma head?_nodes : n.nodes.head? = some l := by
  rw [n.nodes_eq_parts Kind.isTrivia, h.parts]
  rfl

lemma stem_eq (hn : n.kind = .binaryExpression) : n.stem Kind.isTrivia =
    .branch .binaryExpression (l.stem Kind.isTrivia :: .leaf op.kind :: r?.toList.map (Node.stem Kind.isTrivia)) := by
  have hparts : Element.stemsIn Kind.isTrivia n.children =
      l.stem Kind.isTrivia :: .leaf op.kind :: r?.toList.map (Node.stem Kind.isTrivia) := by
    rw [stemsIn_children, h.parts]
    cases r? <;> rfl
  rw [← hn, ← hparts]
  rfl

lemma strength?_eq (hn : n.kind = .binaryExpression) : strength? (n.stem Kind.isTrivia) = some k := by
  rw [h.stem_eq hn]
  exact h.strength

lemma wholeStrength?_eq (hn : n.kind = .binaryExpression) (hr : r? ≠ none) :
    wholeStrength? (n.stem Kind.isTrivia) = some k := by
  rw [h.stem_eq hn]
  obtain ⟨r, rfl⟩ := Option.ne_none_iff_exists'.1 hr
  exact h.strength

end Splits

/-! ## Binary expressions -/

lemma exists_splits {n : Node} (h : Stem.All Grouped (n.stem Kind.isTrivia)) (hn : n.kind = .binaryExpression) :
    ∃ l op r? k, Splits n l op r? k := by
  have hgrouped : Grouped n.kind (Element.stemsIn Kind.isTrivia n.children) := h.1
  rw [hn] at hgrouped
  exact exists_splits_of_binds hgrouped

/-- The operator of every binary expression takes the operands that it should take. -/
lemma exists_binding {n : Node} (h : Stem.All Grouped (n.stem Kind.isTrivia)) (hn : n.kind = .binaryExpression) :
    ∃ op k, Binding n op k := by
  obtain ⟨l, op, r?, k, hsplits⟩ := exists_splits h hn
  have hparts := all_of_mem_parts h
  rw [hsplits.parts] at hparts
  refine ⟨op, k, hsplits.operators_eq, hsplits.strength, fun l' hl' hbinary hbehind => ?_, fun r hr hbinary => ?_⟩
  · rw [hsplits.head?_nodes] at hl'
    obtain rfl := Option.some.inj hl'
    obtain ⟨_, _, r?', m, hinner⟩ := exists_splits (hparts _ List.mem_cons_self) hbinary
    have hr : r?' ≠ none := by
      rintro rfl
      exact hbehind hinner.behindOperator_eq
    exact ⟨m, hinner.operatorStrength?_eq, hsplits.left m (hinner.wholeStrength?_eq hbinary hr)⟩
  · rw [hsplits.behindOperator_eq, Option.mem_toList] at hr
    have hmem : r.element ∈ r?.toList.map Node.element := List.mem_map_of_mem (Option.mem_toList.2 hr)
    obtain ⟨_, _, _, m, hinner⟩ :=
      exists_splits (hparts _ (List.mem_cons_of_mem _ (List.mem_cons_of_mem _ hmem))) hbinary
    exact ⟨m, hinner.operatorStrength?_eq, hsplits.right r hr m (hinner.strength?_eq hbinary)⟩

/-! ## Chains -/

lemma chainIn_eq_flatMap (es : List Element) :
    chainIn es = (es.filter (Element.isSignificant Kind.isTrivia)).flatMap chain := by
  induction es with
  | nil => rfl
  | cons e es ih =>
    rw [chainIn, ih]
    cases e with
    | token i t =>
      -- Blanks and comments are no operators.
      have htrivia : ∀ k : Kind, k.isTrivia = true → precedence? k = none := by
        intro k
        cases k <;> decide
      cases hk : t.kind.isTrivia <;> simp [Element.isSignificant, chain, hk, htrivia]
    | node i k s cs => rfl

lemma chain_of_ne {n : Node} (hn : n.kind ≠ .binaryExpression) : chain n.element = [] := by
  rw [Node.element, chain, if_neg hn]

/-- A binary expression in which nothing is wrong has both its operands. -/
lemma exists_whole_splits {n : Node} (h : Stem.All Grouped (n.stem Kind.isTrivia))
    (hclean : Stem.All Clean (n.stem Kind.isTrivia)) (hn : n.kind = .binaryExpression) :
    ∃ l op r k, Splits n l op (some r) k := by
  obtain ⟨l, op, r?, k, hsplits⟩ := exists_splits h hn
  have hlength := hclean.1.whole hn
  rw [stemsIn_children, List.length_map, hsplits.parts] at hlength
  cases r? with
  | none => simp at hlength
  | some r => exact ⟨l, op, r, k, hsplits⟩

/-- The operator of a grouping is among the weakest ones in its chain. -/
lemma Grouping.le_of_mem_chain {n l r : Node} {op : Leaf} {k : Nat} (h : Grouping n l op r k)
    (hn : n.kind = .binaryExpression) : ∀ m ∈ chain n.element, k ≤ m := by
  have hparts : n.children.filter (Element.isSignificant Kind.isTrivia) =
      [l.element, .token op.id op.token, r.element] := h.parts
  have hop : chain (.token op.id op.token) = [k] := by
    rw [chain, show precedence? op.token.kind = some k from h.strength]
    rfl
  have hchain : chain n.element = chain l.element ++ ([k] ++ (chain r.element ++ [])) := by
    rw [Node.element, chain, if_pos hn, chainIn_eq_flatMap, hparts, ← hop]
    rfl
  intro m hm
  rw [hchain, List.append_nil, List.mem_append, List.mem_append, List.mem_singleton] at hm
  rcases hm with hm | rfl | hm
  · exact h.left m hm
  · exact Nat.le_refl m
  · exact (h.right m hm).le

/-- Where nothing is wrong, the operator of a binary expression is the last of the weakest ones in its chain. -/
lemma exists_grouping (n : Node) (h : Stem.All Grouped (n.stem Kind.isTrivia))
    (hclean : Stem.All Clean (n.stem Kind.isTrivia)) (hn : n.kind = .binaryExpression) :
    ∃ l op r k, Splits n l op (some r) k ∧ Grouping n l op r k := by
  obtain ⟨l, op, r, k, hsplits⟩ := exists_whole_splits h hclean hn
  have hl : l.element ∈ n.parts Kind.isTrivia := by simp [hsplits.parts]
  have hr : r.element ∈ n.parts Kind.isTrivia := by simp [hsplits.parts]
  refine ⟨l, op, r, k, hsplits, hsplits.parts, hsplits.strength, fun m hm => ?_, fun m hm => ?_⟩
  · by_cases hbinary : l.kind = .binaryExpression
    · obtain ⟨_, _, _, i, hinner, hgrouping⟩ :=
        exists_grouping l (all_of_mem_parts h _ hl) (all_of_mem_parts hclean _ hl) hbinary
      have hki : k ≤ i := hsplits.left i (hinner.wholeStrength?_eq hbinary nofun)
      exact hki.trans (hgrouping.le_of_mem_chain hbinary m hm)
    · rw [chain_of_ne hbinary] at hm
      exact absurd hm List.not_mem_nil
  · by_cases hbinary : r.kind = .binaryExpression
    · obtain ⟨_, _, _, i, hinner, hgrouping⟩ :=
        exists_grouping r (all_of_mem_parts h _ hr) (all_of_mem_parts hclean _ hr) hbinary
      have hki : k < i := hsplits.right r rfl i (hinner.strength?_eq hbinary)
      exact hki.trans_le (hgrouping.le_of_mem_chain hbinary m hm)
    · rw [chain_of_ne hbinary] at hm
      exact absurd hm List.not_mem_nil
termination_by sizeOf n.element
decreasing_by
  · exact sizeOf_lt_of_mem_parts hl
  · exact sizeOf_lt_of_mem_parts hr

/-! ## Operators before an operand -/

/-- No part of an expression with an operator before it is a binary expression. -/
lemma kind_ne_of_mem_nodes {n : Node} (h : Stem.All Grouped (n.stem Kind.isTrivia)) (hn : n.kind = .unaryExpression) :
    ∀ m ∈ n.nodes, m.kind ≠ .binaryExpression := by
  have hgrouped : Grouped n.kind (Element.stemsIn Kind.isTrivia n.children) := h.1
  rw [hn] at hgrouped
  intro m hm hbinary
  rw [n.nodes_eq_parts Kind.isTrivia, List.mem_filterMap] at hm
  obtain ⟨e, he, hem⟩ := hm
  have hstem : e.stem Kind.isTrivia = .branch .binaryExpression (Element.stemsIn Kind.isTrivia m.children) := by
    cases e with
    | token i t => exact absurd hem (Option.some_ne_none m).symm
    | node i k s cs =>
      obtain rfl := Option.some.inj hem
      rw [← hbinary]
      rfl
  refine hgrouped (Element.stemsIn Kind.isTrivia m.children) ?_
  rw [← hstem, stemsIn_children]
  exact List.mem_map_of_mem he

/-- **Operators bind by their strength** in the tree of every source file. -/
theorem operators_bind (text : Text) : BindsOperators (parse text) where
  binary n hn := exists_binding (grouped_parse text n hn)
  unary n hn := kind_ne_of_mem_nodes (grouped_parse text n hn)
  chains herrors n hn hbinary := by
    obtain ⟨l, op, r, k, -, hgrouping⟩ :=
      exists_grouping n (grouped_parse text n hn) (clean_parse herrors n hn) hbinary
    exact ⟨l, op, r, k, hgrouping⟩

/-- The whole chain, its left operand and the right operand of that. -/
example : (((parse "package p\nvar x = a + b * c - d\n".toList).root.descendants.filter
    (·.kind == .binaryExpression)).map fun n => chain n.element) = [[4, 5, 4], [4, 5], [5]] := by
  decide +kernel

end GoFront.Source
