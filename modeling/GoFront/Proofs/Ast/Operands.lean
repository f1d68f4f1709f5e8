import GoFront.Proofs.Ast.Parts

/-!
# The operands that typed nodes find

Where an operand is expected, a type can stand as well as an expression: the first argument of `make([]int, n)` is one.
Typed nodes look for expressions only. So in a file without errors they find every operand in its place, unless it is a
type (`operands_found`), and a call with a type among its arguments seems to have fewer of them.
-/

namespace GoFront

open Source

namespace Expression

/-- The node of what a node is as an expression. -/
lemma map_node_ofNode? (n : Node) : (ofNode? n).map node = if isExpression n.kind then some n else none := by
  obtain ⟨i, k, s, cs⟩ := n
  cases k <;> rfl

end Expression

/-- An operand is found, unless it is a type. -/
def Finds (found : Option Expression) (operand : Node) : Prop :=
  found.map Expression.node = if isOperandType operand.kind then none else some operand

/-- What stands behind a `return`, the parts of a list one by one. -/
def ReturnStatement.returned (s : ReturnStatement) : List Node :=
  s.node.nodes.flatMap fun v => if v.kind == .expressionList then v.nodes else [v]

/-- Below a node the typed nodes find their operators and all operands that are no types. -/
structure OperandsFound (root : Node) : Prop where
  /-- A call has what is called in front of its arguments. -/
  call : ∀ e : CallExpression, e.node ∈ root.descendants → ∃ (callee : Node) (l : ArgumentList),
    e.node.nodes = [callee, l.node] ∧ Finds e.callee? callee ∧ e.arguments? = some l
  /-- The arguments are the parts between the parentheses. -/
  arguments : ∀ l : ArgumentList, l.node ∈ root.descendants →
    l.arguments.map Expression.node = l.node.nodes.filter fun n => !isOperandType n.kind
  /-- A binary operator stands between its operands. -/
  binary : ∀ e : BinaryExpression, e.node ∈ root.descendants → ∃ left operator right,
    e.node.nodes = [left, right] ∧ left.span.stop ≤ operator.span.start ∧ operator.span.stop ≤ right.span.start ∧
      Finds e.left? left ∧ e.operator? = some operator ∧ Finds e.right? right
  /-- A unary operator stands in front of its operand. -/
  unary : ∀ e : UnaryExpression, e.node ∈ root.descendants → ∃ operator operand,
    e.node.nodes = [operand] ∧ operator.span.stop ≤ operand.span.start ∧
      e.operator? = some operator ∧ Finds e.operand? operand
  /-- The values of a `return` are what stands behind it. -/
  values : ∀ s : ReturnStatement, s.node ∈ root.descendants →
    s.values.map Expression.node = s.returned.filter fun n => !isOperandType n.kind

/-! ## One operand and several -/

/-- An operand that is no expression is a type. -/
lemma isExpression_of_isOperand {k : Kind} (h : isOperand k = true) : isExpression k = !isOperandType k := by
  revert h
  cases k <;> decide

lemma finds_ofNode? {n : Node} (h : isOperand n.kind = true) : Finds (Expression.ofNode? n) n := by
  rw [Finds, Expression.map_node_ofNode?, isExpression_of_isOperand h]
  cases isOperandType n.kind <;> rfl

lemma map_node_filterMap {ns : List Node} (h : ∀ n ∈ ns, isOperand n.kind = true) :
    (ns.filterMap Expression.ofNode?).map Expression.node = ns.filter fun n => !isOperandType n.kind := by
  rw [List.map_filterMap, ← List.filterMap_eq_filter]
  refine List.filterMap_congr fun n hn => ?_
  rw [Expression.map_node_ofNode?, isExpression_of_isOperand (h n hn)]
  rfl

namespace Node

variable {n : Node}

/-- The parts of a list are operands, however many they are. -/
lemma Laid.isOperand_of_mem (h : n.Laid) (hk : n.kind = .argumentList ∨ n.kind = .expressionList) :
    ∀ m ∈ n.nodes, isOperand m.kind = true := by
  have harranged : ∀ k qs, .branch k qs ∈ (n.parts Kind.isTrivia).map (Element.stem Kind.isTrivia) →
      isOperand k = true := by
    have h := h.arranged
    rcases hk with hk | hk <;> rwa [hk] at h
  intro m hm
  rw [n.nodes_eq_parts Kind.isTrivia] at hm
  exact harranged m.kind _ (List.mem_map_of_mem (Element.mem_filterMap_node?.1 hm))

lemma Laid.call (h : n.Laid) (hk : n.kind = .callExpression) : ∃ f as : Node,
    n.nodes = [f, as] ∧ isOperand f.kind = true ∧ as.kind = .argumentList := by
  have harranged := h.arranged
  rw [hk] at harranged
  obtain ⟨_, _, hparts, hf, has⟩ := harranged
  simp only [List.map_eq_cons_iff, List.map_eq_nil_iff] at hparts
  obtain ⟨f, _, hn, rfl, as, _, rfl, rfl, rfl⟩ := hparts
  obtain ⟨f, rfl, hf, -⟩ := h.exists_node (by simp [hn]) hf
  obtain ⟨as, rfl, has, -⟩ := h.exists_node (by simp [hn]) has
  exact ⟨f, as, by rw [n.nodes_eq_parts Kind.isTrivia, hn]; rfl, hf, beq_iff_eq.1 has⟩

lemma Laid.binary (h : n.Laid) (hk : n.kind = .binaryExpression) : ∃ (left : Node) (operator : Leaf) (right : Node),
    n.nodes = [left, right] ∧ n.firstSignificant? = some operator ∧ left.span.start < left.span.stop ∧
      left.span.stop ≤ operator.span.start ∧ operator.span.stop ≤ right.span.start ∧
      isOperand left.kind = true ∧ isOperand right.kind = true := by
  have harranged := h.arranged
  rw [hk] at harranged
  obtain ⟨_, c, _, hparts, hleft, hright⟩ := harranged
  simp only [List.map_eq_cons_iff, List.map_eq_nil_iff] at hparts
  obtain ⟨left, _, hn, rfl, operator, _, rfl, hoperator, right, _, rfl, rfl, rfl⟩ := hparts
  obtain ⟨left, rfl, hleft, hsolid⟩ := h.exists_node (by simp [hn]) hleft
  obtain ⟨right, rfl, hright, -⟩ := h.exists_node (by simp [hn]) hright
  obtain ⟨operator, rfl, -⟩ := Element.eq_token_of_stem hoperator
  have hordered := h.ordered
  rw [hn] at hordered
  obtain ⟨hfirst, hordered⟩ := List.pairwise_cons.1 hordered
  obtain ⟨hsecond, -⟩ := List.pairwise_cons.1 hordered
  exact ⟨left, operator, right, by rw [n.nodes_eq_parts Kind.isTrivia, hn]; rfl,
    by rw [firstSignificant?_eq, hn]; rfl, hsolid, hfirst _ List.mem_cons_self, hsecond _ List.mem_cons_self, hleft,
    hright⟩

lemma Laid.unary (h : n.Laid) (hk : n.kind = .unaryExpression) : ∃ (operator : Leaf) (operand : Node),
    n.nodes = [operand] ∧ n.firstSignificant? = some operator ∧ operator.span.stop ≤ operand.span.start ∧
      isOperand operand.kind = true := by
  have harranged := h.arranged
  rw [hk] at harranged
  obtain ⟨c, _, hparts, hoperand⟩ := harranged
  simp only [List.map_eq_cons_iff, List.map_eq_nil_iff] at hparts
  obtain ⟨operator, _, hn, hoperator, operand, _, rfl, rfl, rfl⟩ := hparts
  obtain ⟨operand, rfl, hoperand, -⟩ := h.exists_node (by simp [hn]) hoperand
  obtain ⟨operator, rfl, -⟩ := Element.eq_token_of_stem hoperator
  have hordered := h.ordered
  rw [hn] at hordered
  exact ⟨operator, operand, by rw [n.nodes_eq_parts Kind.isTrivia, hn]; rfl, by rw [firstSignificant?_eq, hn]; rfl,
    (List.pairwise_cons.1 hordered).1 _ List.mem_cons_self, hoperand⟩

lemma Laid.returnStatement (h : n.Laid) (hk : n.kind = .returnStatement) :
    n.nodes = [] ∨ ∃ v : Node, n.nodes = [v] ∧ isValue v.kind = true := by
  have harranged := h.arranged
  rw [hk] at harranged
  obtain ⟨c, hparts | ⟨_, hparts, hv⟩⟩ := harranged <;>
    simp only [List.map_eq_cons_iff, List.map_eq_nil_iff] at hparts
  · obtain ⟨keyword, _, hn, hkeyword, rfl⟩ := hparts
    obtain ⟨keyword, rfl, -⟩ := Element.eq_token_of_stem hkeyword
    exact .inl (by rw [n.nodes_eq_parts Kind.isTrivia, hn]; rfl)
  · obtain ⟨keyword, _, hn, hkeyword, v, _, rfl, rfl, rfl⟩ := hparts
    obtain ⟨v, rfl, hv, -⟩ := h.exists_node (by simp [hn]) hv
    obtain ⟨keyword, rfl, -⟩ := Element.eq_token_of_stem hkeyword
    exact .inr ⟨v, by rw [n.nodes_eq_parts Kind.isTrivia, hn]; rfl, hv⟩

end Node

/-! ## Files -/

/-- **In a file without errors only types are lost**: the typed nodes find every operator, the arguments of every call,
and every operand, argument and returned value in its place that is an expression. -/
theorem operands_found {text : Text} (h : (parse text).errors = []) : OperandsFound (parse text).root where
  call e he := by
    obtain ⟨f, as, hnodes, hf, has⟩ := (laid_parse h _ he).call e.kind_eq
    refine ⟨f, ⟨as, has⟩, hnodes, ?_, ?_⟩
    · rw [CallExpression.callee?, hnodes]
      exact finds_ofNode? hf
    · have hne : f.kind ≠ .argumentList := fun heq => absurd hf (by rw [heq]; decide)
      rw [CallExpression.arguments?, Node.child?, hnodes, List.findSome?_cons, Node.as?_of_kind_ne hne,
        List.findSome?_singleton, Node.as?_of_kind_eq has]
  arguments l hl := map_node_filterMap ((laid_parse h _ hl).isOperand_of_mem (.inl l.kind_eq))
  binary e he := by
    obtain ⟨left, operator, right, hnodes, hoperator, hsolid, hleft, hright, hl, hr⟩ :=
      (laid_parse h _ he).binary e.kind_eq
    have hno : ¬ operator.span.stop ≤ left.span.start := by
      have hle : operator.span.start ≤ operator.span.stop := operator.span.start_le_stop
      omega
    refine ⟨left, operator, right, hnodes, hleft, hright, ?_, hoperator, ?_⟩
    · rw [BinaryExpression.left?, hnodes]
      exact finds_ofNode? hl
    · have hfind : e.node.nodes.find? (operator.span.stop ≤ ·.span.start) = some right := by
        rw [hnodes, List.find?_cons_of_neg (by rwa [decide_eq_true_iff]),
          List.find?_cons_of_pos (by rwa [decide_eq_true_iff])]
      have hright : e.right? = Expression.ofNode? right := by
        rw [BinaryExpression.right?, BinaryExpression.operator?, hoperator]
        exact congrArg (Option.bind · Expression.ofNode?) hfind
      rw [hright]
      exact finds_ofNode? hr
  unary e he := by
    obtain ⟨operator, operand, hnodes, hoperator, hbefore, hkind⟩ := (laid_parse h _ he).unary e.kind_eq
    refine ⟨operator, operand, hnodes, hbefore, hoperator, ?_⟩
    rw [UnaryExpression.operand?, Node.expression?, hnodes, List.findSome?_singleton]
    exact finds_ofNode? hkind
  values s hs := by
    rw [ReturnStatement.values, ReturnStatement.returned, Node.nodeOf?]
    rcases (laid_parse h _ hs).returnStatement s.kind_eq with hnodes | ⟨v, hnodes, hv⟩
    · simp [hnodes, Node.expressions]
    · by_cases hlist : v.kind = .expressionList
      · have hmem : v ∈ (parse text).root.descendants :=
          Node.mem_descendants_of_mem_nodes hs (hnodes ▸ List.mem_singleton_self v)
        have hoperands := (laid_parse h v hmem).isOperand_of_mem (.inr hlist)
        simpa [hnodes, hlist, Node.expressions] using map_node_filterMap hoperands
      · have hoperand : isOperand v.kind = true := by
          rw [isValue, Bool.or_eq_true, beq_iff_eq] at hv
          exact hv.resolve_right hlist
        have hone : ([v].filterMap Expression.ofNode?).map Expression.node =
            [v].filter fun n => !isOperandType n.kind := map_node_filterMap (by simpa using hoperand)
        simpa [hnodes, hlist, Node.expressions] using hone

theorem operands_found_make : (parse "package p\nvar x = make([]int, -n+1)\n".toList).errors = [] ∧
    OperandsFound (parse "package p\nvar x = make([]int, -n+1)\n".toList).root := by
  have herrors : (parse "package p\nvar x = make([]int, -n+1)\n".toList).errors = [] := by decide +kernel
  exact ⟨herrors, operands_found herrors⟩

/-- A list of two arguments, the first of which is a type, seems to hold one argument. -/
theorem type_argument_lost : (parse "package p\nvar x = make([]int, n)\n".toList).errors = [] ∧
    ∃ l : ArgumentList, l.node ∈ (parse "package p\nvar x = make([]int, n)\n".toList).root.descendants ∧
      l.node.nodes.map Node.kind = [.sliceType, .nameRef] ∧
      l.arguments.map (Node.kind ∘ Expression.node) = [.nameRef] := by
  have hfound : ((parse "package p\nvar x = make([]int, n)\n".toList).root.descendants.findSome?
      (·.as? .argumentList)).map (fun l : ArgumentList => l.node.nodes.map Node.kind == [.sliceType, .nameRef] &&
        l.arguments.map (Node.kind ∘ Expression.node) == [.nameRef]) = some true := by decide +kernel
  obtain ⟨l, hl, hlost⟩ := Node.exists_typed hfound
  exact ⟨by decide +kernel, l, hl, by simpa using hlost⟩

end GoFront
