import GoFront.Proofs.Ast.Operands

/-!
# The parts of `if` statements

In a file without errors every `if` has a block, and an `else` is followed by another `if` or a block. Between the
keyword and the block there is a simple statement, or a semicolon with simple statements beside it. That the condition
is missing is reported only if nothing at all stands there, so the last part of the header need not be an expression:
`ifs_complete` says that the condition is found exactly if it is one.
-/

namespace GoFront

open Source

/-- What stands between the `if` and the block, without blanks and comments. -/
def IfStatement.header (s : IfStatement) : List Element :=
  ((s.node.parts Kind.isTrivia).takeWhile (·.kind != .block)).tail

/-- The parts of an `if` statement are found where they stand. -/
structure IfStatement.Complete (s : IfStatement) : Prop where
  /-- There is a block, and it starts in front of the `else`. -/
  thenBranch : ∃ b, s.thenBranch? = some b ∧
    ∀ l ∈ s.node.tokens, l.kind = .elseKeyword → b.node.span.start < l.span.start
  /-- There is an `else` branch exactly if there is an `else`. -/
  elseBranch : s.elseBranch?.isSome = true ↔ ∃ l ∈ s.node.tokens, l.kind = .elseKeyword
  /-- The `else` branch starts behind the `else`. -/
  elseBehind : ∀ b ∈ s.elseBranch?, ∀ l ∈ s.node.tokens, l.kind = .elseKeyword → l.span.stop ≤ b.node.span.start
  /-- The condition is the last part of the header, if that is an expression. -/
  condition : s.condition? = (s.header.getLast?.bind Element.node?).bind Expression.ofNode?
  /-- The condition ends in front of the block. -/
  conditionBefore : ∀ c ∈ s.condition?, ∀ b ∈ s.thenBranch?, c.node.span.stop ≤ b.node.span.start
  /-- The first statement of the header ends in front of the semicolon and is not the condition. -/
  init : ∀ m ∈ s.init?, m ∈ s.node.nodes ∧ (∃ l ∈ s.semicolon?, m.span.stop ≤ l.span.start) ∧
    ∀ c ∈ s.condition?, c.node ≠ m

namespace Element

variable {es : List Element}

lemma mem_filterMap_leaf? {l : Leaf} : l ∈ es.filterMap leaf? ↔ l.element ∈ es := by
  refine ⟨fun hl => ?_, fun hl => List.mem_filterMap.2 ⟨_, hl, rfl⟩⟩
  obtain ⟨e, he, hleaf⟩ := List.mem_filterMap.1 hl
  cases e with
  | token i t => exact Option.some.inj hleaf ▸ he
  | node i k s cs => exact nomatch hleaf

lemma filterMap_node?_map_element (ns : List Node) : (ns.map Node.element).filterMap node? = ns := by
  rw [List.filterMap_map]
  exact List.filterMap_some

lemma filterMap_leaf?_map_element (ns : List Node) : (ns.map Node.element).filterMap leaf? = [] := by
  rw [List.filterMap_map]
  exact List.filterMap_eq_nil_iff.2 fun _ _ => rfl

end Element

namespace Node

/-- A simple statement that is not empty. -/
def IsSimple (m : Node) : Prop := isSimple false m.kind = true ∧ m.span.start < m.span.stop

/-- What can stand between the `if` and the block. -/
inductive HeaderForm : List Element → Prop
  | plain {m : Node} (hm : m.IsSimple) : HeaderForm [m.element]
  | split {init condition : Option Node} {l : Leaf} (hinit : ∀ m ∈ init, m.IsSimple) (hl : l.kind = .semicolon)
    (hcondition : ∀ m ∈ condition, m.IsSimple) :
    HeaderForm (init.toList.map element ++ l.element :: condition.toList.map element)

/-- What can stand behind the block. -/
inductive RestForm : List Element → Prop
  | nothing : RestForm []
  | other {l : Leaf} {m : Node} (hl : l.kind = .elseKeyword) (hm : m.kind = .ifStatement ∨ m.kind = .block) :
    RestForm [l.element, m.element]

/-- The parts of an `if` statement, one by one. -/
structure IfForm (n : Node) (keyword : Leaf) (header : List Element) (body : Node) (rest : List Element) : Prop where
  parts : n.parts Kind.isTrivia = keyword.element :: (header ++ body.element :: rest)
  keyword : keyword.kind = .ifKeyword
  header : HeaderForm header
  block : body.kind = .block
  solid : body.span.start < body.span.stop
  rest : RestForm rest

lemma IsSimple.kind_ne {m : Node} (h : m.IsSimple) : m.kind ≠ .block ∧ m.kind ≠ .ifStatement :=
  ⟨fun heq => absurd h.1 (by rw [heq]; decide), fun heq => absurd h.1 (by rw [heq]; decide)⟩

/-- Between the `if` and the block there are simple statements and semicolons. -/
lemma HeaderForm.forall_mem {es : List Element} (h : HeaderForm es) : ∀ e ∈ es,
    (∃ m : Node, e = m.element ∧ m.IsSimple) ∨ ∃ l : Leaf, e = l.element ∧ l.kind = .semicolon := by
  have hoption : ∀ {o : Option Node}, (∀ m ∈ o, m.IsSimple) → ∀ e ∈ o.toList.map element,
      ∃ m : Node, e = m.element ∧ m.IsSimple := by
    intro o ho e he
    obtain ⟨m, hm, rfl⟩ := List.mem_map.1 he
    exact ⟨m, rfl, ho m (Option.mem_toList.1 hm)⟩
  cases h with
  | plain hm => exact List.forall_mem_singleton.2 (.inl ⟨_, rfl, hm⟩)
  | split hinit hl hcondition =>
    refine List.forall_mem_append.2 ⟨fun e he => .inl (hoption hinit e he), List.forall_mem_cons.2 ⟨?_, fun e he => ?_⟩⟩
    · exact .inr ⟨_, rfl, hl⟩
    · exact .inl (hoption hcondition e he)

lemma HeaderForm.isSimple_of_mem {es : List Element} (h : HeaderForm es) {m : Node}
    (hm : m ∈ es.filterMap Element.node?) : m.IsSimple := by
  rcases h.forall_mem _ (Element.mem_filterMap_node?.1 hm) with ⟨m', heq, hm'⟩ | ⟨l, heq, -⟩
  · obtain rfl : m = m' := Option.some.inj (congrArg Element.node? heq)
    exact hm'
  · exact nomatch heq

lemma HeaderForm.kind_of_mem {es : List Element} (h : HeaderForm es) {l : Leaf}
    (hl : l ∈ es.filterMap Element.leaf?) : l.kind = .semicolon := by
  rcases h.forall_mem _ (Element.mem_filterMap_leaf?.1 hl) with ⟨m, heq, -⟩ | ⟨l', heq, hl'⟩
  · exact nomatch heq
  · obtain rfl : l = l' := Option.some.inj (congrArg Element.leaf? heq)
    exact hl'

lemma HeaderForm.kind_ne_block {es : List Element} (h : HeaderForm es) : ∀ e ∈ es, (e.kind != .block) = true := by
  intro e he
  rcases h.forall_mem e he with ⟨m, rfl, hm⟩ | ⟨l, rfl, hl⟩
  · exact bne_iff_ne.2 hm.kind_ne.1
  · exact bne_iff_ne.2 fun heq : l.kind = .block => absurd (hl.symm.trans heq) (by decide)

lemma RestForm.kind_of_mem {es : List Element} (h : RestForm es) {l : Leaf} (hl : l ∈ es.filterMap Element.leaf?) :
    l.kind = .elseKeyword := by
  cases h with
  | nothing => exact absurd hl List.not_mem_nil
  | other hkind =>
    obtain rfl := List.mem_singleton.1 hl
    exact hkind

variable {n : Node}

lemma Laid.headerForm (h : n.Laid) {es : List Element} (hsub : ∀ e ∈ es, e ∈ n.parts Kind.isTrivia)
    (hes : IfHeader (es.map (Element.stem Kind.isTrivia))) : HeaderForm es := by
  generalize hps : es.map (Element.stem Kind.isTrivia) = ps at hes
  -- A simple statement that may be missing.
  have hoption : ∀ {fs : List Element} {o : Option Stem}, (∀ e ∈ fs, e ∈ es) →
      fs.map (Element.stem Kind.isTrivia) = o.toList → (∀ s ∈ o, s.Fills (isSimple false)) →
      ∃ m : Option Node, fs = m.toList.map element ∧ ∀ m' ∈ m, m'.IsSimple := by
    intro fs o hfs hmap ho
    cases o with
    | none => exact ⟨none, List.map_eq_nil_iff.1 hmap, by simp⟩
    | some s =>
      obtain ⟨e, rfl, rfl⟩ := List.map_eq_singleton_iff.1 hmap
      obtain ⟨m, rfl, hm⟩ := h.exists_node (hsub e (hfs e List.mem_cons_self)) (ho _ rfl)
      refine ⟨some m, rfl, fun m' hm' => ?_⟩
      obtain rfl := Option.some.inj hm'
      exact hm
  cases hes with
  | plain hs =>
    obtain ⟨e, rfl, rfl⟩ := List.map_eq_singleton_iff.1 hps
    obtain ⟨m, rfl, hm⟩ := h.exists_node (hsub e List.mem_cons_self) hs
    exact .plain hm
  | split hinit hcondition =>
    obtain ⟨fs, gs, rfl, hfs, hgs⟩ := List.map_eq_append_iff.1 hps
    obtain ⟨e, gs', rfl, he, hgs'⟩ := List.map_eq_cons_iff.1 hgs
    obtain ⟨l, rfl, hl⟩ := Element.eq_token_of_stem he
    obtain ⟨init, rfl, hinit⟩ := hoption (fun e he => List.mem_append_left _ he) hfs hinit
    obtain ⟨condition, rfl, hcondition⟩ :=
      hoption (fun e he => List.mem_append_right _ (List.mem_cons_of_mem _ he)) hgs' hcondition
    exact .split hinit hl hcondition

lemma Laid.restForm (h : n.Laid) {es : List Element} (hsub : ∀ e ∈ es, e ∈ n.parts Kind.isTrivia)
    (hes : IfRest (es.map (Element.stem Kind.isTrivia))) : RestForm es := by
  generalize hps : es.map (Element.stem Kind.isTrivia) = ps at hes
  cases hes with
  | none =>
    obtain rfl := List.map_eq_nil_iff.1 hps
    exact .nothing
  | other hs =>
    simp only [List.map_eq_cons_iff, List.map_eq_nil_iff] at hps
    obtain ⟨e, _, rfl, he, e', _, rfl, rfl, rfl⟩ := hps
    obtain ⟨l, rfl, hl⟩ := Element.eq_token_of_stem he
    obtain ⟨m, rfl, hm, -⟩ := h.exists_node (hsub e' (by simp)) hs
    exact .other hl (by simpa using hm)

lemma Laid.ifForm (h : n.Laid) (hk : n.kind = .ifStatement) :
    ∃ keyword header body rest, n.IfForm keyword header body rest := by
  have harranged := h.arranged
  rw [hk] at harranged
  obtain ⟨_, _, _, hparts, hheader, hbody, hrest⟩ := harranged
  obtain ⟨e, es, hn, he, hes⟩ := List.map_eq_cons_iff.1 hparts
  obtain ⟨header, fs, rfl, rfl, hfs⟩ := List.map_eq_append_iff.1 hes
  obtain ⟨b, rest, rfl, rfl, rfl⟩ := List.map_eq_cons_iff.1 hfs
  obtain ⟨keyword, rfl, hkeyword⟩ := Element.eq_token_of_stem he
  obtain ⟨body, rfl, hbody, hsolid⟩ := h.exists_node (by simp [hn]) hbody
  exact ⟨keyword, header, body, rest, hn, hkeyword, h.headerForm (fun e he => by simp [hn, he]) hheader,
    beq_iff_eq.1 hbody, hsolid, h.restForm (fun e he => by simp [hn, he]) hrest⟩

namespace IfForm

variable {keyword : Leaf} {header rest : List Element} {body : Node} (h : n.IfForm keyword header body rest)

include h

lemma nodes_eq : n.nodes = header.filterMap Element.node? ++ body :: rest.filterMap Element.node? := by
  rw [n.nodes_eq_parts Kind.isTrivia, h.parts, List.filterMap_cons, List.filterMap_append, List.filterMap_cons]
  rfl

lemma words_eq : (n.parts Kind.isTrivia).filterMap Element.leaf? =
    keyword :: (header.filterMap Element.leaf? ++ rest.filterMap Element.leaf?) := by
  rw [h.parts, List.filterMap_cons, List.filterMap_append, List.filterMap_cons]
  rfl

/-- The `else` stands behind the block. -/
lemma mem_rest_iff {l : Leaf} : l ∈ rest.filterMap Element.leaf? ↔ l ∈ n.tokens ∧ l.kind = .elseKeyword := by
  have hwords : l.kind = .elseKeyword →
      (l ∈ n.tokens ↔ l ∈ keyword :: (header.filterMap Element.leaf? ++ rest.filterMap Element.leaf?)) := by
    intro hl
    rw [← h.words_eq, ← n.tokens_eq_parts, List.mem_filter, hl]
    exact (and_iff_left rfl).symm
  constructor
  · intro hl
    have hkind := h.rest.kind_of_mem hl
    exact ⟨(hwords hkind).2 (by simp [hl]), hkind⟩
  · rintro ⟨hl, hkind⟩
    rcases List.mem_cons.1 ((hwords hkind).1 hl) with rfl | hl
    · exact absurd (h.keyword.symm.trans hkind) (by decide)
    · refine (List.mem_append.1 hl).resolve_left fun hl => ?_
      exact absurd ((h.header.kind_of_mem hl).symm.trans hkind) (by decide)

lemma takeWhile_nodes : n.nodes.takeWhile (·.kind != .block) = header.filterMap Element.node? := by
  have hheader : ∀ m ∈ header.filterMap Element.node?, (m.kind != .block) = true := fun m hm =>
    bne_iff_ne.2 (h.header.isSimple_of_mem hm).kind_ne.1
  rw [h.nodes_eq, List.takeWhile_append_of_pos hheader, List.takeWhile_cons_of_neg (by simp [h.block]),
    List.append_nil]

/-- The semicolon of the header is the first there is. -/
lemma tokenOf?_semicolon : n.tokenOf? .semicolon = (header.filterMap Element.leaf?).head? := by
  have hrest : (rest.filterMap Element.leaf?).find? (·.kind == .semicolon) = none := by
    refine List.find?_eq_none.2 fun l hl => ?_
    rw [h.rest.kind_of_mem hl]
    decide
  have hheader : ∀ l ∈ header.filterMap Element.leaf?, (l.kind == .semicolon) = true := fun l hl =>
    beq_iff_eq.2 (h.header.kind_of_mem hl)
  rw [tokenOf?_eq rfl, h.words_eq, List.find?_cons_of_neg (by rw [h.keyword]; decide), List.find?_append, hrest,
    Option.or_none, ← List.head?_filter, List.filter_eq_self.2 hheader]

/-- So is the `else`. -/
lemma tokenOf?_else : n.tokenOf? .elseKeyword = (rest.filterMap Element.leaf?).head? := by
  have hheader : (header.filterMap Element.leaf?).find? (·.kind == .elseKeyword) = none := by
    refine List.find?_eq_none.2 fun l hl => ?_
    rw [h.header.kind_of_mem hl]
    decide
  have hrest : ∀ l ∈ rest.filterMap Element.leaf?, (l.kind == .elseKeyword) = true := fun l hl =>
    beq_iff_eq.2 (h.rest.kind_of_mem hl)
  rw [tokenOf?_eq rfl, h.words_eq, List.find?_cons_of_neg (by rw [h.keyword]; decide), List.find?_append, hheader,
    Option.none_or, ← List.head?_filter, List.filter_eq_self.2 hrest]

/-- The parts stand in the order of the text. -/
lemma before (hn : n.Laid) : (∀ e ∈ header, e.span.stop ≤ body.span.start) ∧
    (∀ e ∈ rest, body.span.stop ≤ e.span.start) ∧ header.Pairwise (fun e e' => e.span.stop ≤ e'.span.start) ∧
    rest.Pairwise fun e e' => e.span.stop ≤ e'.span.start := by
  have hordered := hn.ordered
  rw [h.parts] at hordered
  obtain ⟨hheader, hbehind, hacross⟩ := List.pairwise_append.1 (List.pairwise_cons.1 hordered).2
  obtain ⟨hbody, hrest⟩ := List.pairwise_cons.1 hbehind
  exact ⟨fun e he => hacross e he _ List.mem_cons_self, hbody, hheader, hrest⟩

end IfForm

end Node

/-! ## What is found -/

lemma Expression.node_eq_of_ofNode? {n : Node} {e : Expression} (h : ofNode? n = some e) : e.node = n := by
  have hnode := map_node_ofNode? n
  rw [h] at hnode
  split at hnode
  · exact Option.some.inj hnode
  · exact nomatch hnode

/-- The node of what a node is as a statement. -/
lemma Statement.map_node_ofNode? (n : Node) :
    (ofNode? n).map node = if n.kind.isStatement || n.kind == .block || n.kind == .error then some n else none := by
  obtain ⟨i, k, s, cs⟩ := n
  cases k <;> rfl

lemma Statement.node_eq_of_ofNode? {n : Node} {b : Statement} (h : ofNode? n = some b) : b.node = n := by
  have hnode := map_node_ofNode? n
  rw [h] at hnode
  split at hnode
  · exact Option.some.inj hnode
  · exact nomatch hnode

namespace IfStatement

variable {s : IfStatement} {keyword : Leaf} {header rest : List Element} {body : Node}
  (h : s.node.IfForm keyword header body rest)

/-- The condition stands in front of the first block and behind the semicolon. -/
lemma condition?_spec : ∀ c ∈ s.condition?, c.node ∈ s.node.nodes.takeWhile (·.kind != .block) ∧
    ∀ l ∈ s.semicolon?, l.span.stop ≤ c.node.span.start := by
  intro c hc
  obtain ⟨n, hn, hnode⟩ := List.exists_of_findSome?_eq_some hc
  obtain ⟨hmem, hbehind⟩ := List.mem_filter.1 hn
  obtain rfl := Expression.node_eq_of_ofNode? hnode
  refine ⟨hmem, fun l hl => ?_⟩
  rw [Option.mem_def.1 hl] at hbehind
  exact of_decide_eq_true hbehind

include h

lemma header_eq : s.header = header := by
  rw [IfStatement.header, h.parts, List.takeWhile_cons_of_pos, List.tail_cons,
    List.takeWhile_append_of_pos h.header.kind_ne_block, List.takeWhile_cons_of_neg, List.append_nil]
  · simp [Element.kind, Node.element, h.block]
  · simp [Element.kind, show keyword.token.kind = .ifKeyword from h.keyword]

lemma thenBranch?_eq : s.thenBranch? = some ⟨body, h.block⟩ := by
  have hheader : (header.filterMap Element.node?).findSome? (·.as? .block) = none :=
    List.findSome?_eq_none_iff.2 fun m hm => Node.as?_of_kind_ne (h.header.isSimple_of_mem hm).kind_ne.1
  rw [IfStatement.thenBranch?, Node.child?, h.nodes_eq, List.findSome?_append, hheader, Option.none_or,
    List.findSome?_cons, Node.as?_of_kind_eq h.block]

lemma condition?_eq (hn : s.node.Laid) :
    s.condition? = (header.getLast?.bind Element.node?).bind Expression.ofNode? := by
  rw [IfStatement.condition?, h.takeWhile_nodes, IfStatement.semicolon?, h.tokenOf?_semicolon]
  have hordered := (h.before hn).2.2.1
  cases h.header with
  | @plain m hm =>
    have hall : [m].filter (fun m => decide (0 ≤ m.span.start)) = [m] := List.filter_eq_self.2 fun _ _ => rfl
    exact (congrArg (List.findSome? Expression.ofNode?) hall).trans List.findSome?_singleton
  | @split init condition l hinit hl hcondition =>
    obtain ⟨-, hbehind, hacross⟩ := List.pairwise_append.1 hordered
    have hwords : (init.toList.map Node.element ++ l.element :: condition.toList.map Node.element).filterMap
        Element.leaf? = [l] := by
      rw [List.filterMap_append, List.filterMap_cons, Element.filterMap_leaf?_map_element,
        Element.filterMap_leaf?_map_element]
      rfl
    have hnodes : (init.toList.map Node.element ++ l.element :: condition.toList.map Node.element).filterMap
        Element.node? = init.toList ++ condition.toList := by
      rw [List.filterMap_append, List.filterMap_cons, Element.filterMap_node?_map_element,
        Element.filterMap_node?_map_element]
      rfl
    -- What stands in front of the semicolon starts in front of it.
    have hfront : init.toList.filter (fun m => decide (l.span.stop ≤ m.span.start)) = [] := by
      refine List.filter_eq_nil_iff.2 fun m hm => ?_
      have hle : m.span.stop ≤ l.span.start := hacross _ (List.mem_map_of_mem hm) _ List.mem_cons_self
      have hlt := (hinit m (Option.mem_toList.1 hm)).2
      have hstop := l.span.start_le_stop
      rw [decide_eq_true_iff]
      omega
    have hback : condition.toList.filter (fun m => decide (l.span.stop ≤ m.span.start)) = condition.toList :=
      List.filter_eq_self.2 fun m hm =>
        decide_eq_true ((List.pairwise_cons.1 hbehind).1 _ (List.mem_map_of_mem hm))
    have hfilter : (init.toList ++ condition.toList).filter (fun m => decide (l.span.stop ≤ m.span.start)) =
        condition.toList := by
      rw [List.filter_append, hfront, hback, List.nil_append]
    rw [hwords, hnodes, List.getLast?_append]
    refine (congrArg (List.findSome? Expression.ofNode?) hfilter).trans ?_
    cases condition with
    | none => rfl
    | some c => exact List.findSome?_singleton

/-- What follows the block is found behind `else`. -/
lemma elseBranch?_eq : s.elseBranch? = (rest.filterMap Element.node?).head?.bind Statement.ofNode? := by
  have hheader : (header.filterMap Element.node?).filter (fun m => m.kind == .ifStatement || m.kind == .block) =
      [] := by
    refine List.filter_eq_nil_iff.2 fun m hm => ?_
    obtain ⟨hblock, hif⟩ := (h.header.isSimple_of_mem hm).kind_ne
    simp [hblock, hif]
  rw [IfStatement.elseBranch?, h.tokenOf?_else, h.nodes_eq, List.filter_append, hheader, List.nil_append,
    List.filter_cons_of_pos (by simp [h.block])]
  cases h.rest with
  | nothing => rfl
  | @other l m hl hm =>
    have hfilter : [m].filter (fun m => m.kind == .ifStatement || m.kind == .block) = [m] :=
      List.filter_eq_self.2 (by simpa using hm)
    change ((body :: [m].filter _)[1]?).bind Statement.ofNode? = _
    rw [hfilter]
    rfl

lemma complete (hn : s.node.Laid) : s.Complete := by
  obtain ⟨hheader, hrest, -, hbehind⟩ := h.before hn
  have helse : ∀ l ∈ s.node.tokens, l.kind = .elseKeyword → l ∈ rest.filterMap Element.leaf? := fun l hl hkind =>
    h.mem_rest_iff.2 ⟨hl, hkind⟩
  have hcondition : ∀ c ∈ s.condition?, c.node ∈ header.filterMap Element.node? := fun c hc =>
    h.takeWhile_nodes ▸ (condition?_spec c hc).1
  refine ⟨⟨_, thenBranch?_eq h, fun l hl hkind => ?_⟩, ?_, fun b hb l hl hkind => ?_, ?_, fun c hc b hb => ?_,
    fun m hm => ?_⟩
  · exact h.solid.trans_le (hrest _ (Element.mem_filterMap_leaf?.1 (helse l hl hkind)))
  · simp only [← h.mem_rest_iff, elseBranch?_eq h]
    cases h.rest with
    | nothing => simp
    | @other l m hl hm =>
      have hsome : (Statement.ofNode? m).isSome = true := by
        rw [← Option.isSome_map (f := Statement.node), Statement.map_node_ofNode?]
        rcases hm with hm | hm <;> rw [hm] <;> rfl
      exact ⟨fun _ => ⟨l, List.mem_cons_self⟩, fun _ => hsome⟩
  · have hl := helse l hl hkind
    rw [elseBranch?_eq h] at hb
    cases h.rest with
    | nothing => exact nomatch hb
    | @other l' m _ _ =>
      obtain rfl := List.mem_singleton.1 hl
      rw [Statement.node_eq_of_ofNode? hb]
      exact (List.pairwise_cons.1 hbehind).1 _ List.mem_cons_self
  · rw [condition?_eq h hn, header_eq h]
  · rw [thenBranch?_eq h] at hb
    obtain rfl := Option.some.inj hb
    exact hheader _ (Element.mem_filterMap_node?.1 (hcondition c hc))
  · simp only [IfStatement.init?, Option.mem_def, bind, Option.bind_eq_some_iff, Option.ite_none_right_eq_some,
      Option.some.injEq] at hm
    obtain ⟨l, hl, m, hm, hle, rfl⟩ := hm
    refine ⟨List.mem_of_head? hm, ⟨l, hl, hle⟩, fun c hc heq => ?_⟩
    -- The condition starts behind the semicolon, and it is not empty.
    have hlt := (h.header.isSimple_of_mem (hcondition c hc)).2
    have hstart := (condition?_spec c hc).2 l hl
    have hstop := l.span.start_le_stop
    rw [heq] at hlt hstart
    omega

end IfStatement

/-- **The `if` statements of a file without errors are complete**, apart from the condition: the header can end with a
semicolon or with a statement that is no expression. -/
theorem ifs_complete {text : Text} (h : (parse text).errors = []) :
    ∀ s : IfStatement, s.node ∈ (parse text).root.descendants → s.Complete := by
  intro s hs
  have hn : s.node.Laid := laid_parse h s.node hs
  obtain ⟨keyword, header, body, rest, hform⟩ := hn.ifForm s.kind_eq
  exact IfStatement.complete hform hn

theorem ifs_complete_chain : ∃ s : IfStatement,
    s.node ∈ (parse "package p\nfunc f() { if x := g(); x > 0 { } else if y { } }\n".toList).root.descendants ∧
      s.header.length = 3 ∧ s.Complete := by
  have herrors : (parse "package p\nfunc f() { if x := g(); x > 0 { } else if y { } }\n".toList).errors = [] := by
    decide +kernel
  have hfound : ((parse "package p\nfunc f() { if x := g(); x > 0 { } else if y { } }\n".toList).root.descendants
      |>.findSome? (·.as? .ifStatement)).map (fun s : IfStatement => s.header.length == 3) = some true := by
    decide +kernel
  obtain ⟨s, hs, hheader⟩ := Node.exists_typed hfound
  exact ⟨s, hs, beq_iff_eq.1 hheader, ifs_complete herrors s hs⟩

/-- Nothing is reported where a semicolon stands in the place of the condition. -/
theorem condition_lost : (parse "package p\nfunc f() { if x; { } }\n".toList).errors = [] ∧
    ∃ s : IfStatement, s.node ∈ (parse "package p\nfunc f() { if x; { } }\n".toList).root.descendants ∧
      s.condition?.isNone = true :=
  ⟨by decide +kernel, Node.exists_typed (by decide +kernel)⟩

end GoFront
