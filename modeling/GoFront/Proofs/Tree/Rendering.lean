import GoFront.Proofs.Tree.Anchor
import GoFront.Proofs.Tree.Sketch

/-!
# Woven trees render what was grown

The nodes of a woven tree are those that were grown, with the same words in the same order; blanks and comments stand
only in front of words and of nodes, and no node starts with them (`Renders`). The errors that were grown among the
parts of a node belong to this very node of the tree, in their order, and apart from lexical errors no others do.
-/

namespace GoFront

namespace Sprout

/-- The errors among sprouts that follow one another, without those inside nodes. -/
def own (ss : List Sprout) : List (Problem × Span) :=
  ss.filterMap fun
    | .error p r => some (p, r)
    | _ => none

@[simp] lemma own_append (ss ts : List Sprout) : own (ss ++ ts) = own ss ++ own ts := List.filterMap_append

lemma mem_own {p : Problem} {r : Span} {ss : List Sprout} : (p, r) ∈ own ss ↔ .error p r ∈ ss := by
  rw [own, List.mem_filterMap]
  constructor
  · rintro ⟨s, hs, heq⟩
    cases s with
    | error p' r' =>
      obtain ⟨rfl, rfl⟩ := Prod.mk.inj (Option.some.inj heq)
      exact hs
    | word w => exact nomatch heq
    | node k cs => exact nomatch heq
  · exact fun h => ⟨_, h, rfl⟩

/-- The kinds of the nodes among sprouts that follow one another. -/
def kindsIn (ss : List Sprout) : List Kind :=
  ss.filterMap fun
    | .node k _ => some k
    | _ => none

@[simp] lemma kindsIn_append (ss ts : List Sprout) : kindsIn (ss ++ ts) = kindsIn ss ++ kindsIn ts :=
  List.filterMap_append

lemma mem_kindsIn {k : Kind} {ss : List Sprout} : k ∈ kindsIn ss ↔ ∃ cs, .node k cs ∈ ss := by
  rw [kindsIn, List.mem_filterMap]
  constructor
  · rintro ⟨s, hs, heq⟩
    cases s with
    | node k' cs => exact ⟨cs, Option.some.inj heq ▸ hs⟩
    | word w => exact nomatch heq
    | error p r => exact nomatch heq
  · exact fun ⟨cs, hs⟩ => ⟨_, hs, rfl⟩

mutual

/-- The nodes at and below a sprout, each as its kind and its parts. -/
def nodes : Sprout → List (Kind × List Sprout)
  | .word _ => []
  | .error _ _ => []
  | .node k cs => (k, cs) :: nodesIn cs

/-- The nodes at and below sprouts that follow one another. -/
def nodesIn : List Sprout → List (Kind × List Sprout)
  | [] => []
  | s :: ss => nodes s ++ nodesIn ss

end

lemma mem_nodesIn {x : Kind × List Sprout} {ss : List Sprout} : x ∈ nodesIn ss ↔ ∃ s ∈ ss, x ∈ s.nodes := by
  induction ss with
  | nil => simp [nodesIn]
  | cons s ss ih => simp [nodesIn, ih]

end Sprout

/-- The errors that belong to a node and are not lexical, in order. -/
def attached (es : List SyntaxError) (i : Nat) : List (Problem × Span) :=
  (es.filter fun e => !e.problem.isLexical && e.node = i).map SyntaxError.report

@[simp] lemma attached_append (es fs : List SyntaxError) (i : Nat) :
    attached (es ++ fs) i = attached es i ++ attached fs i := by
  simp [attached]

/-- Nothing but lexical errors belongs to a node. -/
lemma attached_eq_nil {es : List SyntaxError} {i : Nat} (h : ∀ e ∈ es, e.problem.isLexical = false → e.node ≠ i) :
    attached es i = [] := by
  rw [attached, List.map_eq_nil_iff, List.filter_eq_nil_iff]
  intro e he
  cases hproblem : e.problem.isLexical with
  | true => simp
  | false => simp [h e he hproblem]

/-- Blanks and comments. -/
def Element.IsGap (isTrivia : Kind → Bool) (es : List Element) : Prop :=
  ∀ e ∈ es, ∃ i t, e = .token i t ∧ isTrivia t.kind = true

namespace Element

mutual

/-- A node at or below an element is that element, or it is a part of a node at or below the element. -/
lemma exists_parent {n : Node} : (e : Element) → n ∈ descendants e →
    e.node? = some n ∨ ∃ m ∈ descendants e, n ∈ m.nodes
  | .token _ _, h => nomatch h
  | .node i k s cs, h => by
    rcases List.mem_cons.1 h with rfl | h
    · exact .inl rfl
    rcases exists_parentIn cs h with hn | ⟨m, hm, hn⟩
    · exact .inr ⟨⟨i, k, s, cs⟩, List.mem_cons_self, hn⟩
    · exact .inr ⟨m, List.mem_cons_of_mem _ hm, hn⟩

lemma exists_parentIn {n : Node} : (es : List Element) → n ∈ descendantsIn es →
    n ∈ es.filterMap node? ∨ ∃ m ∈ descendantsIn es, n ∈ m.nodes
  | [], h => nomatch h
  | e :: es, h => by
    rcases List.mem_append.1 h with h | h
    · rcases exists_parent e h with hn | ⟨m, hm, hn⟩
      · exact .inl (List.mem_filterMap.2 ⟨e, List.mem_cons_self, hn⟩)
      · exact .inr ⟨m, List.mem_append_left _ hm, hn⟩
    · rcases exists_parentIn es h with hn | ⟨m, hm, hn⟩
      · obtain ⟨f, hf, hfn⟩ := List.mem_filterMap.1 hn
        exact .inl (List.mem_filterMap.2 ⟨f, List.mem_cons_of_mem e hf, hfn⟩)
      · exact .inr ⟨m, List.mem_append_right _ hm, hn⟩

end

lemma mem_filterMap_node? {es : List Element} {n : Node} : n ∈ es.filterMap node? ↔ n.element ∈ es := by
  rw [List.mem_filterMap]
  constructor
  · rintro ⟨e, he, hn⟩
    cases e with
    | token i t => exact absurd hn.symm (Option.some_ne_none n)
    | node i k s cs => exact Option.some.inj hn ▸ he
  · exact fun h => ⟨_, h, rfl⟩

end Element

/-- The child nodes of a node are its parts that are nodes. -/
lemma Node.mem_nodes {m n : Node} : n ∈ m.nodes ↔ n.element ∈ m.children := Element.mem_filterMap_node?

/-- Elements that render sprouts, when `A` gives the errors that belong to a node. -/
inductive Renders (isTrivia : Kind → Bool) (A : Nat → List (Problem × Span)) : List Sprout → List Element → Prop
  /-- Nothing. -/
  | nil : Renders isTrivia A [] []
  /-- A word is rendered by its token, with blanks and comments in front. -/
  | word {w : Word} {cs : List Sprout} {gap es : List Element} {i : Nat} (hgap : Element.IsGap isTrivia gap)
    (hw : isTrivia w.kind = false) (h : Renders isTrivia A cs es) :
    Renders isTrivia A (.word w :: cs) (gap ++ .token i w.token :: es)
  /-- An error is rendered by no element. -/
  | error {p : Problem} {r : Span} {cs : List Sprout} {es : List Element} (h : Renders isTrivia A cs es) :
    Renders isTrivia A (.error p r :: cs) es
  /-- A node is rendered by a node to which its errors belong, with blanks and comments in front. -/
  | node {n : Node} {ds cs : List Sprout} {gap es : List Element} (hgap : Element.IsGap isTrivia gap)
    (hown : A n.id = Sprout.own ds) (hlead : ∀ x ∈ n.leaves.head?, isTrivia x.kind = false)
    (hin : Renders isTrivia A ds n.children) (h : Renders isTrivia A cs es) :
    Renders isTrivia A (.node n.kind ds :: cs) (gap ++ n.element :: es)

namespace Renders

variable {isTrivia : Kind → Bool} {A : Nat → List (Problem × Span)} {cs ds : List Sprout} {es fs : List Element}

lemma append (h : Renders isTrivia A cs es) (k : Renders isTrivia A ds fs) :
    Renders isTrivia A (cs ++ ds) (es ++ fs) := by
  induction h with
  | nil => exact k
  | word hgap hw _ ih =>
    rw [List.append_assoc]
    exact .word hgap hw ih
  | error _ ih => exact .error ih
  | node hgap hown hlead hin _ _ ih =>
    rw [List.append_assoc]
    exact .node hgap hown hlead hin ih

/-- Sprouts in two pieces are rendered piece by piece. -/
lemma split (h : Renders isTrivia A (cs ++ ds) es) :
    ∃ fs gs, es = fs ++ gs ∧ Renders isTrivia A cs fs ∧ Renders isTrivia A ds gs := by
  induction cs generalizing es with
  | nil => exact ⟨[], es, rfl, .nil, h⟩
  | cons c cs ih =>
    cases h with
    | word hgap hw h =>
      obtain ⟨fs, gs, rfl, hfs, hgs⟩ := ih h
      exact ⟨_, gs, (List.append_assoc _ (_ :: fs) gs).symm, .word hgap hw hfs, hgs⟩
    | error h =>
      obtain ⟨fs, gs, rfl, hfs, hgs⟩ := ih h
      exact ⟨fs, gs, rfl, .error hfs, hgs⟩
    | node hgap hown hlead hin h =>
      obtain ⟨fs, gs, rfl, hfs, hgs⟩ := ih h
      exact ⟨_, gs, (List.append_assoc _ (_ :: fs) gs).symm, .node hgap hown hlead hin hfs, hgs⟩

end Renders

/-- A node renders parts, which are those that were grown in it. -/
structure Node.RendersParts (isTrivia : Kind → Bool) (A : Nat → List (Problem × Span)) (n : Node) (ds : List Sprout) :
    Prop where
  own : A n.id = Sprout.own ds
  lead : ∀ x ∈ n.leaves.head?, isTrivia x.kind = false
  parts : Renders isTrivia A ds n.children

namespace Renders

variable {isTrivia : Kind → Bool} {A : Nat → List (Problem × Span)} {cs : List Sprout} {es : List Element}

lemma filterMap_node?_gap (h : Element.IsGap isTrivia es) : es.filterMap Element.node? = [] := by
  rw [List.filterMap_eq_nil_iff]
  intro e he
  obtain ⟨i, t, rfl, -⟩ := h e he
  rfl

lemma descendantsIn_gap (h : Element.IsGap isTrivia es) : Element.descendantsIn es = [] := by
  induction es with
  | nil => rfl
  | cons e es ih =>
    obtain ⟨⟨i, t, rfl, -⟩, hes⟩ := List.forall_mem_cons.1 h
    rw [Element.descendantsIn, ih hes]
    rfl

lemma filter_leavesIn_gap (h : Element.IsGap isTrivia es) :
    (Element.leavesIn es).filter (fun l => !isTrivia l.kind) = [] := by
  induction es with
  | nil => rfl
  | cons e es ih =>
    obtain ⟨⟨i, t, rfl, ht⟩, hes⟩ := List.forall_mem_cons.1 h
    rw [Element.leavesIn, List.filter_append, ih hes]
    simp [Element.leaves, ht]

/-- The nodes among the elements are of the kinds of the nodes among the sprouts. -/
lemma map_kind_nodes (h : Renders isTrivia A cs es) :
    (es.filterMap Element.node?).map Node.kind = Sprout.kindsIn cs := by
  induction h with
  | nil => rfl
  | word hgap _ _ ih =>
    rw [List.filterMap_append, filterMap_node?_gap hgap]
    exact ih
  | error _ ih => exact ih
  | node hgap _ _ _ _ _ ih =>
    rw [List.filterMap_append, filterMap_node?_gap hgap]
    exact congrArg (_ :: ·) ih

/-- A node among the elements renders a node among the sprouts. -/
lemma exists_part (h : Renders isTrivia A cs es) {n : Node} (hn : n ∈ es.filterMap Element.node?) :
    ∃ ds, .node n.kind ds ∈ cs ∧ n.RendersParts isTrivia A ds := by
  induction h with
  | nil => exact nomatch hn
  | word hgap _ _ ih =>
    rw [List.filterMap_append, filterMap_node?_gap hgap] at hn
    obtain ⟨ds, hds, hparts⟩ := ih hn
    exact ⟨ds, List.mem_cons_of_mem _ hds, hparts⟩
  | error _ ih =>
    obtain ⟨ds, hds, hparts⟩ := ih hn
    exact ⟨ds, List.mem_cons_of_mem _ hds, hparts⟩
  | @node m ds cs gap es hgap hown hlead hin _ _ ih =>
    rw [List.filterMap_append, filterMap_node?_gap hgap] at hn
    rcases List.mem_cons.1 (show n ∈ m :: es.filterMap Element.node? from hn) with rfl | hn
    · exact ⟨ds, List.mem_cons_self, hown, hlead, hin⟩
    · obtain ⟨ds, hds, hparts⟩ := ih hn
      exact ⟨ds, List.mem_cons_of_mem _ hds, hparts⟩

/-- A node is no blank and no comment: behind some of them, it is the next element or comes after that. -/
lemma gap_split {gap es fs gs : List Element} {e : Element} {n : Node} (hgap : Element.IsGap isTrivia gap)
    (h : gap ++ e :: es = fs ++ n.element :: gs) :
    (fs = gap ∧ e = n.element ∧ es = gs) ∨ ∃ hs, fs = gap ++ e :: hs ∧ es = hs ++ n.element :: gs := by
  induction gap generalizing fs with
  | nil =>
    cases fs with
    | nil =>
      obtain ⟨he, hes⟩ := List.cons.inj h
      exact .inl ⟨rfl, he, hes⟩
    | cons f fs =>
      obtain ⟨rfl, hes⟩ := List.cons.inj h
      exact .inr ⟨fs, rfl, hes⟩
  | cons g gap ih =>
    obtain ⟨⟨i, t, rfl, -⟩, hrest⟩ := List.forall_mem_cons.1 hgap
    cases fs with
    | nil => exact nomatch (List.cons.inj h).1
    | cons f fs =>
      obtain ⟨rfl, htail⟩ := List.cons.inj h
      rcases ih hrest htail with ⟨rfl, he, hes⟩ | ⟨hs, rfl, hes⟩
      · exact .inl ⟨rfl, he, hes⟩
      · exact .inr ⟨hs, rfl, hes⟩

/-- A node in front of blanks and comments stands before them. -/
lemma exists_append_gap {gap fs gs : List Element} {n : Node} (hgap : Element.IsGap isTrivia gap)
    (h : es ++ gap = fs ++ n.element :: gs) : ∃ gs', es = fs ++ n.element :: gs' ∧ gs = gs' ++ gap := by
  have hnone : n.element ∉ gap := fun hmem => by
    obtain ⟨i, t, heq, -⟩ := hgap _ hmem
    exact nomatch heq
  rcases List.append_eq_append_iff.1 h with ⟨hs, -, hs'⟩ | ⟨hs, rfl, hs'⟩
  · exact absurd (hs' ▸ List.mem_append_right _ List.mem_cons_self) hnone
  · cases hs with
    | nil => exact absurd ((show n.element :: gs = gap from hs') ▸ List.mem_cons_self) hnone
    | cons x hs =>
      obtain ⟨rfl, hgs⟩ := List.cons.inj hs'
      exact ⟨hs, rfl, hgs⟩

/-- A node among the elements renders a node among the sprouts. What stands before it and behind it renders what does so
there, with blanks and comments in front of it. -/
lemma split_node {n : Node} {fs gs : List Element} (h : Renders isTrivia A cs es) (hes : es = fs ++ n.element :: gs) :
    ∃ cs₁ ds cs₂ fs' gap, cs = cs₁ ++ .node n.kind ds :: cs₂ ∧ n.RendersParts isTrivia A ds ∧ fs = fs' ++ gap ∧
      Element.IsGap isTrivia gap ∧ Renders isTrivia A cs₁ fs' ∧ Renders isTrivia A cs₂ gs := by
  induction h generalizing fs with
  | nil => exact absurd hes.symm (List.append_ne_nil_of_right_ne_nil _ (List.cons_ne_nil _ _))
  | @word w _ gap _ i hgap hw _ ih =>
    rcases gap_split hgap hes with ⟨-, heq, -⟩ | ⟨hs, rfl, hbehind⟩
    · exact nomatch heq
    obtain ⟨cs₁, ds, cs₂, fs', gap', rfl, hparts, rfl, hgap', hbefore, hafter⟩ := ih hbehind
    exact ⟨.word w :: cs₁, ds, cs₂, gap ++ .token i w.token :: fs', gap', rfl, hparts, by simp, hgap',
      .word hgap hw hbefore, hafter⟩
  | @error p r _ _ _ ih =>
    obtain ⟨cs₁, ds, cs₂, fs', gap', rfl, hparts, hfs, hgap', hbefore, hafter⟩ := ih hes
    exact ⟨.error p r :: cs₁, ds, cs₂, fs', gap', rfl, hparts, hfs, hgap', .error hbefore, hafter⟩
  | @node m ds cs gap es hgap hown hlead hin h _ ih =>
    rcases gap_split hgap hes with ⟨rfl, heq, rfl⟩ | ⟨hs, rfl, hbehind⟩
    · obtain rfl : m = n := Option.some.inj (congrArg Element.node? heq)
      exact ⟨[], ds, cs, [], fs, rfl, ⟨hown, hlead, hin⟩, rfl, hgap, .nil, h⟩
    · obtain ⟨cs₁, ds', cs₂, fs', gap', rfl, hparts, rfl, hgap', hbefore, hafter⟩ := ih hbehind
      exact ⟨.node m.kind ds :: cs₁, ds', cs₂, gap ++ m.element :: fs', gap', rfl, hparts, by simp, hgap',
        .node hgap hown hlead hin hbefore, hafter⟩

/-- A node at or below the elements renders a node at or below the sprouts. -/
lemma exists_node (h : Renders isTrivia A cs es) {n : Node} (hn : n ∈ Element.descendantsIn es) :
    ∃ ds, (n.kind, ds) ∈ Sprout.nodesIn cs ∧ n.RendersParts isTrivia A ds := by
  induction h with
  | nil => exact nomatch hn
  | word hgap _ _ ih =>
    rw [Element.descendantsIn_append, descendantsIn_gap hgap] at hn
    exact ih hn
  | error _ ih => exact ih hn
  | @node m ds cs gap es hgap hown hlead hin _ ihin ih =>
    rw [Element.descendantsIn_append, descendantsIn_gap hgap] at hn
    rcases List.mem_cons.1 (show n ∈ m :: (Element.descendantsIn m.children ++ Element.descendantsIn es) from hn)
      with rfl | hn
    · exact ⟨ds, List.mem_append_left _ List.mem_cons_self, hown, hlead, hin⟩
    rcases List.mem_append.1 hn with hn | hn
    · obtain ⟨ds', hds, hparts⟩ := ihin hn
      exact ⟨ds', List.mem_append_left _ (List.mem_cons_of_mem _ hds), hparts⟩
    · obtain ⟨ds', hds, hparts⟩ := ih hn
      exact ⟨ds', List.mem_append_right _ hds, hparts⟩

/-- The tokens below the elements are, blanks and comments apart, the words in the sprouts. -/
lemma map_token_leavesIn (h : Renders isTrivia A cs es) :
    ((Element.leavesIn es).filter fun l => !isTrivia l.kind).map Leaf.token = (Sprout.wordsIn cs).map Word.token := by
  induction h with
  | nil => rfl
  | @word w cs gap es i hgap hw _ ih =>
    rw [Element.leavesIn_append, List.filter_append, filter_leavesIn_gap hgap, List.nil_append]
    rw [show Element.leavesIn (.token i w.token :: es) = ⟨i, w.token⟩ :: Element.leavesIn es from rfl,
      List.filter_cons_of_pos (by simpa using hw), List.map_cons, ih]
    rfl
  | error _ ih => exact ih
  | @node m ds cs gap es hgap _ _ _ _ ihin ih =>
    rw [Element.leavesIn_append, List.filter_append, filter_leavesIn_gap hgap, List.nil_append]
    rw [show Element.leavesIn (m.element :: es) = Element.leavesIn m.children ++ Element.leavesIn es from rfl,
      List.filter_append, List.map_append, ihin, ih, ← List.map_append]
    rfl

/-- Among the elements there is no node of a kind that no node among the sprouts has. -/
lemma filter_nodes_eq_nil {k : Kind} (h : Renders isTrivia A cs es) (hk : k ∉ Sprout.kindsIn cs) :
    (es.filterMap Element.node?).filter (·.kind == k) = [] := by
  rw [List.filter_eq_nil_iff]
  intro n hn hkind
  rw [beq_iff_eq] at hkind
  refine hk ?_
  rw [← h.map_kind_nodes, ← hkind]
  exact List.mem_map_of_mem hn

/-- A node in front is rendered by a node behind blanks and comments. -/
lemma exists_of_node {k : Kind} {ds : List Sprout} (h : Renders isTrivia A (.node k ds :: cs) es) :
    ∃ (gap : List Element) (n : Node) (fs : List Element), es = gap ++ n.element :: fs ∧ Element.IsGap isTrivia gap ∧
      n.kind = k ∧ n.RendersParts isTrivia A ds ∧ Renders isTrivia A cs fs := by
  cases h with
  | node hgap hown hlead hin h => exact ⟨_, _, _, rfl, hgap, rfl, ⟨hown, hlead, hin⟩, h⟩

/-- A single node is rendered by a node behind blanks and comments. -/
lemma eq_concat {k : Kind} {ds : List Sprout} (h : Renders isTrivia A [.node k ds] es) :
    ∃ (gap : List Element) (n : Node), es = gap ++ [n.element] ∧ Element.IsGap isTrivia gap ∧ n.kind = k ∧
      n.RendersParts isTrivia A ds := by
  obtain ⟨gap, n, fs, rfl, hgap, hn, hparts, hnil⟩ := h.exists_of_node
  cases hnil
  exact ⟨gap, n, rfl, hgap, hn, hparts⟩

end Renders

/-- A node starts with the first of the words in it. -/
lemma Node.RendersParts.exists_head_leaf {isTrivia : Kind → Bool} {A : Nat → List (Problem × Span)} {n : Node}
    {ds : List Sprout} {w : Word} {us : List Word} (hn : n.RendersParts isTrivia A ds)
    (hds : Sprout.wordsIn ds = w :: us) : ∃ l ∈ n.leaves.head?, l.token = w.token := by
  have htokens := hn.parts.map_token_leavesIn
  have hlead : ∀ l ∈ (Element.leavesIn n.children).head?, isTrivia l.kind = false := hn.lead
  rw [hds] at htokens
  show ∃ l ∈ (Element.leavesIn n.children).head?, l.token = w.token
  cases hleaves : Element.leavesIn n.children with
  | nil =>
    rw [hleaves] at htokens
    exact nomatch htokens
  | cons l ls =>
    rw [hleaves] at htokens hlead
    rw [List.filter_cons_of_pos (by simp [hlead l rfl])] at htokens
    exact ⟨l, rfl, (List.cons.inj htokens).1⟩

/-! ## Placing tokens -/

namespace Loom

variable {opened : List OpenNode}

/-- The blanks and comments before the next word, or the last ones. -/
def gap (l : Loom) : List Token :=
  match l.words with
  | [] => l.tail
  | w :: _ => w.gap

lemma nodes_place (ts : List Token) (l : Loom) : (place opened ts l).2.nodes = l.nodes := by
  induction ts generalizing l with
  | nil => rfl
  | cons t ts ih =>
    refine (ih (l.placeToken opened t).2).trans ?_
    unfold placeToken
    split <;> rfl

lemma gap_place (ts : List Token) (l : Loom) : (place opened ts l).2.gap = l.gap := by
  obtain ⟨hwords, htail⟩ := words_tail_place opened ts l
  rw [gap, gap, hwords, htail]

/-- The gap before the next word is placed, and then there is none. -/
lemma exists_placeGap (opened : List OpenNode) (l : Loom) : ∃ l' : Loom, l.placeGap opened = place opened l.gap l' ∧ l'.errors = l.errors ∧
    l'.nodes = l.nodes ∧ l'.gap = [] := by
  unfold placeGap gap
  cases l.words with
  | nil => exact ⟨_, rfl, rfl, rfl, rfl⟩
  | cons w ws => exact ⟨_, rfl, rfl, rfl, rfl⟩

/-- The errors that are found between two looms. -/
def Finds (l m : Loom) (found : List SyntaxError) : Prop := m.errors = found.reverse ++ l.errors

/-- Placing tokens finds nothing but lexical errors. -/
lemma finds_place (opened : List OpenNode) (ts : List Token) (l : Loom) :
    ∃ found, Finds l (place opened ts l).2 found ∧ ∀ e ∈ found, e.problem.isLexical = true := by
  induction ts generalizing l with
  | nil => exact ⟨[], rfl, by simp⟩
  | cons t ts ih =>
    obtain ⟨found, hfound, hlexical⟩ := ih (l.placeToken opened t).2
    refine ⟨t.faults opened ++ found, ?_, List.forall_mem_append.2 ⟨?_, hlexical⟩⟩
    · have htoken : (l.placeToken opened t).2.errors = (t.faults opened).reverse ++ l.errors := by
        unfold placeToken Token.faults
        split <;> rfl
      refine hfound.trans ?_
      rw [htoken, List.reverse_append, List.append_assoc]
    · unfold Token.faults
      split <;> simp [Problem.isLexical]

/-- Tokens that are placed become elements one by one. -/
lemma isGap_place {isTrivia : Kind → Bool} {ts : List Token} (h : ∀ t ∈ ts, isTrivia t.kind = true) (l : Loom) :
    Element.IsGap isTrivia (place opened ts l).1 := by
  induction ts generalizing l with
  | nil => simp [place, Element.IsGap]
  | cons t ts ih =>
    obtain ⟨ht, hts⟩ := List.forall_mem_cons.1 h
    exact List.forall_mem_cons.2 ⟨⟨_, t, rfl, ht⟩, ih hts _⟩

lemma place_append (ts us : List Token) (l : Loom) : place opened (ts ++ us) l =
    ((place opened ts l).1 ++ (place opened us (place opened ts l).2).1, (place opened us (place opened ts l).2).2) := by
  induction ts generalizing l with
  | nil => rfl
  | cons t ts ih => simp [place, ih]

end Loom

/-! ## Weaving -/

namespace Sprout

open Loom

variable {isTrivia : Kind → Bool} {opened : List OpenNode}

/-- From the loom `l` the sprouts `cs` were woven into `es` inside open nodes, and the loom became `m`. Among the errors
found on the way, those of the sprouts themselves belong to the innermost open node, and those inside their nodes to new
nodes. Unless blanks or comments were still to be placed before the next word, none stand in front. -/
structure Yields (isTrivia : Kind → Bool) (opened : List OpenNode) (l : Loom) (cs : List Sprout) (es : List Element)
    (m : Loom) (found : List SyntaxError) : Prop where
  finds : Finds l m found
  nodes : l.nodes ≤ m.nodes
  apart : ∀ e ∈ found, e.problem.isLexical = false → e.node = innermost opened ∨ l.nodes ≤ e.node ∧ e.node < m.nodes
  own : attached found (innermost opened) = own cs
  renders : ∀ A : Nat → List (Problem × Span), (∀ i, l.nodes ≤ i → i < m.nodes → A i = attached found i) →
    Renders isTrivia A cs es
  bare : l.gap = [] → Element.leavesIn es = [] → m.gap = []
  lead : l.gap = [] → ∀ x ∈ (Element.leavesIn es).head?, isTrivia x.kind = false

namespace Yields

variable {l m n : Loom} {cs ds : List Sprout} {es fs : List Element} {found found' : List SyntaxError}

lemma append (h : Yields isTrivia opened l cs es m found) (k : Yields isTrivia opened m ds fs n found')
    (hopened : innermost opened < l.nodes) : Yields isTrivia opened l (cs ++ ds) (es ++ fs) n (found ++ found') where
  finds := by
    rw [Finds, k.finds, h.finds, List.reverse_append, List.append_assoc]
  nodes := Nat.le_trans h.nodes k.nodes
  apart := by
    have hlm := h.nodes
    have hmn := k.nodes
    refine List.forall_mem_append.2 ⟨fun e he hproblem => ?_, fun e he hproblem => ?_⟩
    · exact (h.apart e he hproblem).imp_right fun hrange => by omega
    · exact (k.apart e he hproblem).imp_right fun hrange => by omega
  own := by rw [attached_append, h.own, k.own, own_append]
  renders := by
    intro A hA
    have hlm := h.nodes
    have hmn := k.nodes
    have hfirst : ∀ i, l.nodes ≤ i → i < m.nodes → attached found' i = [] := fun i hl hm =>
      attached_eq_nil fun e he hproblem => by
        have := k.apart e he hproblem
        omega
    have hsecond : ∀ i, m.nodes ≤ i → attached found i = [] := fun i hm =>
      attached_eq_nil fun e he hproblem => by
        have := h.apart e he hproblem
        omega
    refine (h.renders A fun i hl hm => ?_).append (k.renders A fun i hm hn => ?_)
    · rw [hA i hl (by omega), attached_append, hfirst i hl hm, List.append_nil]
    · rw [hA i (by omega) hn, attached_append, hsecond i hm, List.nil_append]
  bare := by
    intro hgap hnil
    rw [Element.leavesIn_append, List.append_eq_nil_iff] at hnil
    exact k.bare (h.bare hgap hnil.1) hnil.2
  lead := by
    intro hgap x hx
    rw [Element.leavesIn_append] at hx
    cases hes : Element.leavesIn es with
    | nil =>
      rw [hes] at hx
      exact k.lead (h.bare hgap hes) x hx
    | cons y ys =>
      rw [hes] at hx
      exact h.lead hgap x (hes ▸ hx)

/-- What is woven from the parts of a node becomes the node. -/
lemma node {k : Kind} {r : Span} {gap : List Element} (hopened : innermost opened < l.nodes)
    (hgap : Element.IsGap isTrivia gap) (hbefore : Finds l m found) (hlexical : ∀ e ∈ found, e.problem.isLexical = true)
    (hfirst : l.gap = [] → gap = []) (hbare : m.gap = [])
    (h : Yields isTrivia ((l.nodes, k) :: opened) { m with nodes := l.nodes + 1 } cs es n found') :
    Yields isTrivia opened l [.node k cs] (gap ++ [.node l.nodes k r es]) n (found ++ found') := by
  have hnone : ∀ i, attached found i = [] := fun i => attached_eq_nil fun e he hproblem => by
    rw [hlexical e he] at hproblem
    exact Bool.noConfusion hproblem
  have hnodes : l.nodes + 1 ≤ n.nodes := h.nodes
  have hapart : ∀ e ∈ found', e.problem.isLexical = false → l.nodes ≤ e.node ∧ e.node < n.nodes := by
    intro e he hproblem
    have hrange : e.node = l.nodes ∨ l.nodes + 1 ≤ e.node ∧ e.node < n.nodes := h.apart e he hproblem
    omega
  have hlead : ∀ x ∈ (Element.leavesIn es).head?, isTrivia x.kind = false := h.lead hbare
  have hleaves : l.gap = [] → Element.leavesIn (gap ++ [.node l.nodes k r es]) = Element.leavesIn es := fun hl => by
    rw [hfirst hl]
    exact List.append_nil _
  refine ⟨?_, by omega, ?_, ?_, ?_, fun hl hnil => h.bare hbare ((hleaves hl).symm.trans hnil), fun hl => ?_⟩
  · have hinner : n.errors = found'.reverse ++ m.errors := h.finds
    rw [Finds, hinner, hbefore, List.reverse_append, List.append_assoc]
  · refine List.forall_mem_append.2 ⟨fun e he hproblem => ?_, fun e he hproblem => .inr (hapart e he hproblem)⟩
    rw [hlexical e he] at hproblem
    exact Bool.noConfusion hproblem
  · rw [attached_append, hnone, List.nil_append]
    refine attached_eq_nil fun e he hproblem => ?_
    have := hapart e he hproblem
    omega
  · intro A hA
    have hown : A l.nodes = Sprout.own cs := by
      rw [hA _ (Nat.le_refl _) hnodes, attached_append, hnone, List.nil_append]
      exact h.own
    refine .node (n := ⟨l.nodes, k, r, es⟩) hgap hown hlead (h.renders A fun i hi hn => ?_) .nil
    replace hi : l.nodes + 1 ≤ i := hi
    rw [hA i (by omega) hn, attached_append, hnone, List.nil_append]
  · rw [hleaves hl]
    exact hlead

end Yields

mutual

/-- A sprout is rendered by what is woven from it. -/
lemma yields_weave {opened : List OpenNode} : (s : Sprout) → {l : Loom} → {rest : List Token} →
    innermost opened < l.nodes → (∀ e ∈ s.errors, e.1.isLexical = false) →
    (∀ w ∈ s.words, isTrivia w.kind = false) → l.Feeds (isTrivia ·.kind) (s.words.map Word.token ++ rest) →
    (s.weave opened l).2.Feeds (isTrivia ·.kind) rest ∧
      ∃ found, Yields isTrivia opened l [s] (s.weave opened l).1 (s.weave opened l).2 found
  | .word w, l, rest, hopened, _, hsignificant, h => by
    refine ⟨(h.placeWord opened).1, ?_⟩
    obtain ⟨v, ws, hwords, htoken, -⟩ := List.map_eq_cons_iff.1 h.tokens
    have hgap : ∀ t ∈ v.gap, isTrivia t.kind = true := h.gaps v (hwords ▸ List.mem_cons_self)
    rw [weave, placeWord_of_cons opened hwords, htoken]
    obtain ⟨found, hfound, hlexical⟩ := finds_place opened (v.gap ++ [w.token]) { l with words := ws }
    have hnone : ∀ e ∈ found, e.problem.isLexical = false → False := fun e he hproblem => by
      rw [hlexical e he] at hproblem
      exact Bool.noConfusion hproblem
    have hlast : isTrivia w.token.kind = false := hsignificant w (List.mem_singleton_self w)
    refine ⟨found, hfound, Nat.le_of_eq (nodes_place _ { l with words := ws }).symm, fun e he hproblem => (hnone e he hproblem).elim,
      attached_eq_nil fun e he hproblem => (hnone e he hproblem).elim, fun A _ => ?_, fun _ hnil => ?_, fun hgap => ?_⟩
    · rw [place_append]
      exact .word (isGap_place hgap _) hlast .nil
    · rw [place_append, Element.leavesIn_append] at hnil
      exact absurd (List.append_eq_nil_iff.1 hnil).2 (List.cons_ne_nil _ _)
    · rw [gap, hwords] at hgap
      replace hgap : v.gap = [] := hgap
      rw [hgap]
      intro x hx
      obtain rfl := Option.some.inj hx
      exact hlast
  | .error p r, l, rest, hopened, hproblem, _, h => by
    have hp : p.isLexical = false := hproblem (p, r) (List.mem_singleton_self _)
    refine ⟨⟨h.tokens, h.gaps, h.tail⟩, [⟨p, r, innermost opened⟩], rfl, Nat.le_refl _, by simp, ?_,
      fun A _ => .error .nil, fun hgap _ => hgap, fun _ x hx => ?_⟩
    · simp [attached, hp, Sprout.own, SyntaxError.report]
    · exact nomatch hx
  | .node k cs, l, rest, hopened, hproblem, hsignificant, h => by
    obtain ⟨l', hplace, herrors, hnodes, hgap⟩ := exists_placeGap opened l
    have hfeeds := (h.placeGap opened).1
    have htrivia : ∀ t ∈ l.gap, isTrivia t.kind = true := by
      unfold gap
      split
      · exact h.tail
      · next w ws hwords => exact h.gaps w (hwords ▸ List.mem_cons_self)
    obtain ⟨before, hbefore, hlexical⟩ := finds_place opened l.gap l'
    rw [← hplace] at hbefore
    have hl : (l.placeGap opened).2.nodes = l.nodes := by rw [hplace, nodes_place, hnodes]
    obtain ⟨hin, found, hinner⟩ := yields_weaveIn cs
      (l := { (l.placeGap opened).2 with nodes := l.nodes + 1 })
      (show innermost ((l.nodes, k) :: opened) < l.nodes + 1 from Nat.lt_succ_self _) hproblem hsignificant
      ⟨hfeeds.tokens, hfeeds.gaps, hfeeds.tail⟩
    rw [weave]
    dsimp only
    rw [hl]
    refine ⟨hin, before ++ found, .node hopened ?_ (hbefore.trans (by rw [herrors])) hlexical (fun hnil => ?_) ?_ hinner⟩
    · rw [hplace]
      exact isGap_place htrivia l'
    · rw [hplace, hnil]
      rfl
    · rw [hplace]
      exact (gap_place _ _).trans hgap

lemma yields_weaveIn {opened : List OpenNode} : (ss : List Sprout) → {l : Loom} → {rest : List Token} →
    innermost opened < l.nodes → (∀ e ∈ errorsIn ss, e.1.isLexical = false) →
    (∀ w ∈ wordsIn ss, isTrivia w.kind = false) → l.Feeds (isTrivia ·.kind) ((wordsIn ss).map Word.token ++ rest) →
    (weaveIn opened ss l).2.Feeds (isTrivia ·.kind) rest ∧
      ∃ found, Yields isTrivia opened l ss (weaveIn opened ss l).1 (weaveIn opened ss l).2 found
  | [], l, rest, hopened, _, _, h =>
    ⟨h, [], rfl, Nat.le_refl _, by simp, rfl, fun _ _ => .nil, fun hgap _ => hgap, fun _ _ hx => nomatch hx⟩
  | s :: ss, l, rest, hopened, hproblem, hsignificant, h => by
    rw [wordsIn, List.map_append, List.append_assoc] at h
    rw [errorsIn, List.forall_mem_append] at hproblem
    rw [wordsIn, List.forall_mem_append] at hsignificant
    obtain ⟨hfeeds, found, hs⟩ := yields_weave s hopened hproblem.1 hsignificant.1 h
    obtain ⟨hfeeds', found', hss⟩ :=
      yields_weaveIn ss (Nat.lt_of_lt_of_le hopened hs.nodes) hproblem.2 hsignificant.2 hfeeds
    exact ⟨hfeeds', found ++ found', hs.append hss hopened⟩

end

end Sprout

namespace Parser

/-- If a parser reads a text to its end, the tree renders what it grows, in front of blanks and comments. -/
lemma renders_tree {k : Kind} {body : Parser Unit} {isTrivia : Kind → Bool} {text : Text} {offset : Nat} {ts : List Token}
    {t : State} (ht : (body.run (.start isTrivia text offset ts)).2 = t) (hrest : t.rest = [])
    (hproblem : ∀ e ∈ Sprout.errorsIn t.grown.reverse, e.1.isLexical = false) :
    ∃ es gap, (body.tree k isTrivia text offset ts).root.children = es ++ gap ∧ Element.IsGap isTrivia gap ∧
      Renders isTrivia (attached (body.tree k isTrivia text offset ts).errors) t.grown.reverse es ∧
      attached (body.tree k isTrivia text offset ts).errors 0 = Sprout.own t.grown.reverse := by
  obtain ⟨taken, htaken, hgrown, -⟩ := (body.forward (.start isTrivia text offset ts)).moved
  rw [ht, hrest, List.append_nil] at htaken
  rw [ht] at hgrown
  replace htaken : (Words.ofTokens isTrivia ts).words = taken := htaken
  have hwords : Sprout.wordsIn t.grown.reverse = taken := hgrown
  have hkinds : ∀ w ∈ Sprout.wordsIn t.grown.reverse, isTrivia w.kind = false := by
    intro w hw
    rw [hwords, ← htaken] at hw
    have hmem := List.mem_map_of_mem (f := Word.token) hw
    rw [Words.tokens_ofTokens, List.mem_filter] at hmem
    simpa using hmem.2
  let start : Loom :=
    { words := (Words.ofTokens isTrivia ts).words, tail := (Words.ofTokens isTrivia ts).tail, position := offset, nodes := 1 }
  have hstart : start.Feeds (isTrivia ·.kind) ((Sprout.wordsIn t.grown.reverse).map Word.token ++ []) := by
    refine ⟨?_, (Words.trivia_ofTokens ts).1, (Words.trivia_ofTokens ts).2⟩
    rw [List.append_nil, hwords]
    exact congrArg (List.map Word.token) htaken
  obtain ⟨hfeeds, found, h⟩ :=
    Sprout.yields_weaveIn t.grown.reverse (show innermost [(0, k)] < start.nodes from Nat.zero_lt_one) hproblem hkinds
      hstart
  -- Behind the last word there are blanks and comments only, which bring lexical errors at most.
  generalize hwoven : Sprout.weaveIn [(0, k)] t.grown.reverse start = woven at hfeeds h
  obtain ⟨es, l⟩ := woven
  have htree : body.tree k isTrivia text offset ts =
      Sprout.tree k t.grown.reverse text offset (Words.ofTokens isTrivia ts) := by rw [← ht]; rfl
  have hnil : l.words = [] := List.map_eq_nil_iff.1 hfeeds.tokens
  have hpending : (Words.mk l.words l.tail).toTokens = l.tail := by rw [hnil]; rfl
  obtain ⟨last, hlast, hlexical⟩ :=
    Loom.finds_place [(0, k)] l.tail { l with words := [], tail := [] }
  have hnone : ∀ i, attached last i = [] := fun i => attached_eq_nil fun e he hp => by
    rw [hlexical e he] at hp
    exact Bool.noConfusion hp
  have hwhole : Sprout.tree k t.grown.reverse text offset (Words.ofTokens isTrivia ts) =
      let placed := Loom.place [(0, k)] l.tail { l with words := [], tail := [] }
      { text, offset, errors := placed.2.errors.reverse,
        root := ⟨0, k, .between offset placed.2.position, es ++ placed.1⟩ } := by
    rw [Sprout.tree]
    dsimp only
    rw [hwoven]
    dsimp only
    rw [Loom.placeRest, hpending]
  rw [htree, hwhole]
  have herrors : (Loom.place [(0, k)] l.tail { l with words := [], tail := [] }).2.errors.reverse = found ++ last := by
    have hfound : l.errors = found.reverse := h.finds.trans (List.append_nil _)
    have hlast' : (Loom.place [(0, k)] l.tail { l with words := [], tail := [] }).2.errors = last.reverse ++ l.errors := hlast
    rw [hlast', hfound, List.reverse_append, List.reverse_reverse, List.reverse_reverse]
  dsimp only
  rw [herrors]
  have hattached : ∀ i, attached (found ++ last) i = attached found i := fun i => by
    rw [attached_append, hnone, List.append_nil]
  refine ⟨es, _, rfl, Loom.isGap_place hfeeds.tail _, ?_, ?_⟩
  · exact h.renders _ fun i _ _ => hattached i
  · rw [hattached]
    exact h.own

end Parser

end GoFront
