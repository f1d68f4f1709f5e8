import GoFront.Proofs.Parse.Template.Outcome
import GoFront.Proofs.Parse.Template.Wording

/-!
# Blocks, `else` branches and `end`s in a tree

In the tree of a template an `end` stands as the last part of the block it closes, and an `else` in a condition or a loop.
Outside all blocks both are errors. A block without an `end` carries the error that it is missing, once, over the
directive that opens it. This follows from the form of what the grammar grows, since the tree renders it, and since no
other error that belongs to such a node has the same message.
-/

namespace GoFront

/-! ## Nodes and what is said about them -/

/-- A stretch runs from the start of a token to the end of another. -/
def Span.Runs (r : Span) (first last : Option Leaf) : Prop :=
  ∃ a ∈ first, ∃ z ∈ last, r = .between a.span.start z.span.stop

/-- The tokens below a node that are no blanks. -/
def Node.visible (n : Node) : List Leaf := n.leaves.filter (·.kind != .whitespace)

/-- The tokens of a block, blanks apart, before its sequence: those of the directive that opens it. -/
def Node.opening (n : Node) : List Leaf :=
  (Element.leavesIn (n.children.takeWhile fun e => e.node?.all (·.kind != .templateList))).filter (·.kind != .whitespace)

/-- The errors of a tree that belong to a node and say something. -/
def SyntaxTree.saying (t : SyntaxTree) (n : Node) (message : String) : List SyntaxError :=
  t.errors.filter fun e => e.node = n.id ∧ e.message = message

/-- If no lexical error reads like that, what is said about a node is among the errors that belong to it. -/
lemma SyntaxTree.map_report_saying {t : SyntaxTree} (n : Node) {message : String}
    (h : ∀ e ∈ t.errors, e.problem.isLexical = true → e.message ≠ message) :
    (t.saying n message).map SyntaxError.report = (attached t.errors n.id).filter fun x => x.1.message = message := by
  rw [saying, attached, List.filter_map, List.filter_filter]
  refine congrArg (List.map SyntaxError.report) (List.filter_congr fun e he => ?_)
  have hreport : e.report.1.message = e.message := rfl
  cases hlexical : e.problem.isLexical with
  | true => simp [h e he hlexical, hreport]
  | false => simp [hreport, Bool.and_comm]

/-- The stretch of words is that of their tokens. -/
lemma Word.runs_spanOf {ls : List Leaf} {ws : List Word} (h : ls.map Leaf.token = ws.map Word.token) (hne : ws ≠ []) :
    (Word.spanOf ws).Runs ls.head? ls.getLast? := by
  have hls : ls ≠ [] := by
    rintro rfl
    exact hne (List.map_eq_nil_iff.1 h.symm)
  have hfirst := congrArg List.head? h
  have hlast := congrArg List.getLast? h
  rw [List.head?_map, List.head?_map, List.head?_eq_some_head hls, List.head?_eq_some_head hne] at hfirst
  rw [List.getLast?_map, List.getLast?_map, List.getLast?_eq_some_getLast hls, List.getLast?_eq_some_getLast hne] at hlast
  have ha : (ls.head hls).token = (ws.head hne).token := Option.some.inj hfirst
  have hz : (ls.getLast hls).token = (ws.getLast hne).token := Option.some.inj hlast
  refine ⟨_, List.head?_eq_some_head hls, _, List.getLast?_eq_some_getLast hls, ?_⟩
  rw [Word.spanOf, List.head?_eq_some_head hne, List.getLast?_eq_some_getLast hne, Leaf.span, Leaf.span, ha, hz]
  rfl

namespace Template

open GoFront.Parser Sprout

variable {d : Delimiters}

/-! ## Where `else` and `end` stand in what grows -/

/-- A node is a block, or else it has no `else` branch and no `end` among its parts. -/
def Arranged (d : Delimiters) (k : Kind) (cs : List Sprout) : Prop :=
  (∃ block inLoop ws, BlockNode d block inLoop (.node k cs) ws) ∨
    (∀ b ∈ blockForms, k ≠ b.kind) ∧ Kind.templateElse ∉ kindsIn cs ∧ Kind.templateEnd ∉ kindsIn cs

/-- Every node at and below a sprout is arranged. -/
def Arranges (d : Delimiters) (x : Sprout) : Prop := ∀ y ∈ x.nodes, Arranged d y.1 y.2

/-- A sprout that is no `else` branch and no `end`, and whose nodes are arranged. -/
structure Tidy (d : Delimiters) (x : Sprout) : Prop where
  arranges : Arranges d x
  apart : ∀ k ∈ kindsIn [x], k ≠ .templateElse ∧ k ≠ .templateEnd

lemma Arranges.node {k : Kind} {cs : List Sprout} (hk : Arranged d k cs) (hcs : ∀ c ∈ cs, Arranges d c) :
    Arranges d (.node k cs) := by
  refine List.forall_mem_cons.2 ⟨hk, fun y hy => ?_⟩
  obtain ⟨c, hc, hyc⟩ := mem_nodesIn.1 hy
  exact hcs c hc y hyc

lemma notMem_kindsIn {cs : List Sprout} (hcs : ∀ c ∈ cs, Tidy d c) :
    Kind.templateElse ∉ kindsIn cs ∧ Kind.templateEnd ∉ kindsIn cs := by
  have hkinds : ∀ k ∈ kindsIn cs, k ≠ .templateElse ∧ k ≠ .templateEnd := by
    intro k hk
    obtain ⟨ds, hds⟩ := mem_kindsIn.1 hk
    exact (hcs _ hds).apart k (mem_kindsIn.2 ⟨ds, List.mem_singleton_self _⟩)
  exact ⟨fun h => (hkinds _ h).1 rfl, fun h => (hkinds _ h).2 rfl⟩

/-- A node that is no block is arranged if its parts are tidy. -/
lemma arranges_node {k : Kind} {cs : List Sprout} (hk : ∀ b ∈ blockForms, k ≠ b.kind) (hcs : ∀ c ∈ cs, Tidy d c) :
    Arranges d (.node k cs) :=
  .node (.inr ⟨hk, notMem_kindsIn hcs⟩) fun c hc => (hcs c hc).arranges

namespace Tidy

variable {k : Kind} {cs : List Sprout}

lemma word {w : Word} : Tidy d (.word w) := ⟨fun _ h => (nomatch h), fun _ h => (nomatch h)⟩

lemma error {p : Problem} {r : Span} : Tidy d (.error p r) := ⟨fun _ h => (nomatch h), fun _ h => (nomatch h)⟩

lemma node (h : Arranges d (.node k cs)) (hk : k ≠ .templateElse ∧ k ≠ .templateEnd) : Tidy d (.node k cs) :=
  ⟨h, fun _ hkind => List.mem_singleton.1 hkind ▸ hk⟩

end Tidy

lemma IsPart.tidy {x : Sprout} (h : IsPart x) : Tidy d x := by
  have hdirective : (∀ b ∈ blockForms, b.kind ∈ directiveKinds) ∧ Kind.templateElse ∈ directiveKinds ∧
      Kind.templateEnd ∈ directiveKinds := by decide
  induction h with
  | word => exact .word
  | error => exact .error
  | node hk _ ih =>
    refine .node (arranges_node (fun b hb heq => hk (heq ▸ hdirective.1 b hb)) ih) ⟨?_, ?_⟩
    · rintro rfl
      exact hk hdirective.2.1
    · rintro rfl
      exact hk hdirective.2.2

lemma Closing.tidy {cs : List Sprout} {ws : List Word} (h : Closing cs ws) : ∀ c ∈ cs, Tidy d c := by
  cases h with
  | marker => exact List.forall_mem_singleton.2 .word
  | unclosed => exact List.forall_mem_singleton.2 .error
  | lost => exact fun c hc => nomatch hc

lemma Action.tidy {xs : List Sprout} {ws : List Word} (h : Action xs ws) : ∀ x ∈ xs, Tidy d x := by
  obtain ⟨-, hus, hcs⟩ := h
  exact List.forall_mem_cons.2 ⟨.word, List.forall_mem_append.2 ⟨fun u hu => (hus u hu).tidy, hcs.tidy⟩⟩

lemma IsElseFault.tidy {es : List Sprout} (h : IsElseFault d es) : ∀ e ∈ es, Tidy d e := by
  rcases h with rfl | ⟨p, r, rfl, -⟩
  · exact fun e he => nomatch he
  · exact List.forall_mem_singleton.2 .error

/-- Of every sprout in a row `P` holds, in front of something. -/
lemma Row.exists_of_mem {P : Sprout → List Word → Prop} {xs : List Sprout} {ws : List Word} (h : Row P xs ws) {x : Sprout}
    (hx : x ∈ xs) : ∃ ws', P x ws' := by
  induction h with
  | nil => exact nomatch hx
  | cons hy _ ih =>
    rcases List.mem_cons.1 hx with rfl | hx
    · exact ⟨_, hy⟩
    · exact ih hx

section

variable {block : Bool → Sprout → List Word → Prop} (hblock : ∀ {inLoop x ws}, block inLoop x ws → Tidy d x)

include hblock

lemma Item.tidy {inLoop : Bool} {x : Sprout} {ws : List Word} (h : Item d block inLoop x ws) : Tidy d x := by
  cases h with
  | text => exact .word
  | simple hk hxs =>
    have hkinds : ∀ k ∈ [Kind.templateAction, .templateCall, .templateReturn],
        (∀ b ∈ blockForms, k ≠ b.kind) ∧ k ≠ .templateElse ∧ k ≠ .templateEnd := by decide
    exact .node (arranges_node (hkinds _ hk).1 hxs.tidy) (hkinds _ hk).2
  | jump hk hxs =>
    have hkinds : ∀ p ∈ [(Kind.templateBreak, "break"), (.templateContinue, "continue")],
        (∀ b ∈ blockForms, p.1 ≠ b.kind) ∧ p.1 ≠ .templateElse ∧ p.1 ≠ .templateEnd := by decide
    refine .node (arranges_node (hkinds _ hk).1 (List.forall_mem_append.2 ⟨hxs.tidy, ?_⟩)) (hkinds _ hk).2
    split
    · exact fun c hc => nomatch hc
    · exact List.forall_mem_singleton.2 .error
  | block h => exact hblock h

lemma IsList.tidy {inLoop : Bool} {x : Sprout} {ws : List Word} (h : IsList d block inLoop x ws) : Tidy d x := by
  obtain ⟨hxs, -⟩ := h
  refine .node (arranges_node (by decide) fun y hy => ?_) (by decide)
  obtain ⟨ws', hy'⟩ := hxs.exists_of_mem hy
  exact hy'.tidy hblock

lemma IsElse.arranges {inLoop : Bool} {x : Sprout} {ws : List Word} (h : IsElse d block inLoop x ws) :
    Arranges d x := by
  obtain ⟨hxs, -, hes, hl⟩ := h
  refine arranges_node (by decide) (List.forall_mem_append.2 ⟨hxs.tidy, List.forall_mem_append.2 ⟨hes.tidy, ?_⟩⟩)
  exact List.forall_mem_singleton.2 (hl.tidy hblock)

lemma BlockNode.arranges {inLoop : Bool} {x : Sprout} {ws : List Word} (h : BlockNode d block inLoop x ws) : Arranges d x := by
  have hself := h
  obtain ⟨-, hxs, -, hl, hes, -, -, hy⟩ := h
  refine .node (.inl ⟨_, _, _, hself⟩) ?_
  refine List.forall_mem_append.2 ⟨fun x hx => (hxs.tidy x hx).arranges, List.forall_mem_cons.2 ⟨(hl.tidy hblock).arranges,
    List.forall_mem_append.2 ⟨fun e he => ?_, List.forall_mem_singleton.2 ?_⟩⟩⟩
  · obtain ⟨ws', he'⟩ := hes.exists_of_mem he
    exact he'.arranges hblock
  · cases hy with
    | closed hxs => exact arranges_node (by decide) hxs.tidy
    | missing => exact Tidy.error.arranges

lemma BlockNode.tidy {inLoop : Bool} {x : Sprout} {ws : List Word} (h : BlockNode d block inLoop x ws) : Tidy d x := by
  have harranges := h.arranges hblock
  obtain ⟨hb, -⟩ := h
  have hkinds : ∀ b ∈ blockForms, b.kind ≠ .templateElse ∧ b.kind ≠ .templateEnd := by decide
  exact .node harranges (hkinds _ hb)

end

lemma tidy_isBlock {levels : Nat} {inLoop : Bool} {x : Sprout} {ws : List Word} (h : IsBlock d levels inLoop x ws) :
    Tidy d x := by
  induction levels generalizing inLoop x ws with
  | zero =>
    obtain ⟨-⟩ := h
    refine .node (arranges_node (by decide) (List.forall_mem_cons.2 ⟨.error, fun c hc => ?_⟩)) (by decide)
    obtain ⟨v, -, rfl⟩ := List.mem_map.1 hc
    exact .word
  | succ levels ih => exact BlockNode.tidy ih h

lemma TopItem.arranges {x : Sprout} {ws : List Word} (h : TopItem d x ws) : Arranges d x := by
  cases h with
  | item h => exact (h.tidy tidy_isBlock).arranges
  | stray h =>
    obtain ⟨hk, hxs, -⟩ := h
    have hkinds : ∀ p ∈ [(Kind.templateEnd, Kind.endKeyword, "end"), (.templateElse, .elseKeyword, "else")],
        ∀ b ∈ blockForms, p.1 ≠ b.kind := by decide
    exact arranges_node (hkinds _ hk)
      (List.forall_mem_append.2 ⟨hxs.tidy, List.forall_mem_singleton.2 .error⟩)

/-! ## Where they stand in the tree -/

/-- The tree of a template matches blocks and `end`s, and tells where it cannot. -/
structure MatchesBlocks (d : Delimiters) (t : SyntaxTree) : Prop where
  /-- A block has at most one `end`, as its last part. -/
  closing : ∀ b ∈ blockForms, ∀ n ∈ t.root.descendants, n.kind = b.kind →
    n.nodesOf .templateEnd = [] ∨ ∃ m, n.nodesOf .templateEnd = [m] ∧ n.children.getLast? = some m.element
  /-- It has none exactly if it carries one error that it is missing. -/
  missing : ∀ b ∈ blockForms, ∀ n ∈ t.root.descendants, n.kind = b.kind →
    (n.nodesOf .templateEnd = [] ↔ ∃ e, t.saying n ("missing " ++ d.around "end" ++ " for " ++ d.around b.label) = [e])
  /-- The error is over the directive that opens the block. -/
  opening : ∀ b ∈ blockForms, ∀ n ∈ t.root.descendants, n.kind = b.kind →
    ∀ e ∈ t.saying n ("missing " ++ d.around "end" ++ " for " ++ d.around b.label),
      e.span.Runs n.leaves.head? n.opening.getLast?
  /-- An `end` or `else` stands outside all blocks exactly if it carries the error that it does, over all of it. -/
  stray : ∀ p ∈ [(Kind.templateEnd, "end"), (.templateElse, "else")], ∀ n ∈ t.root.descendants, n.kind = p.1 →
    (n ∈ t.root.nodes ↔
      ∃ e ∈ t.saying n ("unexpected " ++ d.around p.2), e.span.Runs n.visible.head? n.visible.getLast?)
  /-- Every other `else` stands in a condition or a loop. -/
  branches : ∀ n ∈ t.root.descendants, n.kind = .templateElse → n ∉ t.root.nodes →
    ∃ m ∈ t.root.descendants, m.kind ∈ [Kind.templateIf, .templateRange, .templateWith] ∧ n ∈ m.nodes
  /-- Every other `end` stands in a block. -/
  ends : ∀ n ∈ t.root.descendants, n.kind = .templateEnd → n ∉ t.root.nodes →
    ∃ m ∈ t.root.descendants, (∃ b ∈ blockForms, m.kind = b.kind) ∧ n ∈ m.nodes

/-! ### Errors of nodes -/

lemma own_eq_nil {cs : List Sprout} (h : ∀ c ∈ cs, ∃ k ds, c = .node k ds) : own cs = [] := by
  rw [own, List.filterMap_eq_nil_iff]
  intro c hc
  obtain ⟨k, ds, rfl⟩ := h c hc
  rfl

lemma Action.own_inner {xs : List Sprout} {ws : List Word} (h : Action xs ws) :
    ∀ x ∈ own xs, x.1.isInner = true ∨ x.1 = .unclosedAction := by
  rintro ⟨p, r⟩ hx
  have hmem := mem_own.1 hx
  obtain ⟨-, hus, hcs⟩ := h
  rcases List.mem_cons.1 hmem with hw | hmem
  · exact nomatch hw
  rcases List.mem_append.1 hmem with hu | hc
  · cases hus _ hu with
    | error hp => exact .inl hp
  · cases hcs with
    | marker => exact nomatch List.mem_singleton.1 hc
    | unclosed => exact .inr (Sprout.error.inj (List.mem_singleton.1 hc)).1
    | lost => exact nomatch hc

/-- Of what is told about an `else` branch or an `end` of a block, nothing reads as if it stood outside all blocks. -/
lemma own_ne_stray {block : Bool → Sprout → List Word → Prop} {inLoop : Bool} {keyword : String} {opener : Span}
    {ws : List Word} {k : Kind} {cs : List Sprout} {label : String} (hlabel : label.toList.length ≤ 4)
    (h : IsElse d block inLoop (.node k cs) ws ∨ Ending d keyword opener (.node k cs) ws) :
    ∀ x ∈ own cs, x.1.message ≠ (Problem.stray d label).message := by
  have haction : ∀ {xs ws}, Action xs ws → ∀ x ∈ own xs, x.1.message ≠ (Problem.stray d label).message :=
    fun h x hx => Problem.message_ne_stray (h.own_inner x hx) d label
  rcases h with ⟨hxs, -, hes, hl⟩ | h
  · obtain ⟨-, -⟩ := hl
    rw [own_append, own_append]
    refine List.forall_mem_append.2 ⟨haction hxs, List.forall_mem_append.2 ⟨?_, fun x hx => nomatch hx⟩⟩
    rcases hes with rfl | ⟨p, r, rfl, hp⟩
    · exact fun x hx => nomatch hx
    · exact List.forall_mem_singleton.2 (Problem.elseFault_ne_stray hp hlabel)
  · cases h with
    | closed hxs => exact haction hxs

/-- A node among the parts of a directive stands in it. -/
lemma Action.isPart_of_node {xs cs : List Sprout} {ws : List Word} {k : Kind} (h : Action xs ws)
    (hx : .node k cs ∈ xs) : IsPart (.node k cs) := by
  obtain ⟨-, hus, hcs⟩ := h
  rcases List.mem_cons.1 hx with hw | hx
  · exact nomatch hw
  rcases List.mem_append.1 hx with hu | hc
  · exact hus _ hu
  · cases hcs with
    | marker => exact nomatch List.mem_singleton.1 hc
    | unclosed => exact nomatch List.mem_singleton.1 hc
    | lost => exact nomatch hc

lemma Action.notMem_directiveKinds {xs cs : List Sprout} {ws : List Word} {k : Kind} (h : Action xs ws)
    (hx : .node k cs ∈ xs) : k ∉ directiveKinds := by
  cases h.isPart_of_node hx with
  | node hk => exact hk

/-! ### A block -/

section

variable {A : Nat → List (Problem × Span)} {n : Node} {cs : List Sprout} {block : Bool → Sprout → List Word → Prop}
  {inLoop : Bool} {ws : List Word} {b : BlockForm}

/-- Block directives are told apart by the kinds of their nodes. -/
lemma eq_of_kind_eq {b' : BlockForm} (hb : b ∈ blockForms) (hb' : b' ∈ blockForms) (h : b.kind = b'.kind) : b = b' := by
  have hall : ∀ b ∈ blockForms, ∀ b' ∈ blockForms, b.kind = b'.kind → b = b' := by decide
  exact hall b hb b' hb' h

/-- The tokens in front of the sequence of a block are the words of the directive that opens it. -/
lemma runs_opening {xs ys ls : List Sprout} {ws' : List Word} (hn : n.RendersParts isTrivia A cs)
    (hcs : cs = xs ++ (.node .templateList ls :: ys)) (hxs : Action xs ws') :
    (Word.spanOf (wordsIn xs)).Runs n.leaves.head? n.opening.getLast? := by
  have hparts := hn.parts
  rw [hcs] at hparts
  obtain ⟨fs, gs, hchildren, hfs, hgs⟩ := hparts.split
  obtain ⟨gap, l, es, rfl, hgap, hl, -, -⟩ := hgs.exists_of_node
  -- The first token of the block is that of the directive.
  have hbefore : ∀ e ∈ fs ++ gap, (e.node?.all (·.kind != .templateList)) = true := by
    refine List.forall_mem_append.2 ⟨fun e he => ?_, fun e he => ?_⟩
    · rw [Option.all_eq_true]
      intro m hm
      have hmem : m ∈ fs.filterMap Element.node? := List.mem_filterMap.2 ⟨e, he, hm⟩
      obtain ⟨ds, hds, -⟩ := hfs.exists_part hmem
      have hlist : m.kind ≠ .templateList := fun heq => hxs.notMem_directiveKinds hds (heq ▸ by decide)
      simpa using hlist
    · obtain ⟨i, t, rfl, -⟩ := hgap e he
      rfl
  have hopening : n.opening = (Element.leavesIn (fs ++ gap)).filter fun x => !isTrivia x.kind := by
    have hlist : (l.element.node?.all (·.kind != .templateList)) = false := by simp [hl]
    rw [Node.opening, hchildren, ← List.append_assoc, List.takeWhile_append_of_pos hbefore, List.takeWhile_cons, hlist]
    simp
    rfl
  have htokens : n.opening.map Leaf.token = (wordsIn xs).map Word.token := by
    rw [hopening, Element.leavesIn_append, List.filter_append, Renders.filter_leavesIn_gap hgap, List.append_nil]
    exact hfs.map_token_leavesIn
  have hne : wordsIn xs ≠ [] := by
    obtain ⟨-, -, -⟩ := hxs
    exact List.cons_ne_nil _ _
  have hruns := Word.runs_spanOf htokens hne
  have hfirst : n.opening.head? = n.leaves.head? := by
    have hleaves : n.leaves = Element.leavesIn (fs ++ gap) ++ Element.leavesIn (l.element :: es) := by
      rw [← Element.leavesIn_append, List.append_assoc, ← hchildren]
      rfl
    have hlead := hn.lead
    rw [hleaves] at hlead ⊢
    rw [hopening]
    cases hall : Element.leavesIn (fs ++ gap) with
    | nil =>
      rw [hopening, hall] at htokens
      exact absurd (List.map_eq_nil_iff.1 htokens.symm) hne
    | cons x ls =>
      rw [hall] at hlead
      have hx : isTrivia x.kind = false := hlead x rfl
      rw [List.filter_cons_of_pos (by simp [hx])]
      rfl
  exact hfirst ▸ hruns

/-- What is told about a block without an `end`, and what is told about one that has an `end`. -/
lemma closing_or_missing (hn : n.RendersParts isTrivia A cs) (h : BlockNode d block inLoop (.node n.kind cs) ws)
    (hb : b ∈ blockForms) (hkind : n.kind = b.kind) :
    (∃ m, n.nodesOf .templateEnd = [m] ∧ n.children.getLast? = some m.element ∧
      (A n.id).filter (fun x => x.1.message = (Problem.missingEnd d b.label).message) = []) ∨
    (n.nodesOf .templateEnd = [] ∧ ∃ r, r.Runs n.leaves.head? n.opening.getLast? ∧
      (A n.id).filter (fun x => x.1.message = (Problem.missingEnd d b.label).message) = [(.missingEnd d b.label, r)]) := by
  generalize hk : n.kind = k at h
  cases h with
  | @intro b' xs es l y ws hb' hxs _ hl hes _ _ hy =>
  obtain rfl : b = b' := eq_of_kind_eq hb hb' (hkind.symm.trans hk)
  obtain ⟨ls, rfl⟩ : ∃ ls, l = .node .templateList ls := by
    obtain ⟨-, -⟩ := hl
    exact ⟨_, rfl⟩
  -- What stands before the `end` is no `end`, and nothing there is told in the words for a missing one.
  have hbranch : ∀ e ∈ es, ∃ ds, e = .node .templateElse ds := by
    intro e he
    obtain ⟨ws', ⟨-⟩⟩ := hes.exists_of_mem he
    exact ⟨_, rfl⟩
  have hkinds : Kind.templateEnd ∉ kindsIn (xs ++ (.node .templateList ls :: es)) := by
    rw [kindsIn_append, List.mem_append, not_or]
    refine ⟨(notMem_kindsIn (d := d) hxs.tidy).2, fun hmem => ?_⟩
    obtain ⟨ds, hds⟩ := mem_kindsIn.1 hmem
    rcases List.mem_cons.1 hds with heq | he
    · exact nomatch (Sprout.node.inj heq).1
    · obtain ⟨ds', heq⟩ := hbranch _ he
      exact nomatch (Sprout.node.inj heq).1
  have hnone : (own xs).filter (fun x => x.1.message = (Problem.missingEnd d b.label).message) = [] := by
    rw [List.filter_eq_nil_iff]
    intro x hx heq
    refine Problem.not_missing_start (hxs.own_inner x hx) d ?_
    rw [of_decide_eq_true heq]
    exact Problem.prefix_append (Problem.prefix_append (List.prefix_refl _))
  have hown : A n.id = own xs ++ own [y] := by
    have hes : own es = [] := own_eq_nil fun e he => ⟨_, hbranch e he⟩
    rw [hn.own, own_append, show Sprout.node .templateList ls :: (es ++ [y]) = [.node .templateList ls] ++ (es ++ [y]) from rfl,
      own_append, own_append, hes]
    rfl
  rw [hown, List.filter_append, hnone, List.nil_append]
  cases hy with
  | @closed us _ _ _ =>
    left
    have hparts := hn.parts
    rw [show xs ++ (Sprout.node .templateList ls :: (es ++ [.node .templateEnd us])) =
      (xs ++ (.node .templateList ls :: es)) ++ [.node .templateEnd us] by simp] at hparts
    obtain ⟨fs, gs, hchildren, hfs, hgs⟩ := hparts.split
    obtain ⟨gap, m, rfl, hgap, hm, -⟩ := hgs.eq_concat
    refine ⟨m, ?_, by simp [hchildren], rfl⟩
    rw [Node.nodesOf, Node.nodes, hchildren, List.filterMap_append, List.filterMap_append, List.filter_append,
      hfs.filter_nodes_eq_nil hkinds, Renders.filterMap_node?_gap hgap]
    simp [hm]
  | missing =>
    right
    refine ⟨?_, Word.spanOf (wordsIn xs), runs_opening hn rfl hxs, by simp [own]⟩
    refine hn.parts.filter_nodes_eq_nil ?_
    rw [show xs ++ (Sprout.node .templateList ls :: (es ++ [Sprout.error (.missingEnd d b.label) (Word.spanOf (wordsIn xs))])) =
      (xs ++ (.node .templateList ls :: es)) ++ [Sprout.error (.missingEnd d b.label) (Word.spanOf (wordsIn xs))] by simp,
      kindsIn_append]
    simpa [kindsIn] using hkinds

/-- An `else` or `end` that is a part of a block: not every block has the former, and neither reads as if it stood outside
all blocks. -/
lemma part_of_block {m : Node} (hm : m.RendersParts isTrivia A cs) (h : BlockNode d block inLoop (.node m.kind cs) ws)
    (hn : n ∈ m.nodes) (hkind : n.kind = .templateElse ∨ n.kind = .templateEnd) :
    ∃ b ∈ blockForms, m.kind = b.kind ∧ (n.kind = .templateElse → b.named = false) ∧
      ∀ label : String, label.toList.length ≤ 4 → ∀ x ∈ A n.id, x.1.message ≠ (Problem.stray d label).message := by
  obtain ⟨ds, hds, hparts⟩ := hm.parts.exists_part hn
  rw [hparts.own]
  generalize m.kind = k at h
  cases h with
  | @intro b xs es l y ws hb hxs _ hl hes hnamed _ hy =>
  refine ⟨b, hb, rfl, ?_⟩
  have hdirective : n.kind ∈ directiveKinds ∧ n.kind ≠ .templateList := by
    rcases hkind with hk | hk <;> rw [hk] <;> decide
  rcases List.mem_append.1 hds with hx | hds
  · exact absurd hdirective.1 (hxs.notMem_directiveKinds hx)
  rcases List.mem_cons.1 hds with hlist | hds
  · obtain ⟨-, -⟩ := hl
    exact absurd (Sprout.node.inj hlist).1 hdirective.2
  rcases List.mem_append.1 hds with he | hy'
  · obtain ⟨ws', he'⟩ := hes.exists_of_mem he
    refine ⟨fun _ => ?_, fun label hlabel => own_ne_stray hlabel
      (show IsElse d block inLoop (.node n.kind ds) ws' ∨ Ending d "" (.emptyAt 0) (.node n.kind ds) ws' from .inl he')⟩
    rw [Bool.eq_false_iff]
    intro hb
    rw [hnamed hb] at he
    exact nomatch he
  · rw [← List.mem_singleton.1 hy'] at hy
    have hown := fun (label : String) (hlabel : label.toList.length ≤ 4) => own_ne_stray hlabel
      (show IsElse d block inLoop (.node n.kind ds) ws ∨ Ending d b.label _ (.node n.kind ds) ws from .inr hy)
    generalize hk : n.kind = k' at hy
    cases hy with
    | closed => exact ⟨fun h => (nomatch h), hown⟩

end

/-! ### The tree -/

section

variable (d) (host : HostLanguage) (offset : Nat) (text : Text)

/-- What is said about a node, in the words of an error of the grammar, is what grew in it. -/
lemma map_report_saying (n : Node) {p : Problem} (hp : p.IsGrammar) :
    ((parse d host offset text).saying n p.message).map SyntaxError.report =
      (attached (parse d host offset text).errors n.id).filter fun x => x.1.message = p.message :=
  SyntaxTree.map_report_saying n fun _ he hlexical => message_ne_of_isLexical he hlexical hp

variable {d host offset text}

/-- A node of the tree that is not its root is arranged. -/
lemma arranged_of_renders {A : Nat → List (Problem × Span)} {es : List Element}
    (hrenders : Renders isTrivia A (grownOf d host offset text) es) {n : Node} (hn : n ∈ Element.descendantsIn es) :
    ∃ cs, n.RendersParts isTrivia A cs ∧ Arranged d n.kind cs := by
  obtain ⟨cs, hcs, hparts⟩ := hrenders.exists_node hn
  obtain ⟨x, hx, hxs⟩ := mem_nodesIn.1 hcs
  obtain ⟨ws, hitem⟩ := (row_grownOf d host offset text).2.exists_of_mem hx
  exact ⟨cs, hparts, hitem.arranges _ hxs⟩

/-- A block of the tree grows as a block. -/
lemma block_of_renders {A : Nat → List (Problem × Span)} {es : List Element}
    (hrenders : Renders isTrivia A (grownOf d host offset text) es) {n : Node} (hn : n ∈ Element.descendantsIn es)
    {b : BlockForm} (hb : b ∈ blockForms) (hkind : n.kind = b.kind) :
    ∃ cs block inLoop ws, n.RendersParts isTrivia A cs ∧ BlockNode d block inLoop (.node n.kind cs) ws := by
  obtain ⟨cs, hparts, ⟨block, inLoop, ws, h⟩ | ⟨hno, -⟩⟩ := arranged_of_renders hrenders hn
  · exact ⟨cs, block, inLoop, ws, hparts, h⟩
  · exact absurd hkind (hno b hb)

/-- An `else` or `end` that stands in a block. -/
lemma inner_of_renders {A : Nat → List (Problem × Span)} {es : List Element}
    (hrenders : Renders isTrivia A (grownOf d host offset text) es) {n : Node} (hn : n ∈ Element.descendantsIn es)
    (hkind : n.kind = .templateElse ∨ n.kind = .templateEnd) (htop : n ∉ es.filterMap Element.node?) :
    ∃ m ∈ Element.descendantsIn es, n ∈ m.nodes ∧ ∃ b ∈ blockForms, m.kind = b.kind ∧
      (n.kind = .templateElse → b.named = false) ∧
      ∀ label : String, label.toList.length ≤ 4 → ∀ x ∈ A n.id, x.1.message ≠ (Problem.stray d label).message := by
  obtain ⟨m, hm, hnm⟩ := (Element.exists_parentIn es hn).resolve_left htop
  obtain ⟨cs, hparts, ⟨block, inLoop, ws, h⟩ | ⟨-, helse, hend⟩⟩ := arranged_of_renders hrenders hm
  · exact ⟨m, hm, hnm, part_of_block hparts h hnm hkind⟩
  · have hmem : n.kind ∈ kindsIn cs := by
      rw [← hparts.parts.map_kind_nodes]
      exact List.mem_map_of_mem hnm
    rcases hkind with hk | hk
    · exact absurd (hk ▸ hmem) helse
    · exact absurd (hk ▸ hmem) hend

/-- What can stand outside all blocks, and how it is called. -/
lemma eq_of_stray {k : Kind} {label : String} (h : (k, label) ∈ [(Kind.templateEnd, "end"), (.templateElse, "else")]) :
    (k = .templateElse ∨ k = .templateEnd) ∧ (label = "end" ∨ label = "else") ∧ label.toList.length ≤ 4 := by
  simp only [List.mem_cons, Prod.mk.injEq, List.not_mem_nil, or_false] at h
  rcases h with ⟨rfl, rfl⟩ | ⟨rfl, rfl⟩ <;> decide

/-- An `else` or `end` outside all blocks: what is told about it, and where. -/
lemma stray_of_renders {A : Nat → List (Problem × Span)} {es : List Element}
    (hrenders : Renders isTrivia A (grownOf d host offset text) es) {n : Node} {label : String}
    (hkind : (n.kind, label) ∈ [(Kind.templateEnd, "end"), (.templateElse, "else")])
    (htop : n ∈ es.filterMap Element.node?) :
    ∃ r, (Problem.stray d label, r) ∈ A n.id ∧ r.Runs n.visible.head? n.visible.getLast? := by
  obtain ⟨cs, hcs, hparts⟩ := hrenders.exists_part htop
  obtain ⟨ws, hitem⟩ := (row_grownOf d host offset text).2.exists_of_mem hcs
  obtain ⟨hneither, -⟩ := eq_of_stray hkind
  cases hitem with
  | item h =>
    obtain ⟨helse, hend⟩ := (h.tidy tidy_isBlock).apart _ (mem_kindsIn.2 ⟨cs, List.mem_singleton_self _⟩)
    exact absurd hneither (not_or.2 ⟨helse, hend⟩)
  | stray h =>
    generalize hk : n.kind = k at h hkind
    cases h with
    | @intro _ keyword label' xs _ hk' hxs _ =>
    have hlabel : label' = label := by
      simp only [List.mem_cons, Prod.mk.injEq, List.not_mem_nil, or_false] at hk' hkind
      rcases hkind with ⟨rfl, rfl⟩ | ⟨rfl, rfl⟩ <;> simp at hk' <;> exact hk'.2
    have hwords : wordsIn (xs ++ [Sprout.error (.stray d label') (Word.spanOf (wordsIn xs))]) = wordsIn xs := by
      simp [wordsIn, words]
    have hne : wordsIn xs ≠ [] := by
      obtain ⟨-, -, -⟩ := hxs
      exact List.cons_ne_nil _ _
    refine ⟨Word.spanOf (wordsIn xs), ?_, Word.runs_spanOf ?_ hne⟩
    · rw [hparts.own, mem_own, hlabel]
      simp
    · rw [← hwords]
      exact hparts.parts.map_token_leavesIn

variable (d host offset text) in
/-- What stands below the root of the tree of a text: it renders what grows from the text, and only the root is of
kind `template`. -/
lemma exists_rendered : ∃ es,
    Renders isTrivia (attached (parse d host offset text).errors) (grownOf d host offset text) es ∧
    (parse d host offset text).root.nodes = es.filterMap Element.node? ∧
    (∀ n ∈ Element.descendantsIn es, n ∈ (parse d host offset text).root.descendants) ∧
    ∀ n ∈ (parse d host offset text).root.descendants, n.kind ≠ .template → n ∈ Element.descendantsIn es := by
  obtain ⟨es, gap, hchildren, hgap, hrenders⟩ := renders_parse d host offset text
  have hroot : (parse d host offset text).root.kind = .template := (parse?_eq_ok d host offset text).2.kind
  generalize parse d host offset text = t at hchildren hrenders hroot ⊢
  refine ⟨es, hrenders, ?_, fun n hn => List.mem_cons_of_mem _ ?_, fun n hn hkind => ?_⟩
  · rw [Node.nodes, hchildren, List.filterMap_append, Renders.filterMap_node?_gap hgap, List.append_nil]
  · rw [hchildren, Element.descendantsIn_append]
    exact List.mem_append_left _ hn
  · rcases List.mem_cons.1 hn with rfl | hn
    · exact absurd hroot hkind
    · rw [hchildren, Element.descendantsIn_append, Renders.descendantsIn_gap hgap, List.append_nil] at hn
      exact hn

/-- A block has an `end` as its last part and is told nothing about it, or it has none and is told so once, over the
directive that opens it. -/
lemma block_of_parse {b : BlockForm} (hb : b ∈ blockForms) {n : Node}
    (hn : n ∈ (parse d host offset text).root.descendants) (hkind : n.kind = b.kind) :
    (∃ m, n.nodesOf .templateEnd = [m] ∧ n.children.getLast? = some m.element ∧
      (parse d host offset text).saying n (Problem.missingEnd d b.label).message = []) ∨
    (n.nodesOf .templateEnd = [] ∧ ∃ e, (parse d host offset text).saying n (Problem.missingEnd d b.label).message = [e] ∧
      e.span.Runs n.leaves.head? n.opening.getLast?) := by
  have hforms : ∀ b ∈ blockForms, b.kind ≠ .template := by decide
  obtain ⟨es, hrenders, -, -, hbelow⟩ := exists_rendered d host offset text
  have hreports := map_report_saying d host offset text n (p := .missingEnd d b.label) trivial
  obtain ⟨cs, block, inLoop, ws, hparts, h⟩ := block_of_renders hrenders (hbelow n hn (hkind ▸ hforms b hb)) hb hkind
  rcases closing_or_missing hparts h hb hkind with ⟨m, hm, hlast, hnone⟩ | ⟨hnone, r, hruns, hone⟩
  · exact .inl ⟨m, hm, hlast, List.map_eq_nil_iff.1 (hreports.trans hnone)⟩
  · obtain ⟨e, he, hreport⟩ := List.map_eq_singleton_iff.1 (hreports.trans hone)
    obtain rfl : e.span = r := congrArg Prod.snd hreport
    exact .inr ⟨hnone, e, he, hruns⟩

/-- An `else` or `end` below the root stands in a block, and it is not told that it does not. -/
lemma inner_of_parse {n : Node} (hn : n ∈ (parse d host offset text).root.descendants)
    (hkind : n.kind = .templateElse ∨ n.kind = .templateEnd) (hout : n ∉ (parse d host offset text).root.nodes) :
    ∃ m ∈ (parse d host offset text).root.descendants, n ∈ m.nodes ∧ ∃ b ∈ blockForms, m.kind = b.kind ∧
      (n.kind = .templateElse → b.named = false) ∧ ∀ label : String, label.toList.length ≤ 4 →
        ∀ x ∈ attached (parse d host offset text).errors n.id, x.1.message ≠ (Problem.stray d label).message := by
  obtain ⟨es, hrenders, hnodes, habove, hbelow⟩ := exists_rendered d host offset text
  have hother : n.kind ≠ .template := by rcases hkind with h | h <;> rw [h] <;> decide
  obtain ⟨m, hm, hrest⟩ := inner_of_renders hrenders (hbelow n hn hother) hkind (hnodes ▸ hout)
  exact ⟨m, habove m hm, hrest⟩

/-- An `end` or `else` stands outside all blocks exactly if it is told so, over all of it. -/
lemma stray_of_parse {n : Node} {label : String}
    (hp : (n.kind, label) ∈ [(Kind.templateEnd, "end"), (.templateElse, "else")])
    (hn : n ∈ (parse d host offset text).root.descendants) :
    n ∈ (parse d host offset text).root.nodes ↔
      ∃ e ∈ (parse d host offset text).saying n (Problem.stray d label).message,
        e.span.Runs n.visible.head? n.visible.getLast? := by
  obtain ⟨hneither, hlabel, hshort⟩ := eq_of_stray hp
  have hreports := map_report_saying d host offset text n (p := .stray d label) hlabel
  constructor
  · intro htop
    obtain ⟨es, hrenders, hnodes, -⟩ := exists_rendered d host offset text
    obtain ⟨r, hr, hruns⟩ := stray_of_renders hrenders hp (hnodes ▸ htop)
    have hmem : (Problem.stray d label, r) ∈
        ((parse d host offset text).saying n (Problem.stray d label).message).map SyntaxError.report := by
      rw [hreports, List.mem_filter]
      exact ⟨hr, decide_eq_true rfl⟩
    obtain ⟨e, he, hreport⟩ := List.mem_map.1 hmem
    obtain rfl : e.span = r := congrArg Prod.snd hreport
    exact ⟨e, he, hruns⟩
  · rintro ⟨e, he, -⟩
    by_contra hout
    obtain ⟨m, -, -, b, -, -, -, hne⟩ := inner_of_parse hn hneither hout
    have hmem := List.mem_map_of_mem (f := SyntaxError.report) he
    rw [hreports] at hmem
    obtain ⟨hown, hmessage⟩ := List.mem_filter.1 hmem
    exact hne label hshort _ hown (of_decide_eq_true hmessage)

end

/-- Blocks and `end`s are matched in the tree of every text. -/
lemma matchesBlocks_parse (d : Delimiters) (host : HostLanguage) (offset : Nat) (text : Text) :
    MatchesBlocks d (parse d host offset text) where
  closing b hb n hn hkind := by
    rcases block_of_parse hb hn hkind with ⟨m, hm, hlast, -⟩ | ⟨hnone, -⟩
    · exact .inr ⟨m, hm, hlast⟩
    · exact .inl hnone
  missing b hb n hn hkind := by
    rcases block_of_parse hb hn hkind with ⟨m, hm, -, hnone⟩ | ⟨hnone, e, he, -⟩
    · refine ⟨fun h => absurd (hm.symm.trans h) (List.cons_ne_nil _ _), ?_⟩
      rintro ⟨e, he⟩
      exact absurd (he.symm.trans hnone) (List.cons_ne_nil _ _)
    · exact ⟨fun _ => ⟨e, he⟩, fun _ => hnone⟩
  opening b hb n hn hkind e he := by
    rcases block_of_parse hb hn hkind with ⟨m, -, -, hnone⟩ | ⟨-, e', he', hruns⟩
    · have hmem : e ∈ (parse d host offset text).saying n (Problem.missingEnd d b.label).message := he
      rw [hnone] at hmem
      exact absurd hmem List.not_mem_nil
    · obtain rfl := List.mem_singleton.1 (he' ▸ he)
      exact hruns
  stray p hp n hn hkind := stray_of_parse (by rwa [hkind]) hn
  branches n hn hkind hout := by
    obtain ⟨m, hm, hnm, b, hb, hmkind, hnamed, -⟩ := inner_of_parse hn (.inl hkind) hout
    have hplain : ∀ b ∈ blockForms, b.named = false → b.kind ∈ [Kind.templateIf, .templateRange, .templateWith] := by decide
    exact ⟨m, hm, hmkind ▸ hplain b hb (hnamed hkind), hnm⟩
  ends n hn hkind hout := by
    obtain ⟨m, hm, hnm, b, hb, hmkind, -⟩ := inner_of_parse hn (.inr hkind) hout
    exact ⟨m, hm, ⟨b, hb, hmkind⟩, hnm⟩

/-- **Block matching is reported exactly**: in the tree of every stretch of a document that is parsed as a template,
whatever the delimiters and the host language, blocks without an `end` and `else` branches and `end`s without a block
are just those that carry the error that says so. -/
theorem blocks_matched (d : Delimiters) (host : HostLanguage) (before piece after : Text) : ∃ t,
    parseRange? d host (before ++ piece ++ after) before.size (before.size + piece.size) = .ok t ∧ MatchesBlocks d t :=
  ⟨_, parseRange?_eq_ok d host before piece after, matchesBlocks_parse d host before.size piece⟩

end Template

end GoFront
