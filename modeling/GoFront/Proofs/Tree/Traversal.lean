import GoFront.Proofs.Tree.Layout
import GoFront.Tree.Traversal
import Mathlib.Data.List.Infix

/-!
# Walks through an arena

The stack of a walker stands for what is still to come: the parts left of every node it is in, and the leaving of that
node (`yields_elements`). So a walker in the arena of a tree takes the steps of the walk over the tree, and no others
(`Assembled.yields`).

What lies at and below a node follows without a gap in the walk from the root (`infix_descendants`, `infix_leaves`).
Nodes and tokens are numbered along that walk, so those of one node have numbers that follow one another.
-/

namespace GoFront

namespace Arena

/-! ## The steps of a walker -/

/-- From `w` on a walker takes these steps, and then there is no other. -/
inductive Yields (a : Arena) (skip : Nat → Bool) : Walker → List Visit → Prop
  | done {w : Walker} : w.step? a skip = none → Yields a skip w []
  | next {w w' : Walker} {v : Visit} {vs : List Visit} : w.step? a skip = some (v, w') → Yields a skip w' vs →
      Yields a skip w (v :: vs)

namespace Yields

variable {a : Arena} {skip : Nat → Bool} {w : Walker} {vs us : List Visit}

/-- A walker that is not cut off takes all its steps. -/
lemma take_eq (h : Yields a skip w vs) {n : Nat} (hn : vs.length ≤ n) : w.take a skip n = vs := by
  induction h generalizing n with
  | done h => cases n <;> simp [Walker.take, h]
  | next h _ ih =>
    obtain ⟨n, rfl⟩ : ∃ m, n = m + 1 := ⟨n - 1, by simp only [List.length_cons] at hn; omega⟩
    rw [Walker.take, h]
    exact congrArg _ (ih (by simpa using hn))

/-- A walker cannot go two ways. -/
lemma unique (h : Yields a skip w vs) (h' : Yields a skip w us) : vs = us := by
  have htake := h.take_eq (Nat.le_max_left vs.length us.length)
  rw [h'.take_eq (Nat.le_max_right vs.length us.length)] at htake
  exact htake.symm

end Yields

section Elements

open Element

variable {a : Arena} {skip : Nat → Bool}

mutual

/-- A walker that comes to an element walks over it and goes on behind it. -/
lemma yields_element {i : Nat} {cs : List Child} {os : List (Nat × List Child)} {vs : List Visit} : (e : Element) →
    a.Holds (descendants e) → Yields a skip ⟨none, (i, cs) :: os⟩ vs →
    Yields a skip ⟨none, (i, e.child :: cs) :: os⟩ ((e.events fun n => skip n.id).map WalkEvent.visit ++ vs)
  | .token j t, _, h => .next rfl h
  | .node j k s ps, hholds, h => by
    have hparts : a.parts j = ps.map child := hholds ⟨j, k, s, ps⟩ (by simp [descendants])
    have hinner : a.Holds (descendantsIn ps) := fun m hm => hholds m (by simp [descendants, hm])
    have hleave : Yields a skip ⟨none, (j, []) :: (i, cs) :: os⟩ (.leave j :: vs) := .next rfl h
    have hstep : Walker.step? a skip ⟨none, (i, .node j :: cs) :: os⟩ =
        some (.enter j, ⟨none, (j, if skip j then [] else ps.map child) :: (i, cs) :: os⟩) := by
      simp only [Walker.step?, Walker.next?, Option.map_some, hparts]
      split <;> rfl
    refine .next hstep ?_
    cases hskip : skip j with
    | true => simpa [hskip, WalkEvent.visit] using hleave
    | false => simpa [hskip, WalkEvent.visit] using yields_elements ps hinner hleave

lemma yields_elements {i : Nat} {os : List (Nat × List Child)} {vs : List Visit} : (es : List Element) →
    a.Holds (descendantsIn es) → Yields a skip ⟨none, (i, []) :: os⟩ vs →
    Yields a skip ⟨none, (i, es.map child) :: os⟩ ((eventsIn (fun n => skip n.id) es).map WalkEvent.visit ++ vs)
  | [], _, h => h
  | e :: es, hholds, h => by
    have hrest := yields_elements es (fun m hm => hholds m (List.mem_append_right _ hm)) h
    have hfirst := yields_element e (fun m hm => hholds m (List.mem_append_left _ hm)) hrest
    simpa [eventsIn] using hfirst

end

/-- A walker that starts from a node walks over it. -/
lemma yields_node {n : Node} (h : a.Holds n.descendants) :
    Yields a skip { start := some n.id } ((n.events fun m => skip m.id).map WalkEvent.visit) := by
  have hparts : a.parts n.id = n.children.map child := h n (by simp [Node.descendants, Node.element, descendants])
  have hinner : a.Holds (descendantsIn n.children) := fun m hm =>
    h m (by simp [Node.descendants, Node.element, descendants, hm])
  have hend : Yields a skip ⟨none, [(n.id, [])]⟩ [.leave n.id] := .next rfl (.done rfl)
  have hstep : Walker.step? a skip { start := some n.id } =
      some (.enter n.id, ⟨none, [(n.id, if skip n.id then [] else n.children.map child)]⟩) := by
    simp only [Walker.step?, Walker.next?, Option.map_some, hparts]
    split <;> rfl
  refine .next hstep ?_
  cases hskip : skip n.id with
  | true => simpa [hskip, WalkEvent.visit] using hend
  | false => simpa [hskip, WalkEvent.visit] using yields_elements n.children hinner hend

end Elements

end Arena

/-! ## The shape of a walk -/

namespace Element

mutual

/-- A walk over an element is back where it was when it ends. -/
lemma foldlM_events (skip : Node → Bool) {i : Nat} {a : List Nat} : (e : Element) →
    ((e.events skip).map WalkEvent.visit).foldlM Visit.open? (i :: a) = some (i :: a)
  | .token _ _ => rfl
  | .node j k s cs => by
    have hinner := foldlM_eventsIn skip (i := j) (a := i :: a) cs
    cases hskip : skip ⟨j, k, s, cs⟩ <;> simp [events, hskip, WalkEvent.visit, Visit.open?, hinner]

lemma foldlM_eventsIn (skip : Node → Bool) {i : Nat} {a : List Nat} : (es : List Element) →
    ((eventsIn skip es).map WalkEvent.visit).foldlM Visit.open? (i :: a) = some (i :: a)
  | [] => rfl
  | e :: es => by simp [eventsIn, foldlM_events skip e, foldlM_eventsIn skip es]

end

/-- A walk over a node leaves every node it comes to, the innermost one first. -/
lemma balanced_events (skip : Node → Bool) (n : Node) : Visit.Balanced ((n.events skip).map WalkEvent.visit) := by
  have hinner := foldlM_eventsIn skip (i := n.id) (a := []) n.children
  cases hskip : skip ⟨n.id, n.kind, n.span, n.children⟩ <;>
    simp [Visit.Balanced, Node.events, Node.element, events, hskip, WalkEvent.visit, Visit.open?, hinner]

mutual

/-- The nodes at and below an element that lie below none of the nodes `skip` chooses. -/
def kept (skip : Node → Bool) : Element → List Node
  | .token _ _ => []
  | .node i k s cs => ⟨i, k, s, cs⟩ :: if skip ⟨i, k, s, cs⟩ then [] else keptIn skip cs

/-- Those at and below elements that follow one another. -/
def keptIn (skip : Node → Bool) : List Element → List Node
  | [] => []
  | e :: es => kept skip e ++ keptIn skip es

end

mutual

lemma kept_false : (e : Element) → kept (fun _ => false) e = descendants e
  | .token _ _ => rfl
  | .node _ _ _ cs => by simp [kept, descendants, keptIn_false cs]

lemma keptIn_false : (es : List Element) → keptIn (fun _ => false) es = descendantsIn es
  | [] => rfl
  | e :: es => by rw [keptIn, descendantsIn, kept_false e, keptIn_false es]

end

mutual

/-- A walk comes to the nodes at and below an element, but not to those below a node whose parts it leaves out. -/
lemma entered_events (skip : Node → Bool) : (e : Element) →
    ((e.events skip).map WalkEvent.visit).filterMap Visit.entered? = (kept skip e).map Node.id
  | .token _ _ => rfl
  | .node i k s cs => by
    have hinner := entered_eventsIn skip cs
    cases hskip : skip ⟨i, k, s, cs⟩ <;>
      simp [events, kept, WalkEvent.visit, Visit.entered?, hskip, hinner, -List.filterMap_map]

lemma entered_eventsIn (skip : Node → Bool) : (es : List Element) →
    ((eventsIn skip es).map WalkEvent.visit).filterMap Visit.entered? = (keptIn skip es).map Node.id
  | [] => rfl
  | e :: es => by
    rw [eventsIn, keptIn, List.map_append, List.filterMap_append, entered_events skip e, entered_eventsIn skip es,
      List.map_append]

end

mutual

/-- A walk passes the tokens at and below an element. -/
lemma tokens_events : (e : Element) →
    ((e.events fun _ => false).map WalkEvent.visit).filterMap Visit.token? = (leaves e).map Leaf.id
  | .token _ _ => rfl
  | .node _ _ _ cs => by
    have hinner := tokens_eventsIn cs
    simp [events, leaves, WalkEvent.visit, List.filterMap_cons, Visit.token?, List.filterMap_append, hinner,
      -List.filterMap_map]

lemma tokens_eventsIn : (es : List Element) →
    ((eventsIn (fun _ => false) es).map WalkEvent.visit).filterMap Visit.token? = (leavesIn es).map Leaf.id
  | [] => rfl
  | e :: es => by
    rw [eventsIn, leavesIn, List.map_append, List.filterMap_append, tokens_events e, tokens_eventsIn es,
      List.map_append]

end

mutual

/-- A walk comes to every node once, leaves it once, and passes every token once. -/
lemma length_events : (e : Element) →
    (e.events fun _ => false).length = 2 * (descendants e).length + (leaves e).length
  | .token _ _ => rfl
  | .node _ _ _ cs => by
    have hinner := length_eventsIn cs
    simp [events, descendants, leaves, hinner]
    omega

lemma length_eventsIn : (es : List Element) →
    (eventsIn (fun _ => false) es).length = 2 * (descendantsIn es).length + (leavesIn es).length
  | [] => rfl
  | e :: es => by
    simp only [eventsIn, descendantsIn, leavesIn, List.length_append, length_events e, length_eventsIn es]
    omega

end

/-! ## What is below a node stands together -/

mutual

/-- The nodes and the tokens at and below a node follow one another in a walk over an element around it. -/
lemma infix_descendants {m : Node} : (e : Element) → m ∈ descendants e →
    m.descendants <:+: descendants e ∧ m.leaves <:+: leaves e
  | .token _ _, h => nomatch h
  | .node i k s cs, h => by
    rcases List.mem_cons.1 h with rfl | h
    · exact ⟨List.infix_refl _, List.infix_refl _⟩
    · obtain ⟨hnodes, hleaves⟩ := infix_descendantsIn cs h
      exact ⟨List.infix_cons hnodes, hleaves⟩

lemma infix_descendantsIn {m : Node} : (es : List Element) → m ∈ descendantsIn es →
    m.descendants <:+: descendantsIn es ∧ m.leaves <:+: leavesIn es
  | [], h => nomatch h
  | e :: es, h => by
    rw [descendantsIn, leavesIn]
    rcases List.mem_append.1 h with h | h
    · obtain ⟨hnodes, hleaves⟩ := infix_descendants e h
      exact ⟨hnodes.trans (List.prefix_append _ _).isInfix, hleaves.trans (List.prefix_append _ _).isInfix⟩
    · obtain ⟨hnodes, hleaves⟩ := infix_descendantsIn es h
      exact ⟨hnodes.trans (List.suffix_append _ _).isInfix, hleaves.trans (List.suffix_append _ _).isInfix⟩

end

end Element

lemma Node.mem_descendants_self (n : Node) : n ∈ n.descendants := List.mem_cons_self

/-! ## Walks in the arena of a tree -/

/-- The walk `vs` from a node in an arena. -/
structure Arena.Walks (a : Arena) (n : Node) (vs : List Visit) : Prop where
  /-- A walker from the node takes its steps, and no others. -/
  yields : a.Yields (fun _ => false) { start := some n.id } vs
  /-- It is the walk over the node. -/
  events : vs = (n.events fun _ => false).map WalkEvent.visit
  /-- It leaves every node it comes to, the innermost one first. -/
  balanced : Visit.Balanced vs
  /-- It comes to nodes whose numbers follow one another, as many as there are at and below the node. -/
  entered : vs.filterMap Visit.entered? = List.range' n.id n.descendants.length
  /-- It passes the tokens below the node. -/
  leaves : vs.filterMap Visit.token? = n.leaves.map Leaf.id
  /-- Their numbers follow one another. -/
  tokens : ∃ first, vs.filterMap Visit.token? = List.range' first n.leaves.length
  /-- They tile the node, so they stand in the order of the text. -/
  tile : a.Tile n.span.start ((vs.filterMap Visit.token?).map .token) n.span.stop

namespace SyntaxTree.Assembled

open Element

variable {text : Text} {offset : Nat} {t : SyntaxTree} {n : Node}

/-- Numbers that are given in order are given in order to what stands together. -/
lemma exists_range'_of_infix {α : Type} {f : α → Nat} {xs ys : List α} {k : Nat} (h : xs <:+: ys)
    (hys : ys.map f = List.range k) : ∃ first, xs.map f = List.range' first xs.length := by
  obtain ⟨before, after, rfl⟩ := h
  rw [List.map_append, List.map_append, List.append_assoc, List.range_eq_range'] at hys
  obtain ⟨i, -, -, hrest⟩ := List.range'_eq_append_iff.1 hys.symm
  obtain ⟨m, -, hxs, -⟩ := List.range'_eq_append_iff.1 hrest.symm
  have hlength : xs.length = m := by simpa using congrArg List.length hxs
  exact ⟨_, hlength ▸ hxs⟩

/-- The nodes at and below a node are numbered from it on. -/
lemma ids_eq_range' (h : t.Assembled text offset) (hn : n ∈ t.root.descendants) :
    n.descendants.map Node.id = List.range' n.id n.descendants.length := by
  obtain ⟨first, hfirst⟩ := exists_range'_of_infix (infix_descendants t.root.element hn).1 h.nodeIds
  have hhead : n.id = first := by
    have := congrArg List.head? hfirst
    simpa [Node.descendants, Node.element, descendants, List.range'_succ] using this
  rw [hfirst, hhead]

/-- A node that is below another one has a larger number. -/
lemma lt_of_mem_nodes (h : t.Assembled text offset) (hn : n ∈ t.root.descendants) {m : Node} (hm : m ∈ n.nodes) :
    n.id < m.id := by
  have hids := h.ids_eq_range' hn
  obtain ⟨e, he, hem⟩ := List.mem_filterMap.1 hm
  have hmem : m ∈ descendantsIn n.children := by
    cases e with
    | token j u => cases hem
    | node j k s cs =>
      obtain rfl := Option.some.inj hem
      exact mem_descendantsIn.2 ⟨_, he, List.mem_cons_self⟩
  rw [Node.descendants, Node.element, descendants, List.map_cons, List.length_cons, List.range'_succ,
    List.cons.injEq] at hids
  have hlist : m.id ∈ (descendantsIn n.children).map Node.id := List.mem_map_of_mem hmem
  rw [hids.2, List.mem_range'_1] at hlist
  omega

/-- A walker in the arena of a tree takes the steps of the walk over the tree. -/
lemma walks (h : t.Assembled text offset) (hn : n ∈ t.root.descendants) :
    t.arena.Walks n (t.arena.visits n.id) := by
  obtain ⟨hnodes, hleaves⟩ := infix_descendants t.root.element hn
  have hholds : t.arena.Holds n.descendants := fun m hm => h.holds m (hnodes.subset hm)
  have hyields : t.arena.Yields (fun _ => false) { start := some n.id }
      ((n.events fun _ => false).map WalkEvent.visit) := Arena.yields_node hholds
  have hlength : ((n.events fun _ => false).map WalkEvent.visit).length ≤
      2 * t.arena.nodes.length + t.arena.tokens.length := by
    have h₁ : n.descendants.length ≤ t.root.descendants.length := hnodes.length_le
    have h₂ : n.leaves.length ≤ t.root.leaves.length := hleaves.length_le
    rw [List.length_map, length_nodes, length_tokens, Node.events, length_events]
    exact Nat.add_le_add (Nat.mul_le_mul_left 2 h₁) h₂
  have hvisits : t.arena.visits n.id = (n.events fun _ => false).map WalkEvent.visit := hyields.take_eq hlength
  have htokens : ((n.events fun _ => false).map WalkEvent.visit).filterMap Visit.token? = n.leaves.map Leaf.id :=
    tokens_events n.element
  rw [hvisits]
  refine ⟨hyields, rfl, balanced_events _ n, ?_, htokens, ?_, ?_⟩
  · rw [Node.events, entered_events, kept_false]
    exact h.ids_eq_range' hn
  · rw [htokens]
    exact exists_range'_of_infix hleaves h.leafIds
  · have htile : Element.Tile n.span.start (n.leaves.map Leaf.element) n.span.stop :=
      Element.tile_leaves n.element fun m hm => h.tiled m (hnodes.subset hm)
    have hspan : ∀ e ∈ n.leaves.map Leaf.element, t.arena.span? e.child = some e.span := by
      intro e he
      obtain ⟨l, hl, rfl⟩ := List.mem_map.1 he
      simp [child, Arena.span?, h.entry_of_mem_leaves (hleaves.subset hl), Leaf.entry, Element.span]
    rw [htokens, List.map_map]
    simpa [Function.comp_def, child] using Arena.tile_map_child htile hspan

lemma below_eq (h : t.Assembled text offset) (hn : n ∈ t.root.descendants) :
    t.arena.below n.id = n.descendants.map Node.id := by
  rw [Arena.below, (h.walks hn).entered, h.ids_eq_range' hn]

end SyntaxTree.Assembled

end GoFront
