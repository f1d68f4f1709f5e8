import GoFront.Proofs.Tree.Arena
import Mathlib.Data.List.Forall2
import Mathlib.Data.List.Nodup
import Mathlib.Data.List.Pairwise

/-!
# The layout of a tree

A tree that is laid out flat is still the same tree: the entry of a node describes it, and the stretch of the list of
parts that the entry names holds its parts (`Describes`). So a walk through the arena comes to the numbers of nodes and
tokens in order, each of them is a part of one node only, the stretches of two nodes do not overlap, and the parts of a
node tile it; `Arena.WellFormed` holds all of this.

The main statement is `Arena.build_wellFormed`: an arena is filled if and only if the steps fit, it is the layout of the
tree that they build, and it is well-formed.
-/

namespace GoFront

namespace Arena

/-- Parts that follow one another from one offset to another. -/
def Tile (a : Arena) : Nat → List Child → Nat → Prop
  | x, [], y => x = y
  | x, c :: cs, y => ∃ s, a.span? c = some s ∧ s.start = x ∧ a.Tile s.stop cs y

/-- What lies below the root: every other node, and every token. -/
def Below (a : Arena) : Child → Prop
  | .node i => 0 < i ∧ i < a.nodes.length
  | .token i => i < a.tokens.length

/-- The parts of two nodes stand at different places in the list of parts. -/
def NodeEntry.Apart (m n : NodeEntry) : Prop := m.stop ≤ n.first ∨ n.stop ≤ m.first

/-- An arena that holds a tree over its text. -/
structure WellFormed (a : Arena) : Prop where
  /-- The root is node 0 and covers the text. -/
  root : (a.nodes[0]?).map NodeEntry.span = some ⟨a.offset, a.text.size⟩
  /-- A walk from the root comes to the nodes in the order of their numbers. -/
  nodeOrder : (a.walk a.nodes.length (.node 0)).filterMap Child.node? = List.range a.nodes.length
  /-- It comes to the tokens in the order of their numbers. -/
  tokenOrder : (a.walk a.nodes.length (.node 0)).filterMap Child.token? = List.range a.tokens.length
  /-- In that order the tokens tile the text. -/
  tokens : a.Tile a.offset ((List.range a.tokens.length).map .token) (a.offset + a.text.size)
  /-- Only what lies below the root is a part of a node. -/
  below : ∀ i, ∀ c ∈ a.parts i, a.Below c
  /-- All of that is a part of one node, and of no other. -/
  parent : ∀ c, a.Below c → ∃ i, i < a.nodes.length ∧ (a.parts i).count c = 1 ∧ ∀ j, j ≠ i → c ∉ a.parts j
  /-- The parts of a node stand in the list of parts. -/
  inside : ∀ n ∈ a.nodes, n.stop ≤ a.children.length
  /-- Those of two nodes stand at different places in it. -/
  disjoint : ∀ (i j : Nat) (m n : NodeEntry), i ≠ j → a.nodes[i]? = some m → a.nodes[j]? = some n → m.Apart n
  /-- The parts of a node tile it. -/
  tiled : ∀ i n, a.nodes[i]? = some n → a.Tile n.span.start (a.parts i) n.span.stop

end Arena

namespace Element

open Arena

/-! ## Walks -/

mutual

/-- The numbers a walk over an element comes to, a node before its parts. -/
def preorder : Element → List Child
  | .token i _ => [.token i]
  | .node i _ _ cs => .node i :: preorderIn cs

/-- The numbers a walk over elements that follow one another comes to. -/
def preorderIn : List Element → List Child
  | [] => []
  | e :: es => preorder e ++ preorderIn es

end

mutual

lemma filterMap_node?_preorder : (e : Element) → (preorder e).filterMap Child.node? = (descendants e).map Node.id
  | .token _ _ => rfl
  | .node _ _ _ cs => by simp [preorder, descendants, Child.node?, filterMap_node?_preorderIn cs]

lemma filterMap_node?_preorderIn : (es : List Element) →
    (preorderIn es).filterMap Child.node? = (descendantsIn es).map Node.id
  | [] => rfl
  | e :: es => by simp [preorderIn, descendantsIn, filterMap_node?_preorder e, filterMap_node?_preorderIn es]

end

mutual

lemma filterMap_token?_preorder : (e : Element) → (preorder e).filterMap Child.token? = (leaves e).map Leaf.id
  | .token _ _ => rfl
  | .node i _ _ cs => by
    rw [preorder, leaves, List.filterMap_cons_none rfl, filterMap_token?_preorderIn cs]

lemma filterMap_token?_preorderIn : (es : List Element) →
    (preorderIn es).filterMap Child.token? = (leavesIn es).map Leaf.id
  | [] => rfl
  | e :: es => by simp [preorderIn, leavesIn, filterMap_token?_preorder e, filterMap_token?_preorderIn es]

end

/-! ## The list of parts -/

mutual

/-- An element and the parts below it are what a walk comes to, in another order. -/
lemma perm_preorder : (e : Element) → (e.child :: parts e).Perm (preorder e)
  | .token _ _ => .refl _
  | .node i _ _ cs => by
    rw [parts, preorder, child]
    exact (perm_preorderIn cs).cons _

lemma perm_preorderIn : (es : List Element) → (partsIn es ++ es.map child).Perm (preorderIn es)
  | [] => .refl _
  | e :: es => by
    have hmoved : (partsIn (e :: es) ++ (e :: es).map child).Perm
        ((e.child :: parts e) ++ (partsIn es ++ es.map child)) := by
      rw [partsIn, List.map_cons, List.cons_append, ← List.append_assoc]
      exact List.perm_middle
    exact hmoved.trans ((perm_preorder e).append (perm_preorderIn es))

end

mutual

/-- The parts below an element are the parts of the nodes at and below it. -/
lemma perm_parts : (e : Element) → (parts e).Perm ((descendants e).flatMap (·.children.map child))
  | .token _ _ => .refl _
  | .node _ _ _ cs => by
    rw [parts, descendants, List.flatMap_cons]
    exact List.perm_append_comm.trans ((perm_partsIn cs).append_left _)

lemma perm_partsIn : (es : List Element) → (partsIn es).Perm ((descendantsIn es).flatMap (·.children.map child))
  | [] => .refl _
  | e :: es => by
    rw [partsIn, descendantsIn, List.flatMap_append]
    exact (perm_parts e).append (perm_partsIn es)

end

/-! ## Entries and stretches of the list of parts -/

/-- The entry `n` describes the node `m`, and names the stretch of `children` that holds its parts. -/
structure Describes (children : List Child) (m : Node) (n : NodeEntry) : Prop where
  /-- The node covers the stretch of text. -/
  span : n.span = m.span
  /-- Its parts stand where the entry says. -/
  parts : (children.drop n.first).take n.count = m.children.map child

mutual

/-- The entries of an element describe its nodes, if its parts stand where they are put. -/
lemma describes_entries {children : List Child} (before after : List Child) : (e : Element) →
    children = before ++ (parts e ++ after) →
    List.Forall₂ (Describes children) (descendants e) (entries before.length e)
  | .token _ _, _ => .nil
  | .node i k s cs, h => by
    rw [parts, List.append_assoc] at h
    refine .cons ⟨rfl, ?_⟩ (describes_entriesIn before (cs.map child ++ after) cs h)
    have hfront : children = (before ++ partsIn cs) ++ (cs.map child ++ after) := by simp [h]
    rw [hfront, ← List.length_append, List.drop_left, ← List.length_map child, List.take_left]

lemma describes_entriesIn {children : List Child} (before after : List Child) : (es : List Element) →
    children = before ++ (partsIn es ++ after) →
    List.Forall₂ (Describes children) (descendantsIn es) (entriesIn before.length es)
  | [], _ => .nil
  | e :: es, h => by
    rw [partsIn, List.append_assoc] at h
    have hrest : children = (before ++ parts e) ++ (partsIn es ++ after) := by simp [h]
    have hes := describes_entriesIn (before ++ parts e) after es hrest
    rw [List.length_append] at hes
    exact List.rel_append (describes_entries before (partsIn es ++ after) e h) hes

end

mutual

/-- The parts of the nodes of an element stand between the place where they are put and the end of its parts, those of
different nodes at different places. -/
lemma apart_entries (place : Nat) : (e : Element) →
    (entries place e).Pairwise NodeEntry.Apart ∧
      ∀ n ∈ entries place e, place ≤ n.first ∧ n.stop ≤ place + (parts e).length
  | .token _ _ => by simp [entries]
  | .node _ _ _ cs => by
    obtain ⟨hpairs, hbounds⟩ := apart_entriesIn place cs
    simp only [entries, parts, List.pairwise_cons, List.mem_cons, List.length_append, List.length_map]
    refine ⟨⟨fun n hn => .inr (hbounds n hn).2, hpairs⟩, ?_⟩
    rintro n (rfl | hn)
    · simp only [NodeEntry.stop]
      omega
    · have := hbounds n hn
      omega

lemma apart_entriesIn (place : Nat) : (es : List Element) →
    (entriesIn place es).Pairwise NodeEntry.Apart ∧
      ∀ n ∈ entriesIn place es, place ≤ n.first ∧ n.stop ≤ place + (partsIn es).length
  | [] => by simp [entriesIn]
  | e :: es => by
    obtain ⟨hfirst, hbounds⟩ := apart_entries place e
    obtain ⟨hrest, hbounds'⟩ := apart_entriesIn (place + (parts e).length) es
    simp only [entriesIn, partsIn, List.length_append, List.mem_append]
    refine ⟨List.pairwise_append.2 ⟨hfirst, hrest, fun m hm n hn => .inl ?_⟩, ?_⟩
    · exact Nat.le_trans (hbounds m hm).2 (hbounds' n hn).1
    · rintro n (hn | hn)
      · have := hbounds n hn
        omega
      · have := hbounds' n hn
        omega

end

/-! ## What is below an element -/

lemma descendantsIn_eq_flatMap (es : List Element) : descendantsIn es = es.flatMap descendants := by
  induction es with
  | nil => rfl
  | cons e es ih => rw [descendantsIn, List.flatMap_cons, ih]

lemma mem_descendantsIn {m : Node} {es : List Element} : m ∈ descendantsIn es ↔ ∃ c ∈ es, m ∈ c.descendants := by
  rw [descendantsIn_eq_flatMap, List.mem_flatMap]

lemma leavesIn_eq_flatMap (es : List Element) : leavesIn es = es.flatMap leaves := by
  induction es with
  | nil => rfl
  | cons e es ih => rw [leavesIn, List.flatMap_cons, ih]

mutual

/-- The parts of a node at or below an element are below it. -/
lemma subset_of_mem_descendants {m : Node} : (e : Element) → m ∈ descendants e →
    descendantsIn m.children ⊆ descendants e ∧ leavesIn m.children ⊆ leaves e
  | .token _ _, h => by simp [descendants] at h
  | .node _ _ _ cs, h => by
    rw [descendants] at h ⊢
    rw [leaves]
    rcases List.mem_cons.1 h with rfl | h
    · exact ⟨List.subset_cons_self _ _, List.Subset.refl _⟩
    · obtain ⟨hnodes, hleaves⟩ := subset_of_mem_descendantsIn cs h
      exact ⟨List.subset_cons_of_subset _ hnodes, hleaves⟩

lemma subset_of_mem_descendantsIn {m : Node} : (es : List Element) → m ∈ descendantsIn es →
    descendantsIn m.children ⊆ descendantsIn es ∧ leavesIn m.children ⊆ leavesIn es
  | [], h => by simp [descendantsIn] at h
  | e :: es, h => by
    rw [descendantsIn] at h ⊢
    rw [leavesIn]
    rcases List.mem_append.1 h with h | h
    · obtain ⟨hnodes, hleaves⟩ := subset_of_mem_descendants e h
      exact ⟨List.subset_append_of_subset_left _ hnodes, List.subset_append_of_subset_left _ hleaves⟩
    · obtain ⟨hnodes, hleaves⟩ := subset_of_mem_descendantsIn es h
      exact ⟨List.subset_append_of_subset_right _ hnodes, List.subset_append_of_subset_right _ hleaves⟩

end

end Element

namespace Arena

open Element

/-- The arena knows the parts of every node of an element. -/
def Holds (a : Arena) (ms : List Node) : Prop := ∀ m ∈ ms, a.parts m.id = m.children.map child

mutual

/-- A walk through an arena is a walk over the element it holds. -/
lemma walk_eq_preorder {a : Arena} {d : Nat} : (e : Element) → a.Holds (descendants e) → (descendants e).length ≤ d →
    a.walk d e.child = preorder e
  | .token i _, _, _ => by cases d <;> rfl
  | .node i k s cs, hholds, hd => by
    obtain ⟨d, rfl⟩ : ∃ d', d = d' + 1 := ⟨d - 1, by simp [descendants] at hd; omega⟩
    have hparts : a.parts i = cs.map child := hholds ⟨i, k, s, cs⟩ (by simp [descendants])
    have hinner : a.Holds (descendantsIn cs) := fun m hm => hholds m (by simp [descendants, hm])
    rw [child, walk, preorder, hparts, walk_eq_preorderIn cs hinner (by simpa [descendants] using hd)]

lemma walk_eq_preorderIn {a : Arena} {d : Nat} : (es : List Element) → a.Holds (descendantsIn es) →
    (descendantsIn es).length ≤ d → (es.map child).flatMap (a.walk d) = preorderIn es
  | [], _, _ => rfl
  | e :: es, hholds, hd => by
    simp only [descendantsIn, List.length_append] at hd
    rw [List.map_cons, List.flatMap_cons, preorderIn,
      walk_eq_preorder e (fun m hm => hholds m (List.mem_append_left _ hm)) (by omega),
      walk_eq_preorderIn es (fun m hm => hholds m (List.mem_append_right _ hm)) (by omega)]

end

/-- Parts that tile as elements tile in the arena, if it knows the stretches of text they cover. -/
lemma tile_map_child {a : Arena} {x y : Nat} {es : List Element} (h : Element.Tile x es y)
    (hspan : ∀ e ∈ es, a.span? e.child = some e.span) : a.Tile x (es.map child) y := by
  induction es generalizing x with
  | nil => exact h
  | cons e es ih =>
    obtain ⟨hstart, hrest⟩ := h
    exact ⟨e.span, hspan e List.mem_cons_self, hstart, ih hrest fun e' he => hspan e' (List.mem_cons_of_mem _ he)⟩

lemma mem_filterMap_node? {cs : List Child} {i : Nat} : i ∈ cs.filterMap Child.node? ↔ .node i ∈ cs := by
  rw [List.mem_filterMap]
  constructor
  · rintro ⟨c, hc, hi⟩
    cases c with
    | node j => exact Option.some.inj hi ▸ hc
    | token j => cases hi
  · exact fun h => ⟨.node i, h, rfl⟩

lemma mem_filterMap_token? {cs : List Child} {i : Nat} : i ∈ cs.filterMap Child.token? ↔ .token i ∈ cs := by
  rw [List.mem_filterMap]
  constructor
  · rintro ⟨c, hc, hi⟩
    cases c with
    | node j => cases hi
    | token j => exact Option.some.inj hi ▸ hc
  · exact fun h => ⟨.token i, h, rfl⟩

/-- Numbers that a walk comes to are different if those of nodes are and those of tokens are. -/
lemma nodup_of_filterMap {cs : List Child} (hnode : (cs.filterMap Child.node?).Nodup)
    (htoken : (cs.filterMap Child.token?).Nodup) : cs.Nodup := by
  induction cs with
  | nil => exact List.nodup_nil
  | cons c cs ih =>
    cases c with
    | node i =>
      simp only [List.filterMap_cons, Child.node?, Child.token?, List.nodup_cons] at hnode htoken
      exact List.nodup_cons.2 ⟨fun hmem => hnode.1 (mem_filterMap_node?.2 hmem), ih hnode.2 htoken⟩
    | token i =>
      simp only [List.filterMap_cons, Child.node?, Child.token?, List.nodup_cons] at hnode htoken
      exact List.nodup_cons.2 ⟨fun hmem => htoken.1 (mem_filterMap_token?.2 hmem), ih hnode htoken.2⟩

end Arena

/-! ## The layout of an assembled tree -/

namespace SyntaxTree.Assembled

open Arena Element

variable {text : Text} {offset : Nat} {t : SyntaxTree}

lemma length_nodes (t : SyntaxTree) : t.arena.nodes.length = t.root.descendants.length :=
  Element.length_entries 0 t.root.element

lemma length_tokens (t : SyntaxTree) : t.arena.tokens.length = t.root.leaves.length := List.length_map _

/-- The node at a place has the number of that place, and the entry at that place describes it. -/
lemma describes_getElem (h : t.Assembled text offset) {i : Nat} (hi : i < t.root.descendants.length) :
    t.root.descendants[i].id = i ∧
      ∃ n, t.arena.nodes[i]? = some n ∧ Describes t.arena.children t.root.descendants[i] n := by
  have hdescribes : List.Forall₂ (Describes t.arena.children) t.root.descendants t.arena.nodes :=
    describes_entries [] [] t.root.element (by simp [SyntaxTree.arena])
  obtain ⟨hlength, hget⟩ := List.forall₂_iff_get.1 hdescribes
  have hi' : i < t.arena.nodes.length := hlength ▸ hi
  refine ⟨?_, t.arena.nodes[i], List.getElem?_eq_getElem hi', hget i hi hi'⟩
  have hid := congrArg (·[i]?) h.nodeIds
  simpa [hi] using hid

/-- The entry with the number of a node describes it. -/
lemma entry_of_mem (h : t.Assembled text offset) {m : Node} (hm : m ∈ t.root.descendants) :
    ∃ n, t.arena.nodes[m.id]? = some n ∧ Describes t.arena.children m n := by
  obtain ⟨i, hi, rfl⟩ := List.getElem_of_mem hm
  obtain ⟨hid, hentry⟩ := h.describes_getElem hi
  rwa [hid]

/-- Every entry describes a node. -/
lemma mem_of_entry (h : t.Assembled text offset) {i : Nat} {n : NodeEntry} (hn : t.arena.nodes[i]? = some n) :
    ∃ m ∈ t.root.descendants, m.id = i ∧ Describes t.arena.children m n := by
  have hi : i < t.root.descendants.length := length_nodes t ▸ (List.getElem?_eq_some_iff.1 hn).1
  obtain ⟨hid, n', hn', hdescribes⟩ := h.describes_getElem hi
  rw [hn] at hn'
  obtain rfl := Option.some.inj hn'
  exact ⟨_, List.getElem_mem hi, hid, hdescribes⟩

lemma holds (h : t.Assembled text offset) : t.arena.Holds t.root.descendants := by
  intro m hm
  obtain ⟨n, hn, hdescribes⟩ := h.entry_of_mem hm
  simpa [Arena.parts, hn] using hdescribes.parts

/-- The entry with the number of a token is its entry. -/
lemma entry_of_mem_leaves (h : t.Assembled text offset) {l : Leaf} (hl : l ∈ t.root.leaves) :
    t.arena.tokens[l.id]? = some l.entry := by
  obtain ⟨i, hi, rfl⟩ := List.getElem_of_mem hl
  have hid : t.root.leaves[i].id = i := by
    have := congrArg (·[i]?) h.leafIds
    simpa [hi] using this
  rw [hid]
  simp [SyntaxTree.arena, hi]

/-- The arena knows what stretch of text each element covers. -/
lemma span?_child (h : t.Assembled text offset) {m : Node} (hm : m ∈ t.root.descendants) {e : Element}
    (he : e ∈ m.children) : t.arena.span? e.child = some e.span := by
  obtain ⟨hnodes, hleaves⟩ := subset_of_mem_descendants t.root.element hm
  rw [descendantsIn_eq_flatMap] at hnodes
  rw [leavesIn_eq_flatMap] at hleaves
  cases e with
  | token i u =>
    have hmem : (⟨i, u⟩ : Leaf) ∈ t.root.leaves := hleaves (List.mem_flatMap.2 ⟨_, he, List.mem_singleton_self _⟩)
    simpa [child, Arena.span?, Element.span, Leaf.entry] using congrArg (·.map TokenEntry.span) (h.entry_of_mem_leaves hmem)
  | node i k s cs =>
    have hmem : (⟨i, k, s, cs⟩ : Node) ∈ t.root.descendants :=
      hnodes (List.mem_flatMap.2 ⟨_, he, by simp [descendants]⟩)
    obtain ⟨n, hn, hdescribes⟩ := h.entry_of_mem hmem
    simpa [child, Arena.span?, hn, Element.span] using hdescribes.span

lemma root_mem (t : SyntaxTree) : t.root ∈ t.root.descendants := by
  simp [Node.descendants, Node.element, descendants]

lemma root_id (h : t.Assembled text offset) : t.root.id = 0 := by
  have hid := congrArg (·[0]?) h.nodeIds
  simpa [Node.descendants, Node.element, descendants] using hid

lemma root_child (h : t.Assembled text offset) : t.root.element.child = .node 0 := by
  rw [Node.element, child, h.root_id]

/-- A walk through the arena is a walk over the tree. -/
lemma walk_eq (h : t.Assembled text offset) :
    t.arena.walk t.arena.nodes.length (.node 0) = preorder t.root.element := by
  rw [← h.root_child]
  exact walk_eq_preorder t.root.element h.holds (Nat.le_of_eq (length_nodes t).symm)

lemma nodeOrder (h : t.Assembled text offset) :
    (preorder t.root.element).filterMap Child.node? = List.range t.arena.nodes.length := by
  rw [filterMap_node?_preorder, length_nodes]
  exact h.nodeIds

lemma tokenOrder (h : t.Assembled text offset) :
    (preorder t.root.element).filterMap Child.token? = List.range t.arena.tokens.length := by
  rw [filterMap_token?_preorder, length_tokens]
  exact h.leafIds

/-- The parts of all nodes are what lies below the root, each once. -/
lemma children_spec (h : t.Assembled text offset) :
    t.arena.children.Nodup ∧ ∀ c, c ∈ t.arena.children ↔ t.arena.Below c := by
  have hperm : (.node 0 :: t.arena.children).Perm (preorder t.root.element) := by
    rw [← h.root_child]
    exact perm_preorder t.root.element
  have hnodup : (preorder t.root.element).Nodup :=
    nodup_of_filterMap (h.nodeOrder ▸ List.nodup_range) (h.tokenOrder ▸ List.nodup_range)
  obtain ⟨hzero, hchildren⟩ := List.nodup_cons.1 (hperm.nodup_iff.2 hnodup)
  refine ⟨hchildren, fun c => ?_⟩
  have hmem : c ∈ t.arena.children ↔ c ∈ preorder t.root.element ∧ c ≠ .node 0 := by
    rw [← hperm.mem_iff, List.mem_cons]
    constructor
    · exact fun hc => ⟨.inr hc, fun heq => hzero (heq ▸ hc)⟩
    · rintro ⟨rfl | hc, hne⟩
      · exact absurd rfl hne
      · exact hc
  rw [hmem]
  cases c with
  | node i =>
    rw [← mem_filterMap_node?, h.nodeOrder, List.mem_range, Below, Ne, Child.node.injEq]
    omega
  | token i => simp [← mem_filterMap_token?, h.tokenOrder, Below]

/-- Every part of a node is in the list of parts. -/
lemma parts_sublist (a : Arena) (i : Nat) : (a.parts i).Sublist a.children := by
  unfold Arena.parts
  split
  · exact (List.take_sublist _ _).trans (List.drop_sublist _ _)
  · exact List.nil_sublist _

/-- What lies below the root is a part of one node. -/
lemma exists_parent (h : t.Assembled text offset) {c : Child} (hc : t.arena.Below c) :
    ∃ i, i < t.arena.nodes.length ∧ (t.arena.parts i).count c = 1 ∧ ∀ j, j ≠ i → c ∉ t.arena.parts j := by
  obtain ⟨hnodup, hmem⟩ := h.children_spec
  have hperm : t.arena.children.Perm (t.root.descendants.flatMap (·.children.map child)) := perm_parts t.root.element
  obtain ⟨-, hpairs⟩ := List.nodup_flatMap.1 (hperm.nodup_iff.1 hnodup)
  obtain ⟨m, hm, hcm⟩ := List.mem_flatMap.1 (hperm.mem_iff.1 ((hmem c).2 hc))
  obtain ⟨n, hn, -⟩ := h.entry_of_mem hm
  refine ⟨m.id, (List.getElem?_eq_some_iff.1 hn).1, ?_, fun j hj hcj => ?_⟩
  · rw [h.holds m hm]
    exact List.count_eq_one_of_mem (h.holds m hm ▸ hnodup.sublist (parts_sublist _ _)) hcm
  · have hne : t.arena.parts j ≠ [] := List.ne_nil_of_mem hcj
    obtain ⟨n', hn'⟩ : ∃ n', t.arena.nodes[j]? = some n' := by
      cases hj' : t.arena.nodes[j]? with
      | none => simp [Arena.parts, hj'] at hne
      | some n' => exact ⟨n', rfl⟩
    obtain ⟨m', hm', rfl, -⟩ := h.mem_of_entry hn'
    rw [h.holds m' hm'] at hcj
    have hsymm : Std.Symm (Function.onFun List.Disjoint fun m : Node => m.children.map child) :=
      ⟨fun _ _ hd _ hx hy => hd hy hx⟩
    exact hpairs.forall hm hm' (fun heq => hj (heq ▸ rfl)) hcm hcj

/-- Tokens that follow one another do so in an arena that has their entries. -/
lemma tile_leaves {a : Arena} {x : Nat} {ls : List Leaf} (hentry : ∀ l ∈ ls, a.tokens[l.id]? = some l.entry)
    (h : Token.Tile x (ls.map Leaf.token)) :
    a.Tile x (ls.map fun l => .token l.id) (x + Text.size ((ls.map Leaf.token).flatMap Token.text)) := by
  induction ls generalizing x with
  | nil => rfl
  | cons l ls ih =>
    have hstart : l.token.start = x := h.start_eq
    have hrest : Token.Tile l.token.stop (ls.map Leaf.token) := h.tail
    refine ⟨l.span, by simp [Arena.span?, hentry l List.mem_cons_self, Leaf.entry], hstart, ?_⟩
    have := ih (fun l' hl => hentry l' (List.mem_cons_of_mem _ hl)) hrest
    simpa [Token.stop, hstart, Nat.add_assoc] using this

/-- The layout of an assembled tree is well-formed. -/
lemma wellFormed (h : t.Assembled text offset) : t.arena.WellFormed where
  root := by
    obtain ⟨n, hn, hdescribes⟩ := h.entry_of_mem (root_mem t)
    rw [h.root_id] at hn
    rw [hn, Option.map_some, hdescribes.span, h.span]
    simp [SyntaxTree.arena, h.text_eq, h.offset_eq]
  nodeOrder := by rw [h.walk_eq, h.nodeOrder]
  tokenOrder := by rw [h.walk_eq, h.tokenOrder]
  tokens := by
    have htile := tile_leaves (fun l hl => h.entry_of_mem_leaves hl) h.covers.tile
    rw [h.covers.chars] at htile
    rw [length_tokens, ← h.leafIds, List.map_map]
    simpa [SyntaxTree.arena, h.text_eq, h.offset_eq, Function.comp_def] using htile
  below i c hc := (h.children_spec.2 c).1 ((parts_sublist t.arena i).subset hc)
  parent c hc := h.exists_parent hc
  inside n hn := by simpa [SyntaxTree.arena] using ((apart_entries 0 t.root.element).2 n hn).2
  disjoint i j m n hij hm hn := by
    obtain ⟨hi, rfl⟩ := List.getElem?_eq_some_iff.1 hm
    obtain ⟨hj, rfl⟩ := List.getElem?_eq_some_iff.1 hn
    have hpairs := List.pairwise_iff_getElem.1 (apart_entries 0 t.root.element).1
    rcases Nat.lt_or_gt_of_ne hij with hlt | hlt
    · exact hpairs i j hi hj hlt
    · exact (hpairs j i hj hi hlt).symm
  tiled i n hn := by
    obtain ⟨m, hm, rfl, hdescribes⟩ := h.mem_of_entry hn
    rw [hdescribes.span, h.holds m hm]
    exact tile_map_child (h.tiled m hm) fun e he => h.span?_child hm he

end SyntaxTree.Assembled

/-- **Arenas are built from steps that fit, and are well-formed.** -/
theorem Arena.build_wellFormed (text : Text) (offset : Nat) (ss : List BuildStep) :
    ((∃ a, Arena.build text offset ss = .ok a) ↔ BuildStep.Builds text offset ss) ∧
    Arena.build text offset ss = (Builder.build text offset ss).map SyntaxTree.arena ∧
    ∀ a, Arena.build text offset ss = .ok a → a.text = text ∧ a.offset = offset ∧ a.WellFormed := by
  rw [← Builder.isOk_build_iff, Arena.build_eq]
  cases ht : Builder.build text offset ss with
  | error e => simp [Except.map]
  | ok t =>
    have hassembled := Builder.assembled_of_build ht
    refine ⟨⟨fun _ => ⟨t, rfl⟩, fun _ => ⟨t.arena, rfl⟩⟩, rfl, fun a ha => ?_⟩
    obtain rfl : t.arena = a := Except.ok.inj ha
    exact ⟨hassembled.text_eq, hassembled.offset_eq, hassembled.wellFormed⟩

end GoFront
