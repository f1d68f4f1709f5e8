import GoFront.Proofs.Tree.Rendering
import GoFront.Proofs.Tree.Anchor
import GoFront.Proofs.Tree.Traversal
import Mathlib.Data.List.Chain

/-!
# The nodes around a node

The way from a node to the root goes from part to whole (`pathTo?_spec`). A parent map knows each step of it: the walk
it is filled on comes to every node, and so notes every part of a node, and none is a part of two nodes
(`parent?_eq_some_iff`). A node has a larger number than the one around it, so climbing ends, and it ends at the root.

The main statement is `Builder.walks_agree`: in a tree that is built from steps, walks, numbers and parents tell the
same story.
-/

namespace GoFront

/-! ## The way to a node -/

namespace Element

/-- `p` is the way from the node with a number up to one that `top` allows, all of it among `nodes`. -/
structure Leads (nodes : List Node) (top : Node → Prop) (id : Nat) (p : List Node) : Prop where
  /-- It starts at the node. -/
  first : ∃ n, p.head? = some n ∧ n.id = id
  /-- It ends where it may end. -/
  last : ∃ n, p.getLast? = some n ∧ top n
  /-- Each node on it is a part of the next one. -/
  chain : p.IsChain fun m n => m ∈ n.nodes
  /-- It does not leave the nodes. -/
  mem : ∀ n ∈ p, n ∈ nodes

lemma Leads.mono {nodes nodes' : List Node} {top top' : Node → Prop} {id : Nat} {p : List Node}
    (h : Leads nodes top id p) (hnodes : nodes ⊆ nodes') (htop : ∀ n, top n → top' n) : Leads nodes' top' id p where
  first := h.first
  last := h.last.imp fun n hn => ⟨hn.1, htop n hn.2⟩
  chain := h.chain
  mem n hn := hnodes (h.mem n hn)

mutual

lemma pathTo?_spec {id : Nat} {p : List Node} : (e : Element) → pathTo? id e = some p →
    Leads (descendants e) (fun n => e.node? = some n) id p
  | .node i k s cs, h => by
    rw [pathTo?] at h
    split at h
    next hi =>
      obtain rfl := Option.some.inj h
      exact ⟨⟨_, rfl, hi⟩, ⟨_, rfl, rfl⟩, List.isChain_singleton _, by simp [descendants]⟩
    next =>
      obtain ⟨q, hq, rfl⟩ := Option.map_eq_some_iff.1 h
      obtain ⟨⟨n, hn, hid⟩, ⟨m, hm, htop⟩, hchain, hmem⟩ := pathToIn?_spec cs hq
      refine ⟨⟨n, by simp [List.head?_append, hn], hid⟩, ⟨_, List.getLast?_concat, rfl⟩, ?_, fun x hx => ?_⟩
      · refine List.isChain_append.2 ⟨hchain, List.isChain_singleton _, fun x hx y hy => ?_⟩
        rw [hm] at hx
        obtain rfl := Option.some.inj hx
        obtain rfl := Option.some.inj hy
        exact htop
      · rcases List.mem_append.1 hx with hx | hx
        · exact List.mem_cons_of_mem _ (hmem x hx)
        · rw [List.mem_singleton.1 hx]
          exact List.mem_cons_self

lemma pathToIn?_spec {id : Nat} {p : List Node} : (es : List Element) → pathToIn? id es = some p →
    Leads (descendantsIn es) (fun n => n ∈ es.filterMap node?) id p
  | e :: es, h => by
    rw [pathToIn?] at h
    cases hp : pathTo? id e with
    | some q =>
      rw [hp] at h
      obtain rfl := Option.some.inj h
      exact (pathTo?_spec e hp).mono (List.subset_append_left _ _) fun n hn =>
        List.mem_filterMap.2 ⟨e, List.mem_cons_self, hn⟩
    | none =>
      rw [hp] at h
      refine (pathToIn?_spec es h).mono (List.subset_append_right _ _) fun n hn => ?_
      obtain ⟨e', he, hn⟩ := List.mem_filterMap.1 hn
      exact List.mem_filterMap.2 ⟨e', List.mem_cons_of_mem e he, hn⟩

end

end Element

/-- The nodes around a node lead up to the root. -/
lemma SyntaxTree.ancestors_spec {t : SyntaxTree} {id : Nat} (h : id ∈ t.root.descendants.map Node.id) :
    Element.Leads t.root.descendants (· = t.root) id (t.ancestors id) := by
  cases hp : t.root.element.pathTo? id with
  | none => exact absurd h ((Element.pathTo?_eq_none t.root.element).1 hp)
  | some p =>
    rw [ancestors, hp]
    exact (Element.pathTo?_spec t.root.element hp).mono (List.Subset.refl _) fun n hn => (Option.some.inj hn).symm

namespace ParentMap

/-! ## Filling a parent map -/

section Put

variable {α β : Type} {f : β → Option (Nat × α)}

/-- Puts what `f` makes of an entry where `f` says. -/
def put (f : β → Option (Nat × α)) (xs : List α) (l : β) : List α :=
  match f l with
  | some (i, x) => xs.set i x
  | none => xs

lemma length_put (xs : List α) (l : β) : (put f xs l).length = xs.length := by
  unfold put
  split <;> simp

/-- What all entries for a place agree on stands there in the end, if there is one or it stood there before. -/
lemma getElem?_foldl_put {ls : List β} {xs : List α} {i : Nat} {x : α} (hi : i < xs.length)
    (hall : ∀ l ∈ ls, ∀ y, f l = some (i, y) → y = x) (hone : (∃ l ∈ ls, f l = some (i, x)) ∨ xs[i]? = some x) :
    (ls.foldl (put f) xs)[i]? = some x := by
  induction ls generalizing xs with
  | nil => simpa using hone
  | cons l ls ih =>
    obtain ⟨hfirst, hrest⟩ := List.forall_mem_cons.1 hall
    refine ih (by rwa [length_put]) hrest ?_
    by_cases hl : ∃ y, f l = some (i, y)
    · obtain ⟨y, hy⟩ := hl
      exact .inr (by simp [put, hy, hfirst y hy, hi])
    · have hkept : (put f xs l)[i]? = xs[i]? := by
        unfold put
        split
        · next j y hj =>
          have hne : j ≠ i := fun heq => hl ⟨y, heq ▸ hj⟩
          rw [List.getElem?_set_ne hne]
        · rfl
      rw [hkept]
      refine hone.imp_left fun ⟨l', hl', hx⟩ => ⟨l', ?_, hx⟩
      exact (List.mem_cons.1 hl').resolve_left fun heq => hl ⟨x, heq ▸ hx⟩

end Put

/-- All pairs of a node and one of its parts, in the order in which a walk notes them. -/
def links (a : Arena) : List (Nat × Child) := (a.below 0).flatMap fun i => (a.parts i).map (i, ·)

lemma of_eq_foldl (a : Arena) : of a = (links a).foldl (fun m l => m.link l.1 l.2)
    { nodes := .replicate a.nodes.length none, tokens := .replicate a.tokens.length 0 } := by
  rw [of, links, List.foldl_flatMap]
  congr 1
  funext m i
  rw [linkAll, List.foldl_map]

lemma nodes_of (a : Arena) : (of a).nodes =
    (links a).foldl (put fun l => l.2.node?.map (·, some l.1)) (.replicate a.nodes.length none) := by
  rw [of_eq_foldl]
  refine (List.foldl_hom ParentMap.nodes fun m l => ?_).symm
  obtain ⟨p, i | i⟩ := l <;> rfl

lemma tokens_of (a : Arena) : (of a).tokens =
    (links a).foldl (put fun l => l.2.token?.map (·, l.1)) (.replicate a.tokens.length 0) := by
  rw [of_eq_foldl]
  refine (List.foldl_hom ParentMap.tokens fun m l => ?_).symm
  obtain ⟨p, i | i⟩ := l <;> rfl

lemma length_foldl_put {α β : Type} {f : β → Option (Nat × α)} (ls : List β) (xs : List α) :
    (ls.foldl (put f) xs).length = xs.length := by
  induction ls generalizing xs with
  | nil => rfl
  | cons l ls ih => rw [List.foldl_cons, ih, length_put]

/-! ## Climbing -/

/-- From a node on a parent map leads over these nodes, and then to no other. -/
inductive Climbs (m : ParentMap) : Nat → List Nat → Prop
  | top {i : Nat} : m.parent? i = none → Climbs m i [i]
  | up {i p : Nat} {js : List Nat} : m.parent? i = some p → Climbs m p js → Climbs m i (i :: js)

namespace Climbs

variable {m : ParentMap} {i : Nat} {js : List Nat}

lemma climb_eq (h : m.Climbs i js) {n : Nat} (hn : js.length ≤ n) : m.climb n i = js := by
  induction h generalizing n with
  | top h =>
    obtain ⟨n, rfl⟩ : ∃ n', n = n' + 1 := ⟨n - 1, by simp only [List.length_cons] at hn; omega⟩
    rw [climb, h]
  | up h _ ih =>
    obtain ⟨n, rfl⟩ : ∃ n', n = n' + 1 := ⟨n - 1, by simp only [List.length_cons] at hn; omega⟩
    rw [climb, h]
    exact congrArg _ (ih (by simpa using hn))

/-- Numbers that get smaller on the way up bound its length. -/
lemma length_le (hlt : ∀ i p, m.parent? i = some p → p < i) (h : m.Climbs i js) : js.length ≤ i + 1 := by
  induction h with
  | top => exact Nat.succ_le_succ (Nat.zero_le _)
  | up h _ ih => exact Nat.succ_le_succ (Nat.le_trans ih (hlt _ _ h))

end Climbs

end ParentMap

/-! ## The parent map of a tree -/

namespace SyntaxTree.Assembled

open Element ParentMap

variable {text : Text} {offset : Nat} {t : SyntaxTree} {n : Node}

/-- The nodes of a tree are told apart by their numbers. -/
lemma eq_of_id (h : t.Assembled text offset) {m : Node} (hm : m ∈ t.root.descendants) (hn : n ∈ t.root.descendants)
    (hid : m.id = n.id) : m = n :=
  List.inj_on_of_nodup_map (h.nodeIds ▸ List.nodup_range) hm hn hid

lemma mem_ids (h : t.Assembled text offset) {i : Nat} :
    i ∈ t.root.descendants.map Node.id ↔ i < t.arena.nodes.length := by
  rw [h.nodeIds, List.mem_range, length_nodes]

lemma mem_parts (h : t.Assembled text offset) (hn : n ∈ t.root.descendants) {m : Node} (hm : m ∈ n.nodes) :
    .node m.id ∈ t.arena.parts n.id := by
  rw [h.holds n hn]
  exact List.mem_map_of_mem (Node.mem_nodes.1 hm)

/-- Where a number stands among the parts, there are two nodes. -/
lemma exists_of_mem_parts (h : t.Assembled text offset) {i p : Nat} (hi : .node i ∈ t.arena.parts p) :
    ∃ n ∈ t.root.descendants, n.id = p ∧ ∃ m ∈ n.nodes, m.id = i := by
  have hp : p < t.arena.nodes.length := by
    by_contra hp
    simp [Arena.parts, List.getElem?_eq_none (Nat.le_of_not_lt hp)] at hi
  obtain ⟨n, hn, rfl⟩ := List.mem_map.1 (h.mem_ids.2 hp)
  rw [h.holds n hn] at hi
  obtain ⟨e, he, hid⟩ := List.mem_map.1 hi
  cases e with
  | token j u => cases hid
  | node j k s cs =>
    obtain rfl := Child.node.inj hid
    exact ⟨n, hn, rfl, ⟨j, k, s, cs⟩, Node.mem_nodes.2 he, rfl⟩

lemma mem_links (h : t.Assembled text offset) {p : Nat} {c : Child} :
    (p, c) ∈ links t.arena ↔ c ∈ t.arena.parts p := by
  have hbelow : t.arena.below 0 = List.range t.arena.nodes.length := by
    rw [← h.root_id, h.below_eq (root_mem t), length_nodes]
    exact h.nodeIds
  rw [links, hbelow, List.mem_flatMap]
  constructor
  · rintro ⟨i, -, hi⟩
    obtain ⟨c', hc, heq⟩ := List.mem_map.1 hi
    obtain ⟨rfl, rfl⟩ := Prod.mk.inj heq
    exact hc
  · refine fun hc => ⟨p, List.mem_range.2 ?_, List.mem_map_of_mem hc⟩
    by_contra hp
    simp [Arena.parts, List.getElem?_eq_none (Nat.le_of_not_lt hp)] at hc

/-- The parent map has the node around a node that is below the root. -/
lemma nodes_getElem? (h : t.Assembled text offset) {i p : Nat} (hi : i < t.arena.nodes.length)
    (hp : .node i ∈ t.arena.parts p) : (ParentMap.of t.arena).nodes[i]? = some (some p) := by
  obtain ⟨q, -, -, honly⟩ := h.exists_parent ((h.children_spec.2 _).1 ((parts_sublist _ _).subset hp))
  have hunique : ∀ p', .node i ∈ t.arena.parts p' → p' = q := fun p' hp' =>
    by_contra fun hne => honly p' hne hp'
  rw [nodes_of]
  refine getElem?_foldl_put (by simpa using hi) ?_ (.inl ⟨(p, .node i), h.mem_links.2 hp, rfl⟩)
  rintro ⟨p', j | j⟩ hl y hy
  · obtain ⟨rfl, rfl⟩ := Prod.mk.inj (Option.some.inj hy)
    rw [hunique p' (h.mem_links.1 hl), hunique p hp]
  · cases hy

/-- A parent map gives the node that lists a node among its parts. -/
lemma parent?_eq_some_iff (h : t.Assembled text offset) {i p : Nat} :
    (ParentMap.of t.arena).parent? i = some p ↔ .node i ∈ t.arena.parts p := by
  constructor
  · intro hp
    obtain hp := Option.join_eq_some_iff.1 hp
    have hi : i < t.arena.nodes.length := by
      have := (List.getElem?_eq_some_iff.1 hp).1
      rwa [nodes_of, length_foldl_put, List.length_replicate] at this
    by_cases hzero : i = 0
    · -- Nothing lists the root, so the map still has there what it started with.
      have hnone : (ParentMap.of t.arena).nodes[i]? = some none := by
        rw [nodes_of]
        refine getElem?_foldl_put (by simpa using hi) ?_ (.inr (by simp [hi]))
        rintro ⟨p', j | j⟩ hl y hy
        · obtain ⟨rfl, rfl⟩ := Prod.mk.inj (Option.some.inj hy)
          have hbelow := (h.children_spec.2 _).1 ((parts_sublist _ _).subset (h.mem_links.1 hl))
          exact absurd hbelow.1 (by omega)
        · cases hy
      rw [hp] at hnone
      cases hnone
    · obtain ⟨q, hq, hcount, -⟩ := h.exists_parent (c := .node i) ⟨Nat.pos_of_ne_zero hzero, hi⟩
      have hmem : .node i ∈ t.arena.parts q := List.count_pos_iff.1 (by omega)
      rw [h.nodes_getElem? hi hmem] at hp
      obtain rfl := Option.some.inj (Option.some.inj hp)
      exact hmem
  · intro hp
    have hi : i < t.arena.nodes.length := ((h.children_spec.2 _).1 ((parts_sublist _ _).subset hp)).2
    rw [ParentMap.parent?, h.nodes_getElem? hi hp]
    rfl

/-- It gives the node that lists a token among its parts. -/
lemma tokenParent?_eq_some_iff (h : t.Assembled text offset) {i p : Nat} :
    (ParentMap.of t.arena).tokenParent? i = some p ↔ .token i ∈ t.arena.parts p := by
  have hvalue : ∀ p, .token i ∈ t.arena.parts p → (ParentMap.of t.arena).tokenParent? i = some p := by
    intro p hp
    have hi : i < t.arena.tokens.length := (h.children_spec.2 _).1 ((parts_sublist _ _).subset hp)
    obtain ⟨q, -, -, honly⟩ := h.exists_parent (c := .token i) hi
    have hunique : ∀ p', .token i ∈ t.arena.parts p' → p' = q := fun p' hp' =>
      by_contra fun hne => honly p' hne hp'
    rw [tokenParent?, tokens_of]
    refine getElem?_foldl_put (by simpa using hi) ?_ (.inl ⟨(p, .token i), h.mem_links.2 hp, rfl⟩)
    rintro ⟨p', j | j⟩ hl y hy
    · cases hy
    · obtain ⟨rfl, rfl⟩ := Prod.mk.inj (Option.some.inj hy)
      rw [hunique p' (h.mem_links.1 hl), hunique p hp]
  refine ⟨fun hp => ?_, hvalue p⟩
  have hi : i < t.arena.tokens.length := by
    have := (List.getElem?_eq_some_iff.1 hp).1
    rwa [tokens_of, length_foldl_put, List.length_replicate] at this
  obtain ⟨q, -, hcount, -⟩ := h.exists_parent (c := .token i) hi
  have hmem : .token i ∈ t.arena.parts q := List.count_pos_iff.1 (by omega)
  rw [hvalue q hmem] at hp
  exact Option.some.inj hp ▸ hmem

lemma parent?_eq_none_iff (h : t.Assembled text offset) {i : Nat} (hi : i < t.arena.nodes.length) :
    (ParentMap.of t.arena).parent? i = none ↔ i = 0 := by
  constructor
  · intro hnone
    by_contra hzero
    obtain ⟨q, -, hcount, -⟩ := h.exists_parent (c := .node i) ⟨Nat.pos_of_ne_zero hzero, hi⟩
    have hmem : .node i ∈ t.arena.parts q := List.count_pos_iff.1 (by omega)
    rw [h.parent?_eq_some_iff.2 hmem] at hnone
    cases hnone
  · rintro rfl
    refine Option.eq_none_iff_forall_ne_some.2 fun p hp => ?_
    have hbelow := (h.children_spec.2 _).1 ((parts_sublist _ _).subset (h.parent?_eq_some_iff.1 hp))
    exact absurd hbelow.1 (Nat.lt_irrefl 0)

lemma parent?_lt (h : t.Assembled text offset) {i p : Nat} (hp : (ParentMap.of t.arena).parent? i = some p) :
    p < i := by
  obtain ⟨n, hn, rfl, m, hm, rfl⟩ := h.exists_of_mem_parts (h.parent?_eq_some_iff.1 hp)
  exact h.lt_of_mem_nodes hn hm

/-- A way from part to whole that ends at the root is one that the parent map leads. -/
lemma climbs_of_chain (h : t.Assembled text offset) {path : List Node} (hpath : ∀ m ∈ n :: path, m ∈ t.root.descendants)
    (hchain : (n :: path).IsChain fun m n => m ∈ n.nodes) (hlast : (n :: path).getLast? = some t.root) :
    (ParentMap.of t.arena).Climbs n.id ((n :: path).map Node.id) := by
  induction path generalizing n with
  | nil =>
    obtain rfl := Option.some.inj hlast
    refine .top ((h.parent?_eq_none_iff ?_).2 h.root_id)
    exact h.mem_ids.1 (List.mem_map_of_mem (root_mem t))
  | cons m path ih =>
    rw [List.isChain_cons_cons] at hchain
    rw [List.forall_mem_cons] at hpath
    have hm : m ∈ t.root.descendants := hpath.2 m List.mem_cons_self
    refine .up (h.parent?_eq_some_iff.2 (h.mem_parts hm hchain.1)) (ih hpath.2 hchain.2 ?_)
    rwa [List.getLast?_cons_cons] at hlast

/-- Climbing from a node goes over the nodes around it. -/
lemma climbs (h : t.Assembled text offset) {i : Nat} (hi : i < t.arena.nodes.length) :
    (ParentMap.of t.arena).Climbs i ((t.ancestors i).map Node.id) ∧
      ((t.ancestors i).map Node.id).getLast? = some 0 := by
  obtain ⟨⟨n, hn, rfl⟩, ⟨r, hr, rfl⟩, hchain, hmem⟩ := t.ancestors_spec (h.mem_ids.2 hi)
  obtain ⟨path, hpath⟩ : ∃ path, t.ancestors n.id = n :: path := by
    cases hpath : t.ancestors n.id with
    | nil => simp [hpath] at hn
    | cons m path =>
      rw [hpath] at hn
      obtain rfl := Option.some.inj hn
      exact ⟨path, rfl⟩
  rw [hpath] at hr hchain hmem ⊢
  refine ⟨h.climbs_of_chain hmem hchain hr, ?_⟩
  rw [List.getLast?_map, hr, Option.map_some, h.root_id]

lemma ancestors_eq (h : t.Assembled text offset) {i : Nat} (hi : i < t.arena.nodes.length) :
    (ParentMap.of t.arena).ancestors i = (t.ancestors i).map Node.id := by
  have hclimbs := (h.climbs hi).1
  exact hclimbs.climb_eq (hclimbs.length_le fun _ _ => h.parent?_lt)

/-- What is below a node is reached by climbing from there. -/
lemma mem_of_mem_descendants (h : t.Assembled text offset) (hn : n ∈ t.root.descendants) {i : Nat} {js : List Nat}
    (hjs : (ParentMap.of t.arena).Climbs i js) (hi : i ∈ n.descendants.map Node.id) : n.id ∈ js := by
  induction i using Nat.strongRecOn generalizing js with
  | ind i ih =>
  obtain ⟨m, hm, rfl⟩ := List.mem_map.1 hi
  rcases Element.exists_parent n.element hm with hself | ⟨p, hp, hmp⟩
  · obtain rfl := Option.some.inj hself
    cases hjs <;> exact List.mem_cons_self
  · have hp' : p ∈ t.root.descendants := (infix_descendants t.root.element hn).1.subset hp
    have hparent := h.parent?_eq_some_iff.2 (h.mem_parts hp' hmp)
    cases hjs with
    | top hnone => rw [hparent] at hnone; cases hnone
    | up hsome hrest =>
      rw [hparent] at hsome
      obtain rfl := Option.some.inj hsome
      exact List.mem_cons_of_mem _ (ih p.id (h.lt_of_mem_nodes hp' hmp) hrest (List.mem_map_of_mem hp))

/-- What is reached by climbing has the node below it. -/
lemma mem_descendants_of_mem (h : t.Assembled text offset) (hn : n ∈ t.root.descendants) {i : Nat} {js : List Nat}
    (hjs : (ParentMap.of t.arena).Climbs i js) (hmem : n.id ∈ js) : i ∈ n.descendants.map Node.id := by
  have hself : n.id ∈ n.descendants.map Node.id := List.mem_map_of_mem List.mem_cons_self
  induction hjs with
  | top => rwa [List.mem_singleton.1 hmem] at hself
  | up hp _ ih =>
    rcases List.mem_cons.1 hmem with heq | hmem
    · rwa [heq] at hself
    · obtain ⟨q, hq, hqn⟩ := List.mem_map.1 (ih hmem)
      obtain ⟨q', hq', rfl, m, hm, rfl⟩ := h.exists_of_mem_parts (h.parent?_eq_some_iff.1 hp)
      have hqroot : q ∈ t.root.descendants := (infix_descendants t.root.element hn).1.subset hq
      obtain rfl := h.eq_of_id hqroot hq' hqn
      refine List.mem_map_of_mem ((subset_of_mem_descendants n.element hq).1 ?_)
      exact mem_descendantsIn.2 ⟨_, Node.mem_nodes.1 hm, List.mem_cons_self⟩

end SyntaxTree.Assembled

/-! ## Walks, numbers and parents -/

/-- The parent map of an arena tells how the tree `t` hangs together. -/
structure ParentMap.Agrees (m : ParentMap) (t : SyntaxTree) : Prop where
  /-- The root has no parent, and it is the only one. -/
  parent_none : ∀ i < t.arena.nodes.length, m.parent? i = none ↔ i = 0
  /-- The parent of a node lists it among its parts, and no other node does. -/
  parent_some : ∀ i p, m.parent? i = some p ↔ .node i ∈ t.arena.parts p
  /-- So it is with the tokens. -/
  token_parent : ∀ i p, m.tokenParent? i = some p ↔ .token i ∈ t.arena.parts p
  /-- The parent of a node has a smaller number. -/
  parent_lt : ∀ i p, m.parent? i = some p → p < i
  /-- Climbing from a node comes to an end. -/
  climbs : ∀ i < t.arena.nodes.length, m.Climbs i (m.ancestors i)
  /-- It ends at the root. -/
  ends : ∀ i < t.arena.nodes.length, (m.ancestors i).getLast? = some 0
  /-- It goes over the nodes around the node. -/
  around : ∀ i < t.arena.nodes.length, m.ancestors i = (t.ancestors i).map Node.id

/-- **Walks, numbers and parents agree.** In a tree that is built from steps, a walk from a node comes to nodes and
tokens whose numbers follow one another and leaves every node it comes to; a parent map, filled on such a walk, leads
from every node to the root; a node is below another one if and only if climbing from it comes to that one; and the
errors of a node and of those below it are the errors whose nodes have the numbers of that walk. -/
theorem Builder.walks_agree {text : Text} {offset : Nat} {ss : List BuildStep} {t : SyntaxTree}
    (h : Builder.build text offset ss = .ok t) :
    Arena.build text offset ss = .ok t.arena ∧
    t.root.descendants.map Node.id = List.range t.arena.nodes.length ∧
    (ParentMap.of t.arena).Agrees t ∧
    ∀ n ∈ t.root.descendants,
      t.arena.Walks n (t.arena.visits n.id) ∧
      (∀ j < t.arena.nodes.length, j ∈ t.arena.below n.id ↔ n.id ∈ (ParentMap.of t.arena).ancestors j) ∧
      t.subtreeErrors n = t.errors.filter fun e => n.id ≤ e.node ∧ e.node < n.id + n.descendants.length := by
  have hassembled := Builder.assembled_of_build h
  have hancestors := fun i (hi : i < t.arena.nodes.length) => hassembled.ancestors_eq hi
  refine ⟨by rw [Arena.build_eq, h]; rfl, ?_, ?_, fun n hn => ⟨hassembled.walks hn, fun j hj => ?_, ?_⟩⟩
  · rw [hassembled.nodeIds, SyntaxTree.Assembled.length_nodes]
  · exact
      { parent_none := fun i hi => hassembled.parent?_eq_none_iff hi
        parent_some := fun i p => hassembled.parent?_eq_some_iff
        token_parent := fun i p => hassembled.tokenParent?_eq_some_iff
        parent_lt := fun i p => hassembled.parent?_lt
        climbs := fun i hi => hancestors i hi ▸ (hassembled.climbs hi).1
        ends := fun i hi => hancestors i hi ▸ (hassembled.climbs hi).2
        around := hancestors }
  · obtain ⟨hclimbs, -⟩ := hassembled.climbs hj
    rw [hassembled.below_eq hn, hancestors j hj]
    exact ⟨hassembled.mem_of_mem_descendants hn hclimbs, hassembled.mem_descendants_of_mem hn hclimbs⟩
  · rw [SyntaxTree.subtreeErrors, hassembled.ids_eq_range' hn]
    refine List.filter_congr fun e _ => ?_
    simp [List.mem_range'_1]

/-- The tree of `-x`: climbing from the operand goes over the expression around it. -/
theorem Builder.walks_agree_operand :
    ∃ t, Builder.build ['-', 'x'] 0 [.start .sourceFile, .start .unaryExpression, .token .minus 0 1,
        .start .nameRef, .token .identifier 1 2, .finish, .finish, .finish] = .ok t ∧
      t.arena.visits 1 = [.enter 1, .token 0, .enter 2, .token 1, .leave 2, .leave 1] ∧
      (ParentMap.of t.arena).ancestors 2 = [2, 1, 0] ∧ (ParentMap.of t.arena).Agrees t ∧
      ∀ n ∈ t.root.descendants, t.arena.Walks n (t.arena.visits n.id) := by
  have hrun : (Builder.build ['-', 'x'] 0 [.start .sourceFile, .start .unaryExpression, .token .minus 0 1,
        .start .nameRef, .token .identifier 1 2, .finish, .finish, .finish]).toOption.map
      (fun t => (t.arena.visits 1, (ParentMap.of t.arena).ancestors 2)) =
      some ([.enter 1, .token 0, .enter 2, .token 1, .leave 2, .leave 1], [2, 1, 0]) := by decide +kernel
  generalize hbuild : Builder.build ['-', 'x'] 0 _ = built at hrun ⊢
  cases built with
  | error e => cases hrun
  | ok t =>
    obtain ⟨hvisits, hancestors⟩ := Prod.mk.inj (Option.some.inj hrun)
    obtain ⟨-, -, hagrees, hwalks⟩ := Builder.walks_agree hbuild
    exact ⟨t, rfl, hvisits, hancestors, hagrees, fun n hn => (hwalks n hn).1⟩

end GoFront
