import GoFront.Parse.Weave
import GoFront.Proofs.Token.Tiling
import GoFront.Tree.Walk
import Mathlib.Tactic.Common

/-!
# Woven trees cover their text

A tree covers a text if its tokens are those of the text, in order, if the parts of every node follow
one another without gap from the start of the node to its end, and if its errors lie inside the text and
belong to nodes of the tree. Nodes and tokens are numbered from 0 in the order in which they are met.

Weaving meets all of this, whatever a parser grew: the words in the sprouts only say how many words are
to be placed, and whatever no sprout asks for is placed at the end (`Sprout.covers_tree`). What weaving
one piece does is put down in `Woven`, which composes; the induction over the sprouts is
`Sprout.weaves_weave`.
-/

namespace GoFront

namespace Element

/-- Elements that follow one another from one offset to another. -/
def Tile : Nat → List Element → Nat → Prop
  | a, [], b => a = b
  | a, e :: es, b => e.span.start = a ∧ Tile e.span.stop es b

lemma Tile.append {a b c : Nat} {es fs : List Element} (h : Tile a es b) (k : Tile b fs c) :
    Tile a (es ++ fs) c := by
  induction es generalizing a with
  | nil => exact h ▸ k
  | cons e es ih => exact ⟨h.1, ih h.2⟩

lemma Tile.le {a b : Nat} {es : List Element} (h : Tile a es b) : a ≤ b := by
  induction es generalizing a with
  | nil => exact Nat.le_of_eq h
  | cons e es ih => exact h.1 ▸ Nat.le_trans e.span.start_le_stop (ih h.2)

/-- Where some of them end the others start. -/
lemma Tile.split {a b : Nat} {es fs : List Element} (h : Tile a (es ++ fs) b) : ∃ m, Tile a es m ∧ Tile m fs b := by
  induction es generalizing a with
  | nil => exact ⟨a, rfl, h⟩
  | cons e es ih =>
    obtain ⟨m, hes, hfs⟩ := ih h.2
    exact ⟨m, ⟨h.1, hes⟩, hfs⟩

lemma Tile.start_le {a b : Nat} {es : List Element} (h : Tile a es b) : ∀ e ∈ es, a ≤ e.span.start := by
  induction es generalizing a with
  | nil => exact fun e he => absurd he List.not_mem_nil
  | cons e es ih =>
    refine List.forall_mem_cons.2 ⟨Nat.le_of_eq h.1.symm, fun e' he' => ?_⟩
    have hle : a ≤ e.span.stop := h.1 ▸ e.span.start_le_stop
    exact Nat.le_trans hle (ih h.2 e' he')

lemma Tile.stop_le {a b : Nat} {es : List Element} (h : Tile a es b) : ∀ e ∈ es, e.span.stop ≤ b := by
  intro e he
  obtain ⟨front, rest, rfl⟩ := List.append_of_mem he
  obtain ⟨m, -, hrest⟩ := h.split
  exact hrest.2.le

/-- Elements that follow one another stand in the order of the text. -/
lemma Tile.pairwise {a b : Nat} {es : List Element} (h : Tile a es b) :
    es.Pairwise fun e e' => e.span.stop ≤ e'.span.start := by
  induction es generalizing a with
  | nil => exact .nil
  | cons e es ih => exact .cons (fun e' he' => h.2.start_le e' he') (ih h.2)

mutual

/-- The tokens at and below an element tile it, if the parts of every node tile that node. -/
lemma tile_leaves : (e : Element) → (∀ n ∈ e.descendants, Tile n.span.start n.children n.span.stop) →
    Tile e.span.start (e.leaves.map Leaf.element) e.span.stop
  | .token _ _, _ => ⟨rfl, rfl⟩
  | .node _ _ _ cs, h => by
    rw [descendants, List.forall_mem_cons] at h
    exact tile_leavesIn cs h.1 h.2

lemma tile_leavesIn {a b : Nat} : (es : List Element) → Tile a es b →
    (∀ n ∈ descendantsIn es, Tile n.span.start n.children n.span.stop) → Tile a ((leavesIn es).map Leaf.element) b
  | [], ht, _ => ht
  | e :: es, ht, h => by
    rw [descendantsIn, List.forall_mem_append] at h
    rw [leavesIn, List.map_append, ← ht.1]
    exact (tile_leaves e h.1).append (tile_leavesIn es ht.2 h.2)

end

/-- A tiled element starts where the first token in it starts, and one without tokens stops where it starts. -/
lemma start_eq (e : Element) (h : ∀ n ∈ e.descendants, Tile n.span.start n.children n.span.stop) :
    (∀ l ∈ e.leaves.head?, e.span.start = l.token.start) ∧ (e.leaves = [] → e.span.start = e.span.stop) := by
  have htile := tile_leaves e h
  cases hleaves : e.leaves with
  | nil =>
    rw [hleaves] at htile
    exact ⟨nofun, fun _ => htile⟩
  | cons l ls =>
    rw [hleaves] at htile
    refine ⟨fun l' hl => ?_, nofun⟩
    obtain rfl := Option.some.inj hl
    exact htile.1.symm

/-- It stops where the last token in it stops. -/
lemma stop_eq (e : Element) (h : ∀ n ∈ e.descendants, Tile n.span.start n.children n.span.stop) :
    ∀ l ∈ e.leaves.getLast?, e.span.stop = l.token.stop := by
  intro l hl
  obtain ⟨front, hfront⟩ := List.getLast?_eq_some_iff.1 hl
  have htile := tile_leaves e h
  rw [hfront, List.map_append] at htile
  obtain ⟨m, -, hlast⟩ := htile.split
  exact hlast.2.symm

@[simp] lemma leavesIn_append (es fs : List Element) : leavesIn (es ++ fs) = leavesIn es ++ leavesIn fs := by
  induction es with
  | nil => simp [leavesIn]
  | cons e es ih => simp [leavesIn, ih]

@[simp] lemma descendantsIn_append (es fs : List Element) :
    descendantsIn (es ++ fs) = descendantsIn es ++ descendantsIn fs := by
  induction es with
  | nil => simp [descendantsIn]
  | cons e es ih => simp [descendantsIn, ih]

end Element

/-- A tree covers a stretch of a text: its root is of a kind and covers the stretch, and its tokens are
the given ones. -/
structure SyntaxTree.Covers (t : SyntaxTree) (k : Kind) (R : Span) (ts : List Token) : Prop where
  /-- The root has the kind. -/
  kind : t.root.kind = k
  /-- The root covers the stretch. -/
  span : t.root.span = R
  /-- The tokens below the root, in the order of a walk, are the given ones. -/
  tokens : t.root.leaves.map Leaf.token = ts
  /-- Each of them is met once: their numbers ascend from 0. -/
  tokenIds : t.root.leaves.map Leaf.id = List.range ts.length
  /-- The parts of every node tile it. -/
  tiled : ∀ n ∈ t.root.descendants, Element.Tile n.span.start n.children n.span.stop
  /-- The nodes are numbered from 0 in the order of a walk. -/
  nodeIds : t.root.descendants.map Node.id = List.range t.root.descendants.length
  /-- Every error lies inside the stretch. -/
  inside : ∀ e ∈ t.errors, R.covers e.span
  /-- Every error belongs to a node of the tree. -/
  attached : ∀ e ∈ t.errors, ∃ n ∈ t.root.descendants, n.id = e.node

namespace Sprout

lemma mem_errorsIn {e : Problem × Span} {ss : List Sprout} : e ∈ errorsIn ss ↔ ∃ s ∈ ss, e ∈ s.errors := by
  induction ss with
  | nil => simp [errorsIn]
  | cons s ss ih => simp [errorsIn, ih]

end Sprout

/-! ## What weaving does to the loom -/

/-- The tokens a loom still has to place. -/
def Loom.pending (l : Loom) : List Token := (Words.mk l.words l.tail).toTokens

/-- From the loom `l`, elements were woven inside open nodes and the loom became `m`. The errors found
on the way lie in `R`. -/
structure Woven (R : Span) (opened : List OpenNode) (l : Loom) (es : List Element) (m : Loom) : Prop where
  /-- The elements tile what lies between the two positions. -/
  tile : Element.Tile l.position es m.position
  /-- So do the parts of every node among them. -/
  inner : ∀ n ∈ Element.descendantsIn es, Element.Tile n.span.start n.children n.span.stop
  /-- The nodes are numbered in order. -/
  nodeIds : (Element.descendantsIn es).map Node.id =
    List.range' l.nodes (Element.descendantsIn es).length
  nodes : m.nodes = l.nodes + (Element.descendantsIn es).length
  /-- The tokens are numbered in order. -/
  tokenIds : (Element.leavesIn es).map Leaf.id = List.range' l.tokens (Element.leavesIn es).length
  tokens : m.tokens = l.tokens + (Element.leavesIn es).length
  /-- An error lies in `R` and belongs to an open node or to one of the nodes woven. -/
  errors : ∀ e ∈ m.errors, e ∈ l.errors ∨ R.covers e.span ∧
    (e.node ∈ opened.map Prod.fst ∨ l.nodes ≤ e.node ∧ e.node < m.nodes)

namespace Woven

variable {R : Span} {opened : List OpenNode} {l m n : Loom} {es fs : List Element}

lemma refl (l : Loom) : Woven R opened l [] l where
  tile := rfl
  inner := by simp [Element.descendantsIn]
  nodeIds := by simp [Element.descendantsIn]
  nodes := by simp [Element.descendantsIn]
  tokenIds := by simp [Element.leavesIn]
  tokens := by simp [Element.leavesIn]
  errors := fun _ h => .inl h

lemma append (h : Woven R opened l es m) (k : Woven R opened m fs n) :
    Woven R opened l (es ++ fs) n where
  tile := h.tile.append k.tile
  inner := by
    intro x hx
    rw [Element.descendantsIn_append, List.mem_append] at hx
    exact hx.elim (h.inner x) (k.inner x)
  nodeIds := by
    rw [Element.descendantsIn_append, List.map_append, List.length_append, h.nodeIds, k.nodeIds, h.nodes,
      List.range'_append_1]
  nodes := by simp [k.nodes, h.nodes, Nat.add_assoc]
  tokenIds := by
    rw [Element.leavesIn_append, List.map_append, List.length_append, h.tokenIds, k.tokenIds, h.tokens,
      List.range'_append_1]
  tokens := by simp [k.tokens, h.tokens, Nat.add_assoc]
  errors := by
    intro e he
    have hlm : l.nodes ≤ m.nodes := by simp [h.nodes]
    have hmn : m.nodes ≤ n.nodes := by simp [k.nodes]
    rcases k.errors e he with he | ⟨hR, hnode⟩
    · rcases h.errors e he with he | ⟨hR, hnode⟩
      · exact .inl he
      · exact .inr ⟨hR, hnode.imp_right fun ⟨a, b⟩ => ⟨a, by omega⟩⟩
    · exact .inr ⟨hR, hnode.imp_right fun ⟨a, b⟩ => ⟨by omega, b⟩⟩

end Woven

lemma innermost_mem {opened : List OpenNode} (h : opened ≠ []) : innermost opened ∈ opened.map Prod.fst := by
  obtain ⟨o, os, rfl⟩ := List.exists_cons_of_ne_nil h
  simp [innermost]

lemma anchor_mem {opened : List OpenNode} (h : opened ≠ []) : anchor opened ∈ opened.map Prod.fst := by
  unfold anchor
  cases hf : opened.find? (·.2.isAnchor) with
  | none => exact innermost_mem h
  | some o => exact List.mem_map_of_mem (List.mem_of_find?_eq_some hf)

/-! ## Placing tokens -/

namespace Loom

variable {R : Span} {opened : List OpenNode}

@[simp] lemma pending_placeToken (t : Token) (l : Loom) : (l.placeToken opened t).2.pending = l.pending := by
  unfold placeToken
  split <;> rfl

lemma woven_placeToken (ho : opened ≠ []) {t : Token} {l : Loom} (ht : t.start = l.position)
    (hR : R.covers t.span) :
    Woven R opened l [(l.placeToken opened t).1] (l.placeToken opened t).2 where
  tile := by unfold placeToken; exact ⟨ht, rfl⟩
  inner := by simp [placeToken, Element.descendantsIn, Element.descendants]
  nodeIds := by simp [placeToken, Element.descendantsIn, Element.descendants]
  nodes := by unfold placeToken; split <;> simp [Element.descendantsIn, Element.descendants, withError]
  tokenIds := by unfold placeToken; split <;> simp [Element.leavesIn, Element.leaves, withError]
  tokens := by unfold placeToken; split <;> simp [Element.leavesIn, Element.leaves, withError]
  errors := by
    intro e he
    unfold placeToken at he
    split at he
    · rcases List.mem_cons.1 he with rfl | he
      · exact .inr ⟨hR, .inl (anchor_mem ho)⟩
      · exact .inl he
    · exact .inl he

lemma woven_place (ho : opened ≠ []) (ts rest : List Token) {l : Loom}
    (ht : Token.Tile l.position (ts ++ rest)) (hR : ∀ t ∈ ts, R.covers t.span) :
    Woven R opened l (place opened ts l).1 (place opened ts l).2 ∧
      (Element.leavesIn (place opened ts l).1).map Leaf.token = ts ∧
      (place opened ts l).2.pending = l.pending ∧ Token.Tile (place opened ts l).2.position rest ∧
      (place opened ts l).2.position = l.position + Text.size (ts.flatMap Token.text) := by
  induction ts generalizing l with
  | nil => exact ⟨.refl l, rfl, rfl, ht, rfl⟩
  | cons t ts ih =>
    obtain ⟨hstart, htail⟩ : t.start = l.position ∧ Token.Tile t.stop (ts ++ rest) := by
      generalize hn : l.position = n at ht
      cases ht with
      | cons h => exact ⟨rfl, h⟩
    have hp : (l.placeToken opened t).2.position = t.stop := rfl
    obtain ⟨hw, hl, hpend, hrest, hend⟩ := ih (l := (l.placeToken opened t).2) (hp ▸ htail)
      (fun u hu => hR u (by simp [hu]))
    refine ⟨(woven_placeToken ho hstart (hR t (by simp))).append hw, ?_, ?_, hrest, ?_⟩
    · simp only [place, Element.leavesIn, List.map_append, hl]
      rfl
    · simpa only [place, pending_placeToken] using hpend
    · simp only [place, hend, hp, Token.stop, hstart, List.flatMap_cons, Text.size_append, Nat.add_assoc]

/-- A loom whose pending tokens follow one another from its position to the end of `R`, and lie in
`R`. -/
structure Ready (R : Span) (l : Loom) : Prop where
  tile : Token.Tile l.position l.pending
  inside : ∀ t ∈ l.pending, R.covers t.span
  stop : l.position + Text.size (l.pending.flatMap Token.text) = R.stop

/-- Placing the first of the pending tokens, when the loom is left with the others. -/
lemma woven_first (ho : opened ≠ []) (ts : List Token) {l : Loom} (l' : Loom) (hl : l.Ready R)
    (hpend : l.pending = ts ++ l'.pending) (hpos : l'.position = l.position) (hnodes : l'.nodes = l.nodes)
    (htokens : l'.tokens = l.tokens) (herrors : l'.errors = l.errors) :
    Woven R opened l (place opened ts l').1 (place opened ts l').2 ∧ (place opened ts l').2.Ready R ∧
      l.pending = (Element.leavesIn (place opened ts l').1).map Leaf.token ++
        (place opened ts l').2.pending := by
  have hin : ∀ t ∈ ts, R.covers t.span := fun t ht => hl.inside t (by simp [hpend, ht])
  have htile := hl.tile
  rw [hpend, ← hpos] at htile
  obtain ⟨hw, hleaves, hpend', hrest, hend⟩ := woven_place ho ts l'.pending htile hin
  refine ⟨?_, ⟨hpend' ▸ hrest, ?_, ?_⟩, ?_⟩
  · exact { tile := hpos ▸ hw.tile, inner := hw.inner, nodeIds := hnodes ▸ hw.nodeIds,
            nodes := hnodes ▸ hw.nodes, tokenIds := htokens ▸ hw.tokenIds, tokens := htokens ▸ hw.tokens,
            errors := herrors ▸ hnodes ▸ hw.errors }
  · intro t ht
    rw [hpend'] at ht
    exact hl.inside t (by simp [hpend, ht])
  · have := hl.stop
    rw [hpend, List.flatMap_append, Text.size_append] at this
    rw [hpend', hend, hpos]
    omega
  · rw [hleaves, hpend', hpend]

end Loom

/-- Weaving gives elements that hold the first of the pending tokens, and leaves the others. -/
structure Weaves (R : Span) (opened : List OpenNode) (l : Loom) (r : List Element × Loom) : Prop where
  woven : Woven R opened l r.1 r.2
  ready : r.2.Ready R
  pending : l.pending = (Element.leavesIn r.1).map Leaf.token ++ r.2.pending

namespace Weaves

variable {R : Span} {opened : List OpenNode} {l : Loom}

lemma append {r : List Element × Loom} (h : Weaves R opened l r) {r' : List Element × Loom}
    (k : Weaves R opened r.2 r') : Weaves R opened l (r.1 ++ r'.1, r'.2) :=
  ⟨h.woven.append k.woven, k.ready, by simp [h.pending, k.pending]⟩

lemma placeGap (ho : opened ≠ []) (hl : l.Ready R) : Weaves R opened l (l.placeGap opened) := by
  unfold Loom.placeGap
  split
  · next hw =>
    obtain ⟨a, b, c⟩ := Loom.woven_first ho l.tail { l with tail := [] } hl
      (by simp [Loom.pending, Words.toTokens, hw]) rfl rfl rfl rfl
    exact ⟨a, b, c⟩
  · next w ws hw =>
    obtain ⟨a, b, c⟩ := Loom.woven_first ho w.gap
      { l with words := { w with gap := [] } :: ws } hl
      (by simp [Loom.pending, Words.toTokens, hw]) rfl rfl rfl rfl
    exact ⟨a, b, c⟩

lemma placeWord (ho : opened ≠ []) (hl : l.Ready R) : Weaves R opened l (l.placeWord opened) := by
  unfold Loom.placeWord
  split
  · next hw =>
    obtain ⟨a, b, c⟩ := Loom.woven_first ho l.tail { l with tail := [] } hl
      (by simp [Loom.pending, Words.toTokens, hw]) rfl rfl rfl rfl
    exact ⟨a, b, c⟩
  · next w ws hw =>
    obtain ⟨a, b, c⟩ := Loom.woven_first ho (w.gap ++ [w.token]) { l with words := ws } hl
      (by simp [Loom.pending, Words.toTokens, hw]) rfl rfl rfl rfl
    exact ⟨a, b, c⟩

lemma placeRest (ho : opened ≠ []) (hl : l.Ready R) :
    Weaves R opened l (l.placeRest opened) ∧ (l.placeRest opened).2.pending = [] := by
  obtain ⟨a, b, c⟩ := Loom.woven_first ho (Words.mk l.words l.tail).toTokens
    { l with words := [], tail := [] } hl (by simp [Loom.pending, Words.toTokens]) rfl rfl rfl rfl
  refine ⟨⟨a, b, c⟩, ?_⟩
  have hleaves := (Loom.woven_place (R := R) ho (Words.mk l.words l.tail).toTokens []
    (l := { l with words := [], tail := [] }) (by simpa [Loom.pending] using hl.tile) hl.inside).2.2.1
  simpa [Loom.placeRest, Loom.pending, Words.toTokens] using hleaves

/-- A node around what was woven inside it. -/
lemma node {k : Kind} {r : List Element × Loom}
    (h : Weaves R ((l.nodes, k) :: opened) { l with nodes := l.nodes + 1 } r) :
    Weaves R opened l ([.node l.nodes k (.between l.position r.2.position) r.1], r.2) where
  woven :=
    { tile := ⟨rfl, Span.stop_between h.woven.tile.le⟩
      inner := by
        intro n hn
        simp only [Element.descendantsIn, Element.descendants, List.append_nil, List.mem_cons] at hn
        rcases hn with rfl | hn
        · simpa only [Span.start_between, Span.stop_between h.woven.tile.le] using h.woven.tile
        · exact h.woven.inner n hn
      nodeIds := by
        have := h.woven.nodeIds
        simp only [Element.descendantsIn, Element.descendants, List.append_nil, List.map_cons,
          List.length_cons, this]
        rfl
      nodes := by
        have := h.woven.nodes
        simp only [Element.descendantsIn, Element.descendants, List.append_nil, List.length_cons] at *
        omega
      tokenIds := by simpa [Element.leavesIn, Element.leaves] using h.woven.tokenIds
      tokens := by simpa [Element.leavesIn, Element.leaves] using h.woven.tokens
      errors := by
        intro e he
        refine (h.woven.errors e he).imp_right fun ⟨hR, hnode⟩ => ⟨hR, ?_⟩
        have hn := h.woven.nodes
        dsimp only at hnode hn ⊢
        rcases hnode with hnode | hnode
        · rcases List.mem_cons.1 hnode with heq | hnode
          · exact .inr ⟨by omega, by omega⟩
          · exact .inl hnode
        · exact .inr ⟨by omega, hnode.2⟩ }
  ready := h.ready
  pending := by simpa [Element.leavesIn, Element.leaves, Loom.pending] using h.pending

end Weaves

/-! ## Weaving sprouts -/

namespace Sprout

variable {R : Span}

mutual

lemma weaves_weave {opened : List OpenNode} (ho : opened ≠ []) : (s : Sprout) → {l : Loom} → l.Ready R →
    (∀ e ∈ s.errors, R.covers e.2) → Weaves R opened l (s.weave opened l)
  | .word _, _, hl, _ => .placeWord ho hl
  | .error p r, l, hl, he => by
    refine ⟨⟨rfl, ?_, ?_, ?_, ?_, ?_, ?_⟩, ⟨hl.tile, hl.inside, hl.stop⟩, ?_⟩
    case refine_6 =>
      intro e h
      rcases List.mem_cons.1 h with rfl | h
      · exact .inr ⟨he (p, r) (by simp [errors]), .inl (innermost_mem ho)⟩
      · exact .inl h
    all_goals simp [weave, Loom.withError, Element.descendantsIn, Element.leavesIn, Loom.pending]
  | .node k cs, l, hl, he => by
    have hgap := Weaves.placeGap ho hl
    have hin := weaves_weaveIn (List.cons_ne_nil ((l.placeGap opened).2.nodes, k) opened) cs
      (l := { (l.placeGap opened).2 with nodes := (l.placeGap opened).2.nodes + 1 })
      ⟨hgap.ready.tile, hgap.ready.inside, hgap.ready.stop⟩ (by simpa [errors] using he)
    exact hgap.append hin.node

lemma weaves_weaveIn {opened : List OpenNode} (ho : opened ≠ []) : (ss : List Sprout) → {l : Loom} →
    l.Ready R → (∀ e ∈ errorsIn ss, R.covers e.2) → Weaves R opened l (weaveIn opened ss l)
  | [], l, hl, _ => ⟨.refl l, hl, rfl⟩
  | s :: ss, l, hl, he => by
    have hs := weaves_weave ho s hl (fun e h => he e (by simp [errorsIn, h]))
    have hss := weaves_weaveIn ho ss hs.ready (fun e h => he e (by simp [errorsIn, h]))
    exact hs.append hss

end

/-- The tree woven from sprouts covers the text, whatever the sprouts are, if their errors lie inside
it. -/
lemma covers_tree {k : Kind} {sprouts : List Sprout} {text : Text} {offset : Nat} {ws : Words}
    (hts : Token.Covers offset text ws.toTokens)
    (he : ∀ e ∈ errorsIn sprouts, Span.covers ⟨offset, text.size⟩ e.2) :
    (tree k sprouts text offset ws).Covers k ⟨offset, text.size⟩ ws.toTokens := by
  let start : Loom := { words := ws.words, tail := ws.tail, position := offset, nodes := 1 }
  have hready : start.Ready ⟨offset, text.size⟩ :=
    ⟨hts.tile, hts.inside, by rw [← hts.chars]; rfl⟩
  have hin := weaves_weaveIn (List.cons_ne_nil (0, k) []) sprouts hready he
  obtain ⟨hrest, hdone⟩ := Weaves.placeRest (List.cons_ne_nil (0, k) []) hin.ready
  have hall := hin.append hrest
  set r := ((weaveIn [(0, k)] sprouts start).1 ++
    (Loom.placeRest [(0, k)] (weaveIn [(0, k)] sprouts start).2).1,
    (Loom.placeRest [(0, k)] (weaveIn [(0, k)] sprouts start).2).2) with hr
  have htree : tree k sprouts text offset ws =
      ⟨text, offset, ⟨0, k, .between offset r.2.position, r.1⟩, r.2.errors.reverse⟩ := rfl
  have hleaves : (Element.leavesIn r.1).map Leaf.token = ws.toTokens := by
    have hp := hall.pending
    rw [show r.2.pending = [] from hdone, List.append_nil] at hp
    exact hp.symm
  have hstop : r.2.position = offset + text.size := by
    have hs := hall.ready.stop
    rwa [show r.2.pending = [] from hdone] at hs
  have hspan : Span.between offset r.2.position = ⟨offset, text.size⟩ := by
    simp [Span.between, hstop]
  have htile : Element.Tile offset r.1 (offset + text.size) := hstop ▸ hall.woven.tile
  have hnodes : r.2.nodes = 1 + (Element.descendantsIn r.1).length := hall.woven.nodes
  rw [htree]
  exact
    { kind := rfl
      span := hspan
      tokens := hleaves
      tokenIds := by
        have hlen := congrArg List.length hleaves
        rw [List.length_map] at hlen
        rw [← hlen, List.range_eq_range']
        exact hall.woven.tokenIds
      tiled := by
        intro n hn
        rcases List.mem_cons.1 hn with rfl | hn
        · rw [hspan]
          exact htile
        · exact hall.woven.inner n hn
      nodeIds := by
        simp only [Node.descendants, Node.element, Element.descendants, List.map_cons, List.length_cons,
          hall.woven.nodeIds, List.range_eq_range', List.range'_succ]
        rfl
      inside := fun e he => by
        rcases hall.woven.errors e (List.mem_reverse.1 he) with he | ⟨hR, -⟩
        · simp [start] at he
        · exact hR
      attached := fun e he => by
        rcases hall.woven.errors e (List.mem_reverse.1 he) with he | ⟨-, hnode⟩
        · simp [start] at he
        · refine List.mem_map.1 (?_ : e.node ∈ (0 :: (Element.descendantsIn r.1).map Node.id))
          rw [hall.woven.nodeIds, List.mem_cons, List.mem_range'_1]
          rcases hnode with h | h
          · exact .inl (by simpa using h)
          · exact .inr ⟨h.1, by rw [← hnodes]; exact h.2⟩ }

end Sprout

end GoFront
