import GoFront.Proofs.Tree.Building
import GoFront.Tree.Arena

/-!
# Arenas are filled as trees are built

The arena that steps fill is the layout of the tree that the same steps build (`Arena.build_eq`). While it is being
filled, it holds the nodes and tokens below the open nodes, and the buffer of an open node holds the parts it has so
far, the next open node among them; `Flattens` says so, and every step keeps it.
-/

namespace GoFront

open Arena

/-! ## Laying out elements that follow one another -/

namespace Element

@[simp] lemma partsIn_append (es fs : List Element) : partsIn (es ++ fs) = partsIn es ++ partsIn fs := by
  induction es with
  | nil => simp [partsIn]
  | cons e es ih => simp [partsIn, ih]

@[simp] lemma entriesIn_append (place : Nat) (es fs : List Element) :
    entriesIn place (es ++ fs) = entriesIn place es ++ entriesIn (place + (partsIn es).length) fs := by
  induction es generalizing place with
  | nil => simp [partsIn, entriesIn]
  | cons e es ih => simp [partsIn, entriesIn, ih, Nat.add_assoc]

mutual

lemma length_entries (place : Nat) : (e : Element) → (entries place e).length = (descendants e).length
  | .token _ _ => rfl
  | .node _ _ _ cs => by simp [entries, descendants, length_entriesIn place cs]

lemma length_entriesIn (place : Nat) : (es : List Element) →
    (entriesIn place es).length = (descendantsIn es).length
  | [] => rfl
  | e :: es => by simp [entriesIn, descendantsIn, length_entries place e, length_entriesIn _ es]

end

end Element

/-! ## The arena of a tree that is being built -/

namespace Builder

/-- The parts of finished nodes below open ones. -/
def openParts : List Open → List Child
  | [] => []
  | o :: os => openParts os ++ Element.partsIn o.children.reverse

/-- The entries of open nodes and of the nodes below them. -/
def openEntries : List Open → List NodeEntry
  | [] => []
  | o :: os => openEntries os ++
    ⟨o.kind, .emptyAt o.start, 0, 0⟩ :: Element.entriesIn (openParts os).length o.children.reverse

/-- The buffers of open nodes; the innermost one is still to get the parts `next`. -/
def buffers (next : List Child) : List Open → List (Nat × List Child)
  | [] => []
  | o :: os => (o.id, o.children.reverse.map Element.child ++ next) :: buffers [.node o.id] os

lemma length_openEntries (os : List Open) : (openEntries os).length = (openNodes os).length := by
  induction os with
  | nil => rfl
  | cons o os ih => simp [openEntries, openNodes, ih, Element.length_entriesIn]

/-- If nodes are numbered in order, an open node has the number of the nodes before it. -/
lemma id_eq_length {o : Open} {os : List Open} {n : Nat} (h : (openNodes (o :: os)).map Node.id = List.range n) :
    o.id = (openEntries os).length ∧ (openNodes os).map Node.id = List.range (openEntries os).length := by
  rw [length_openEntries, openNodes, List.map_append, List.map_cons] at *
  have hle : (openNodes os).length < n := by
    have := congrArg List.length h
    simp at this
    omega
  refine ⟨?_, ?_⟩
  · have hget := congrArg (·[(openNodes os).length]?) h
    simpa [hle, Open.node] using hget
  · have htake := congrArg (List.take (openNodes os).length) h
    simpa [List.take_range, Nat.min_eq_left (Nat.le_of_lt hle)] using htake

/-- The entry at the number of an open node is the one of that node. -/
lemma kind_openEntries {os : List Open} {n : Nat} (h : (openNodes os).map Node.id = List.range n) :
    ∀ o ∈ os, (openEntries os)[o.id]?.map NodeEntry.kind = some o.kind := by
  induction os generalizing n with
  | nil => simp
  | cons o os ih =>
    obtain ⟨hid, hrest⟩ := id_eq_length h
    intro p hp
    rw [openEntries]
    rcases List.mem_cons.1 hp with rfl | hp
    · simp [hid]
    · have hentry := ih hrest p hp
      obtain ⟨entry, hentry', -⟩ := Option.map_eq_some_iff.1 hentry
      rw [List.getElem?_append_left (List.getElem?_eq_some_iff.1 hentry').1]
      exact hentry

/-- Looking for an open node among the buffers finds the same one. -/
lemma find?_buffers {nodes : List NodeEntry} {os : List Open} (next : List Child)
    (h : ∀ o ∈ os, nodes[o.id]?.map NodeEntry.kind = some o.kind) :
    ((buffers next os).find? fun p => nodes[p.1]?.any (·.kind.isAnchor)).map Prod.fst =
      (os.find? (·.kind.isAnchor)).map Open.id := by
  induction os generalizing next with
  | nil => rfl
  | cons o os ih =>
    obtain ⟨entry, hentry, hkind⟩ := Option.map_eq_some_iff.1 (h o List.mem_cons_self)
    have hrest := ih [.node o.id] fun p hp => h p (List.mem_cons_of_mem _ hp)
    rw [buffers, List.find?_cons, List.find?_cons, hentry, ← hkind, Option.any_some]
    cases entry.kind.isAnchor with
    | true => rfl
    | false => exact hrest

end Builder

namespace Arena.Filling

open Builder

/-- The arena `f` holds the tree that `b` builds, as far as it goes. -/
structure Flattens (f : Filling) (b : Builder) : Prop where
  /-- Both have the same text. -/
  text_eq : f.text = b.text
  /-- At the same place. -/
  offset_eq : f.offset = b.offset
  /-- Both stand at the same place in it. -/
  covered : ∃ done, b.text = done ++ b.rest ∧ done.size = f.covered ∧ b.position = b.offset + f.covered
  /-- The nodes so far. -/
  nodes : f.nodes = (b.root.map (·.element.entries 0)).getD (openEntries b.opened)
  /-- The parts of the nodes finished so far. -/
  children : f.children = (b.root.map (·.element.parts)).getD (openParts b.opened)
  /-- The tokens so far. -/
  tokens : f.tokens = b.leafList.map Leaf.entry
  /-- The open nodes. -/
  opened : f.opened = buffers [] b.opened
  /-- The errors so far. -/
  errors : f.errors = b.errors.reverse
  /-- Buffers that are not in use are empty. -/
  pool : ∀ cs ∈ f.pool, cs = []

lemma modify_append_cons {α : Type} (xs ys : List α) (x : α) (g : α → α) :
    (xs ++ x :: ys).modify xs.length g = xs ++ g x :: ys := by
  induction xs with
  | nil => rfl
  | cons y xs ih => simp [ih]

namespace Flattens

variable {f : Filling} {b : Builder} {s : BuildStep}

lemma length_nodes (h : Flattens f b) (hb : Sound b) : f.nodes.length = b.nodes := by
  have hids := congrArg List.length hb.nodeIds
  rw [List.length_map, List.length_range, nodeList] at hids
  rw [h.nodes, ← hids]
  cases b.root with
  | none => exact length_openEntries _
  | some r => exact Element.length_entries 0 r.element

lemma length_tokens (h : Flattens f b) (hb : Sound b) : f.tokens.length = b.tokens := by
  rw [h.tokens, List.length_map, ← List.length_map Leaf.id, hb.leafIds, List.length_range]

lemma position (h : Flattens f b) : f.position = b.position := by
  obtain ⟨-, -, -, hposition⟩ := h.covered
  rw [hposition, Filling.position, h.offset_eq]

lemma anchorId (h : Flattens f b) (hb : Sound b) (anchor : Anchor) : f.anchorId anchor = b.anchorId anchor := by
  have hinnermost : (f.opened.head?.map Prod.fst).getD 0 = (b.opened.head?.map Open.id).getD 0 := by
    rw [h.opened]
    cases b.opened <;> rfl
  cases anchor with
  | innermost => exact hinnermost
  | statement =>
    have hkinds : ∀ o ∈ b.opened, f.nodes[o.id]?.map NodeEntry.kind = some o.kind := by
      cases hr : b.root with
      | some r => simp [(hb.root r hr).1]
      | none =>
        rw [h.nodes, hr]
        exact kind_openEntries (hb.openIds hr)
    simp only [Filling.anchorId, Builder.anchorId]
    rw [hinnermost, h.opened, find?_buffers _ hkinds]

/-- Any buffer taken from the pool is empty. -/
lemma head?_pool (h : Flattens f b) : f.pool.head?.getD [] = [] := by
  cases hp : f.pool with
  | nil => rfl
  | cons cs pool => exact h.pool cs (by simp [hp])

/-- A token ends at a character boundary for the one if it does for the other. -/
lemma isSome_cut?_iff (h : Flattens f b) (n : Nat) :
    (f.text.cut? (f.covered + n)).isSome = (b.rest.cut? n).isSome := by
  obtain ⟨done, hdone, hsize, -⟩ := h.covered
  rw [Bool.eq_iff_iff, Text.isSome_cut?_iff, Text.isSome_cut?_iff, h.text_eq, hdone, ← hsize, Text.isBoundary_append]

/-! ## One step -/

lemma token_error (h : Flattens f b) {k : Kind} {span : Span} {e : BuildError} (hs : b.token k span = .error e) :
    f.token k span = .error e := by
  have hcut := h.isSome_cut?_iff span.length
  unfold Builder.token at hs
  unfold Filling.token
  rw [h.position]
  split at hs
  · next hstart =>
    rw [if_pos hstart]
    rw [Except.error.inj hs]
  · next hstart =>
    rw [if_neg hstart]
    split at hs
    · next hc =>
      rw [if_pos (by simpa [hc] using hcut)]
      rw [Except.error.inj hs]
    · next hc =>
      rw [if_neg (by simpa [hc, ← Option.isSome_iff_ne_none] using hcut)]
      split at hs
      · next ho =>
        rw [h.opened, ho, buffers, Except.error.inj hs]
      · cases hs

/-- A step that the builder refuses cannot be taken in the arena, for the same reason. -/
lemma step_error (h : Flattens f b) (hb : Sound b) {e : BuildError} (hs : b.step s = .error e) :
    f.step s = .error e := by
  cases s with
  | start k =>
    simp only [Builder.step, Builder.start] at hs
    split at hs
    · next hc =>
      obtain ⟨ho, hne⟩ : b.opened = [] ∧ b.nodes ≠ 0 := by simpa using hc
      have hopened : f.opened = [] := by rw [h.opened, ho]; rfl
      have hnodes : f.nodes.isEmpty = false := by
        rw [← h.length_nodes hb] at hne
        simpa using hne
      simpa [Filling.step, Filling.start, hopened, hnodes] using hs
    · cases hs
  | finish =>
    simp only [Builder.step, Builder.finish] at hs
    split at hs
    · next ho => simpa [Filling.step, Filling.finish, h.opened, ho, buffers] using hs
    · split at hs <;> cases hs
  | token k a z =>
    simp only [Builder.step, Filling.step] at hs ⊢
    split at hs
    · next hle =>
      rw [if_pos hle]
      exact h.token_error hs
    · next hle => rw [if_neg hle, Except.error.inj hs]
  | error message a z anchor =>
    simp only [Builder.step] at hs
    split at hs
    · cases hs
    · next hle => simpa [Filling.step, hle] using hs

/-- Starting a node. -/
lemma start (h : Flattens f b) (hb : Sound b) (k : Kind) (hfirst : b.opened = [] → b.nodes = 0) :
    ∃ f', f.start k = .ok f' ∧ Flattens f'
      { b with opened := ⟨b.nodes, k, b.position, []⟩ :: b.opened, nodes := b.nodes + 1 } := by
  have hroot := hb.root_eq_none hfirst
  have hlength := h.length_nodes hb
  have hnodes := h.nodes
  have hchildren := h.children
  have htokens := h.tokens
  refine ⟨f.enter k (buffers [.node b.nodes] b.opened), ?_, ?_⟩
  · cases ho : b.opened with
    | nil =>
      have hempty : f.nodes = [] := List.length_eq_zero_iff.1 (hlength.trans (hfirst ho))
      simp [Filling.start, h.opened, ho, buffers, hempty]
    | cons p ps => simp [Filling.start, h.opened, ho, buffers, hlength]
  · simp only [hroot, Option.map_none, Option.getD_none, leafList] at hnodes hchildren htokens
    refine ⟨h.text_eq, h.offset_eq, h.covered, ?_, ?_, ?_, ?_, h.errors, ?_⟩
    · simp [enter, hroot, openEntries, Element.entriesIn, hnodes, h.position]
    · simp [enter, hroot, openParts, Element.partsIn, hchildren]
    · simp [enter, leafList, hroot, openLeaves, Element.leavesIn, htokens]
    · simp [enter, buffers, hlength, h.head?_pool]
    · exact fun cs hcs => h.pool cs (List.mem_of_mem_tail hcs)

/-- The entry of the innermost open node is the last one that has not been finished. -/
lemma modify_openEntries {o : Open} {os : List Open} {n : Nat} (h : (openNodes (o :: os)).map Node.id = List.range n)
    (g : NodeEntry → NodeEntry) : (openEntries (o :: os)).modify o.id g = openEntries os ++
      g ⟨o.kind, .emptyAt o.start, 0, 0⟩ :: Element.entriesIn (openParts os).length o.children.reverse := by
  rw [openEntries, (id_eq_length h).1, modify_append_cons]

/-- Finishing a node that is not the root: it becomes a part of the node around it. -/
lemma finish_inner (h : Flattens f b) (hb : Sound b) {o p : Open} {ps : List Open} (ho : b.opened = o :: p :: ps) :
    ∃ f', f.finish = .ok f' ∧ Flattens f' { b with opened := { p with
      children := .node o.id o.kind (.between o.start b.position) o.children.reverse :: p.children } :: ps } := by
  have hroot := hb.root_eq_none (by simp [ho])
  have hids := hb.openIds hroot
  have hnodes := h.nodes
  have hchildren := h.children
  have htokens := h.tokens
  have hopened := h.opened
  simp only [hroot, Option.map_none, Option.getD_none, leafList, ho] at hids hnodes hchildren htokens hopened
  refine ⟨f.leave o.id (o.children.reverse.map Element.child ++ []) (buffers [.node o.id] (p :: ps)),
    by rw [Filling.finish, hopened]; rfl, h.text_eq, h.offset_eq, h.covered, ?_, ?_, ?_, ?_, h.errors, ?_⟩
  · simp only [leave, hnodes, modify_openEntries hids]
    simp [hroot, openEntries, openParts, hchildren, h.position, Element.entriesIn, Element.entries, Span.emptyAt,
      Nat.add_assoc]
  · simp [leave, hroot, openParts, hchildren, Element.partsIn, Element.parts]
  · simpa [leave, leafList, hroot, openLeaves, Element.leavesIn, Element.leaves] using htokens
  · simp [leave, buffers, Element.child]
  · simpa [leave] using h.pool

/-- Finishing the root. -/
lemma finish_root (h : Flattens f b) (hb : Sound b) {o : Open} (ho : b.opened = [o]) :
    ∃ f', f.finish = .ok f' ∧ Flattens f' { b with
      opened := [], root := some ⟨o.id, o.kind, .between o.start b.position, o.children.reverse⟩ } := by
  have hroot := hb.root_eq_none (by simp [ho])
  have hids := hb.openIds hroot
  have hnodes := h.nodes
  have hchildren := h.children
  have htokens := h.tokens
  have hopened := h.opened
  simp only [hroot, Option.map_none, Option.getD_none, leafList, ho] at hids hnodes hchildren htokens hopened
  refine ⟨f.leave o.id (o.children.reverse.map Element.child ++ []) [],
    by rw [Filling.finish, hopened]; rfl, h.text_eq, h.offset_eq, h.covered, ?_, ?_, ?_, ?_, h.errors, ?_⟩
  · simp only [leave, hnodes, modify_openEntries hids]
    simp [openEntries, openParts, hchildren, h.position, Node.element, Element.entries, Span.emptyAt]
  · simp [leave, openParts, hchildren, Node.element, Element.parts]
  · simpa [leave, leafList, openLeaves, Node.leaves, Node.element, Element.leaves] using htokens
  · simp [leave, buffers]
  · simpa [leave] using h.pool

/-- Adding a token. -/
lemma add_token (h : Flattens f b) (hb : Sound b) {k : Kind} {stop : Nat} {o : Open} {os : List Open}
    {piece rest : Text} (hle : b.position ≤ stop) (hrest : b.rest = piece ++ rest)
    (hpiece : piece.size = stop - b.position) (ho : b.opened = o :: os) :
    ∃ f', f.token k (.between b.position stop) = .ok f' ∧ Flattens f' { b with
      opened := { o with children := .token b.tokens ⟨k, b.position, piece⟩ :: o.children } :: os
      rest, position := stop, tokens := b.tokens + 1 } := by
  obtain ⟨done, hdone, hsize, hposition⟩ := h.covered
  have hroot := hb.root_eq_none (by simp [ho])
  have hlength := h.length_tokens hb
  have hnodes := h.nodes
  have hchildren := h.children
  have htokens := h.tokens
  have hopened := h.opened
  have hcut : (f.text.cut? (f.covered + (stop - b.position))).isNone = false := by
    rw [← Option.not_isSome, h.isSome_cut?_iff, hrest, ← hpiece, Text.cut?_append]
    rfl
  simp only [hroot, Option.map_none, Option.getD_none, leafList, ho] at hnodes hchildren htokens hopened
  refine ⟨f.place k (.between b.position stop) o.id (o.children.reverse.map Element.child ++ []) (buffers [.node o.id] os),
    ?_, h.text_eq, h.offset_eq, ⟨done ++ piece, ?_, ?_, ?_⟩, ?_, ?_, ?_, ?_, h.errors, h.pool⟩
  · rw [Filling.token, if_neg (by simp [h.position]), if_neg (by rw [Span.between, hcut]; simp), hopened]
    rfl
  · simp [hdone, hrest]
  · simp [place, Span.between, hsize, hpiece]
  · simp only [place, Span.between]
    omega
  · simpa [place, hroot, openEntries, Element.entriesIn, Element.entries] using hnodes
  · simpa [place, hroot, openParts, Element.partsIn, Element.parts] using hchildren
  · have hspan : (⟨b.position, stop - b.position⟩ : Span) = (Token.mk k b.position piece).span := by
      rw [Token.span, hpiece]
    simp [place, leafList, hroot, openLeaves, Element.leavesIn, Element.leaves, htokens, Leaf.entry, Span.between, hspan]
  · simp [place, buffers, Element.child, hlength]

/-- A step that the builder takes can be taken in the arena. -/
lemma step_ok (h : Flattens f b) (hb : Sound b) {b' : Builder} (hs : b.step s = .ok b') :
    ∃ f', f.step s = .ok f' ∧ Flattens f' b' := by
  rcases step_cases hs with ⟨k, rfl, hfirst, rfl⟩ | ⟨o, rfl, ho, rfl⟩ | ⟨o, p, ps, rfl, ho, rfl⟩ |
    ⟨k, stop, o, os, piece, rest, rfl, hle, hrest, hpiece, ho, rfl⟩ | ⟨message, start, stop, anchor, rfl, hle, rfl⟩
  · exact h.start hb k hfirst
  · exact h.finish_root hb ho
  · exact h.finish_inner hb ho
  · rw [Filling.step, if_pos hle]
    exact h.add_token hb hle hrest hpiece ho
  · refine ⟨f.error message (.between start stop) anchor, by rw [Filling.step, if_pos hle], h.text_eq, h.offset_eq,
      h.covered, h.nodes, h.children, h.tokens, h.opened, ?_, h.pool⟩
    simp [Filling.error, Builder.error, report, h.errors, h.anchorId hb]

/-! ## All steps -/

lemma new (text : Text) (offset : Nat) : Flattens { text, offset } (Builder.new text offset) where
  text_eq := rfl
  offset_eq := rfl
  covered := ⟨[], rfl, rfl, rfl⟩
  nodes := rfl
  children := rfl
  tokens := rfl
  opened := rfl
  errors := rfl
  pool := by simp

/-- Steps go on in the arena as far as they go on in the builder. -/
lemma steps (h : Flattens f b) (hb : Sound b) (taken : Nat) (ss : List BuildStep) :
    (∀ e, b.steps taken ss = .error e → f.steps taken ss = .error e) ∧
    ∀ n b', b.steps taken ss = .ok (n, b') → ∃ f', f.steps taken ss = .ok (n, f') ∧ Flattens f' b' := by
  induction ss generalizing f b taken with
  | nil =>
    refine ⟨nofun, fun n b' hs => ?_⟩
    obtain ⟨rfl, rfl⟩ := Prod.mk.inj (Except.ok.inj hs)
    exact ⟨f, rfl, h⟩
  | cons s ss ih =>
    rw [Builder.steps, Filling.steps]
    cases hs : b.step s with
    | error e => simp [h.step_error hb hs]
    | ok b₁ =>
      obtain ⟨f₁, hf, hflat⟩ := h.step_ok hb hs
      rw [hf]
      exact ih hflat (hb.step hs) (taken + 1)

/-- What comes out in the end is the layout of the tree. -/
lemma arena (h : Flattens f b) : f.arena = b.tree.map SyntaxTree.arena := by
  obtain ⟨done, hdone, hsize, -⟩ := h.covered
  unfold Filling.arena Builder.tree
  cases ho : b.opened with
  | cons o os => simp [h.opened, ho, buffers, Except.map]
  | nil =>
    have hopened : f.opened = [] := by rw [h.opened, ho, buffers]
    cases hr : b.root with
    | none =>
      have hnodes : f.nodes = [] := by simpa [hr, ho, openEntries] using h.nodes
      simp [hopened, hnodes, Except.map]
    | some r =>
      have hnodes : f.nodes = r.element.entries 0 := by simpa [hr] using h.nodes
      have hchildren : f.children = r.element.parts := by simpa [hr] using h.children
      have htokens : f.tokens = r.leaves.map Leaf.entry := by simpa [leafList, hr] using h.tokens
      have hne : f.nodes ≠ [] := by simp [hnodes, Node.element, Element.entries]
      have hcovered : f.covered = f.text.size ↔ b.rest = [] := by
        rw [h.text_eq, hdone, Text.size_append, hsize, ← Text.size_eq_zero]
        omega
      by_cases hrest : b.rest = []
      · have harena : f.toArena = ⟨f.text, f.offset, f.nodes, f.children, f.tokens, f.errors⟩ := rfl
        rw [h.text_eq, h.offset_eq, hnodes, hchildren, htokens, h.errors] at harena
        simpa [hopened, hne, hcovered, hrest, Except.map, SyntaxTree.arena] using harena
      · simp [hopened, hne, hcovered, hrest, Except.map]

end Flattens

end Arena.Filling

/-- **An arena is filled as a tree is built**: what steps fill is the layout of the tree they build, and steps that build
no tree fill no arena, for the same reason. -/
lemma Arena.build_eq (text : Text) (offset : Nat) (ss : List BuildStep) :
    Arena.build text offset ss = (Builder.build text offset ss).map SyntaxTree.arena := by
  obtain ⟨herror, hok⟩ := (Filling.Flattens.new text offset).steps (Builder.Sound.new text offset) 0 ss
  unfold Arena.build Builder.build
  cases hs : (Builder.new text offset).steps 0 ss with
  | error e => simp [herror e hs, Except.map]
  | ok r =>
    obtain ⟨n, b⟩ := r
    obtain ⟨f, hf, hflat⟩ := hok n b hs
    rw [hf]
    dsimp only
    rw [hflat.arena]
    cases b.tree <;> rfl

end GoFront
