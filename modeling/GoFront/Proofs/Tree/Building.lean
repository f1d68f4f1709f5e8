import GoFront.Proofs.Run
import GoFront.Proofs.Tree.Cover
import GoFront.Tree.Builder
import Mathlib.Algebra.GroupWithZero.Nat

/-!
# Which steps build a tree, and which tree

The steps that build a tree are those that fit: `Builds` says when a sequence of steps does, by counting the nodes
started and finished and the bytes of the tokens before each step. A builder takes the steps if and only if they fit
(`isOk_build_iff`).

The tree that comes out is numbered in the order of a walk, and its parts tile (`Assembled`). While it is being built,
the nodes and tokens so far are those below the open nodes, outermost first; `Sound` says what holds of them, and every
step keeps it.
-/

namespace GoFront

/-! ## Steps that fit -/

namespace BuildStep

/-- The number of nodes started. -/
def starts (ss : List BuildStep) : Nat := ss.countP fun
  | .start _ => true
  | _ => false

/-- The number of nodes finished. -/
def finishes (ss : List BuildStep) : Nat := ss.count .finish

/-- The number of bytes a step adds to the tree. -/
@[simp] def length : BuildStep → Nat
  | .token _ a z => z - a
  | _ => 0

/-- The number of bytes of the tokens. -/
def bytes (ss : List BuildStep) : Nat := (ss.map length).sum

/-- A step that fits behind the steps before it. A node starts inside an open one or as the first of all; a node is
finished, and a token added, while one is open; a token starts behind the ones before it and ends at a character
boundary of the text; what lies between two offsets ends behind its start. -/
def Fits (text : Text) (offset : Nat) (before : List BuildStep) : BuildStep → Prop
  | .start _ => starts before = 0 ∨ finishes before < starts before
  | .finish => finishes before < starts before
  | .token _ a z =>
    a ≤ z ∧ a = offset + bytes before ∧ text.IsBoundary (bytes before + (z - a)) ∧ finishes before < starts before
  | .error _ a z _ => a ≤ z

/-- Steps that build a tree over a text. -/
structure Builds (text : Text) (offset : Nat) (ss : List BuildStep) : Prop where
  /-- Every step fits. -/
  fits : ∀ before s after, ss = before ++ s :: after → s.Fits text offset before
  /-- There is a root. -/
  rooted : 0 < starts ss
  /-- Every node is finished. -/
  closed : finishes ss = starts ss
  /-- The tokens cover the text. -/
  covered : bytes ss = text.size

variable {before : List BuildStep}

@[simp] lemma starts_append (ss ts : List BuildStep) : starts (ss ++ ts) = starts ss + starts ts := List.countP_append

@[simp] lemma finishes_append (ss ts : List BuildStep) : finishes (ss ++ ts) = finishes ss + finishes ts :=
  List.count_append

@[simp] lemma bytes_append (ss ts : List BuildStep) : bytes (ss ++ ts) = bytes ss + bytes ts := by simp [bytes]

@[simp] lemma starts_singleton (s : BuildStep) : starts [s] = if s matches .start _ then 1 else 0 := by
  cases s <;> rfl

@[simp] lemma finishes_singleton (s : BuildStep) : finishes [s] = if s = .finish then 1 else 0 := by
  cases s <;> rfl

@[simp] lemma bytes_singleton (s : BuildStep) : bytes [s] = s.length := Nat.add_zero _

end BuildStep

namespace Builder

open BuildStep

/-! ## What a step does -/

/-- What a step that is taken does to a builder. -/
lemma step_cases {b b' : Builder} {s : BuildStep} (h : b.step s = .ok b') :
    (∃ k, s = .start k ∧ (b.opened = [] → b.nodes = 0) ∧
      b' = { b with opened := ⟨b.nodes, k, b.position, []⟩ :: b.opened, nodes := b.nodes + 1 }) ∨
    (∃ o, s = .finish ∧ b.opened = [o] ∧
      b' = { b with opened := [], root := some ⟨o.id, o.kind, .between o.start b.position, o.children.reverse⟩ }) ∨
    (∃ o p ps, s = .finish ∧ b.opened = o :: p :: ps ∧
      b' = { b with opened := { p with
        children := .node o.id o.kind (.between o.start b.position) o.children.reverse :: p.children } :: ps }) ∨
    (∃ k stop o os piece rest, s = .token k b.position stop ∧ b.position ≤ stop ∧ b.rest = piece ++ rest ∧
      piece.size = stop - b.position ∧ b.opened = o :: os ∧
      b' = { b with
        opened := { o with children := .token b.tokens ⟨k, b.position, piece⟩ :: o.children } :: os
        rest, position := stop, tokens := b.tokens + 1 }) ∨
    ∃ message start stop anchor, s = .error message start stop anchor ∧ start ≤ stop ∧
      b' = b.error message (.between start stop) anchor := by
  cases s with
  | start k =>
    left
    simp only [step, Builder.start] at h
    split at h
    · cases h
    · next hne =>
      refine ⟨k, rfl, fun ho => ?_, (Except.ok.inj h).symm⟩
      simpa [ho] using hne
  | finish =>
    right
    simp only [step, finish] at h
    split at h
    · cases h
    · next o os ho =>
      split at h
      · exact .inl ⟨o, rfl, ho, (Except.ok.inj h).symm⟩
      · next p ps => exact .inr (.inl ⟨o, p, ps, rfl, ho, (Except.ok.inj h).symm⟩)
  | token k start stop =>
    right; right; right; left
    simp only [step] at h
    split at h
    · next hle =>
      simp only [token] at h
      split at h
      · cases h
      · next hstart =>
        obtain rfl : start = b.position := not_not.1 hstart
        split at h
        · cases h
        · next piece rest hcut =>
          obtain ⟨hrest, hsize⟩ := Text.eq_append_of_cut? hcut
          split at h
          · cases h
          · next o os ho =>
            refine ⟨k, stop, o, os, piece, rest, rfl, hle, hrest, hsize, ho, ?_⟩
            rw [Span.stop_between hle] at h
            exact (Except.ok.inj h).symm
    · cases h
  | error message start stop anchor =>
    right; right; right; right
    simp only [step] at h
    split at h
    · next hle => exact ⟨message, start, stop, anchor, rfl, hle, (Except.ok.inj h).symm⟩
    · cases h

/-! ## Steps that are taken are those that fit -/

/-- A builder that has taken some steps over a text. -/
structure Reached (text : Text) (offset : Nat) (before : List BuildStep) (b : Builder) : Prop where
  /-- The text stays. -/
  text_eq : b.text = text
  /-- So does its offset. -/
  offset_eq : b.offset = offset
  /-- Nodes are numbered as they are started. -/
  nodes : b.nodes = starts before
  /-- The nodes started and not finished are open. -/
  opened : b.opened.length + finishes before = starts before
  /-- The builder stands behind the tokens. -/
  position : b.position = offset + bytes before
  /-- What no token covers is left. -/
  rest : ∃ done, text = done ++ b.rest ∧ done.size = bytes before
  /-- Once nothing is open any more, there is a root. -/
  root : b.root.isSome ↔ b.opened = [] ∧ 0 < b.nodes

namespace Reached

variable {text : Text} {offset : Nat} {before : List BuildStep} {b b' : Builder} {s : BuildStep}

lemma new (text : Text) (offset : Nat) : Reached text offset [] (new text offset) :=
  ⟨rfl, rfl, rfl, rfl, rfl, ⟨[], rfl, rfl⟩, by simp [Builder.new]⟩

lemma opened_ne_nil (h : Reached text offset before b) : b.opened ≠ [] ↔ finishes before < starts before := by
  have := h.opened
  rw [← List.length_pos_iff]
  omega

/-- A step that is taken leads on. -/
lemma step (h : Reached text offset before b) (hs : b.step s = .ok b') :
    Reached text offset (before ++ [s]) b' := by
  obtain ⟨htext, hoffset, hnodes, hopened, hposition, ⟨done, hdone, hsize⟩, hroot⟩ := h
  rcases step_cases hs with ⟨k, rfl, hfirst, rfl⟩ | ⟨o, rfl, ho, rfl⟩ | ⟨o, p, ps, rfl, ho, rfl⟩ |
    ⟨k, stop, o, os, piece, rest, rfl, hle, hrest, hpiece, ho, rfl⟩ | ⟨message, start, stop, anchor, rfl, hle, rfl⟩
  · have hnone : b.root.isSome ≠ true := by
      intro hr
      obtain ⟨hnil, hpos⟩ := hroot.1 hr
      exact absurd (hfirst hnil) (by omega)
    exact ⟨htext, hoffset, by simp [hnodes], by simp; omega, by simpa using hposition, ⟨done, hdone, by simpa using hsize⟩,
      by simp [hnone]⟩
  · rw [ho] at hopened
    exact ⟨htext, hoffset, by simpa using hnodes, by simp at hopened ⊢; omega, by simpa using hposition,
      ⟨done, hdone, by simpa using hsize⟩, by simp at hopened ⊢; omega⟩
  · rw [ho] at hopened hroot
    exact ⟨htext, hoffset, by simpa using hnodes, by simp at hopened ⊢; omega, by simpa using hposition,
      ⟨done, hdone, by simpa using hsize⟩, by simpa using hroot⟩
  · rw [ho] at hopened hroot
    refine ⟨htext, hoffset, by simpa using hnodes, by simpa using hopened, ?_, ⟨done ++ piece, ?_, ?_⟩, by simpa using hroot⟩
    · simp only [bytes_append, bytes_singleton, BuildStep.length]
      omega
    · simp [hdone, hrest]
    · simp [hsize, hpiece]
  · simp only [Builder.error, report]
    exact ⟨htext, hoffset, by simpa using hnodes, by simpa using hopened, by simpa using hposition,
      ⟨done, hdone, by simpa using hsize⟩, hroot⟩

/-- A step is taken if and only if it fits. -/
lemma step_isOk_iff (h : Reached text offset before b) : (∃ b', b.step s = .ok b') ↔ s.Fits text offset before := by
  obtain ⟨done, hdone, hsize⟩ := h.rest
  have hopen := h.opened_ne_nil
  cases s with
  | start k =>
    have hguard : (b.opened.isEmpty && b.nodes ≠ 0) = true ↔ ¬(starts before = 0 ∨ finishes before < starts before) := by
      rw [← hopen, ← h.nodes]
      simp
      tauto
    simp only [Builder.step, Builder.start, BuildStep.Fits]
    split
    · next hc => simpa using hguard.1 hc
    · next hc => simpa using not_not.1 (mt hguard.2 hc)
  | finish =>
    simp only [Builder.step, finish, BuildStep.Fits, ← hopen]
    cases hos : b.opened with
    | nil => simp
    | cons o os => cases os <;> simp
  | token k a z =>
    have hcut : (b.rest.cut? (z - a)).isSome ↔ text.IsBoundary (bytes before + (z - a)) := by
      rw [Text.isSome_cut?_iff, hdone, ← hsize, Text.isBoundary_append]
    simp only [Builder.step, BuildStep.Fits, ← hopen, ← h.position, ← hcut]
    by_cases hle : a ≤ z
    · by_cases ha : a = b.position
      · subst ha
        cases hc : b.rest.cut? (z - b.position) with
        | none => simp [token, Span.between, hle, hc]
        | some p => cases hos : b.opened <;> simp [token, Span.between, hle, hc, hos]
      · simp [token, hle, ha]
    · simp [hle]
  | error message a z anchor =>
    simp only [Builder.step, BuildStep.Fits]
    split <;> simp_all

end Reached

/-- Steps are taken one after another if and only if each of them fits behind those before it. -/
lemma steps_isOk_iff {text : Text} {offset : Nat} {before : List BuildStep} {b : Builder} (taken : Nat)
    (ss : List BuildStep) (h : Reached text offset before b) :
    (∃ r, b.steps taken ss = .ok r) ↔ Throughout (fun past s _ => s.Fits text offset past) before ss := by
  induction ss generalizing b before taken with
  | nil => simp [steps, throughout_nil]
  | cons s ss ih =>
    rw [throughout_cons, ← h.step_isOk_iff, steps]
    cases hs : b.step s with
    | error e => simp
    | ok b' => simpa using ih (taken + 1) (h.step hs)

/-- What every step keeps, a run keeps. -/
lemma steps_induction {P : List BuildStep → Builder → Prop}
    (hstep : ∀ {before b s b'}, P before b → b.step s = .ok b' → P (before ++ [s]) b') {before ss : List BuildStep}
    {b b' : Builder} {taken n : Nat} (h : P before b) (hs : b.steps taken ss = .ok (n, b')) : P (before ++ ss) b' := by
  induction ss generalizing b before taken with
  | nil =>
    obtain ⟨-, rfl⟩ := Prod.mk.inj (Except.ok.inj hs)
    simpa using h
  | cons s ss ih =>
    rw [steps] at hs
    cases hb : b.step s with
    | error e => simp [hb] at hs
    | ok b₁ =>
      rw [hb] at hs
      simpa using ih (hstep h hb) hs

/-- A tree comes out if and only if nothing is open, there is a root and the text is covered. -/
lemma Reached.tree_isOk_iff {text : Text} {offset : Nat} {ss : List BuildStep} {b : Builder}
    (h : Reached text offset ss b) :
    (∃ t, b.tree = .ok t) ↔ 0 < starts ss ∧ finishes ss = starts ss ∧ bytes ss = text.size := by
  obtain ⟨done, hdone, hsize⟩ := h.rest
  have hopened : b.opened = [] ↔ finishes ss = starts ss := by
    have := h.opened
    rw [← List.length_eq_zero_iff]
    omega
  have hrest : b.rest = [] ↔ bytes ss = text.size := by
    rw [hdone, Text.size_append, ← hsize, ← Text.size_eq_zero]
    omega
  have hroot := h.root
  rw [← hopened, ← hrest, ← h.nodes]
  unfold tree
  cases hos : b.opened with
  | cons o os => simp
  | nil =>
    cases hr : b.root with
    | none =>
      have : b.nodes = 0 := by simpa [hr, hos] using hroot
      simp [this]
    | some r =>
      have : 0 < b.nodes := by simpa [hr, hos] using hroot
      cases hrest : b.rest <;> simp [this]

/-- A tree is built if and only if all steps are taken and a tree comes out. -/
lemma build_eq_ok {text : Text} {offset : Nat} {ss : List BuildStep} {t : SyntaxTree} :
    build text offset ss = .ok t ↔ ∃ n b, (new text offset).steps 0 ss = .ok (n, b) ∧ b.tree = .ok t := by
  unfold build
  cases (new text offset).steps 0 ss with
  | error e => simp
  | ok r =>
    obtain ⟨n, b⟩ := r
    cases hb : b.tree with
    | error e => simp [hb]
    | ok t' => simp [hb]

/-- **Steps build a tree if and only if they fit.** -/
lemma isOk_build_iff (text : Text) (offset : Nat) (ss : List BuildStep) :
    (∃ t, build text offset ss = .ok t) ↔ Builds text offset ss := by
  have hnew := Reached.new text offset
  have hsteps := steps_isOk_iff 0 ss hnew
  constructor
  · rintro ⟨t, ht⟩
    obtain ⟨n, b, hb, htree⟩ := build_eq_ok.1 ht
    have hreached : Reached text offset ss b := steps_induction Reached.step hnew hb
    obtain ⟨hroot, hclosed, hcovered⟩ := hreached.tree_isOk_iff.1 ⟨t, htree⟩
    exact ⟨hsteps.1 ⟨_, hb⟩, hroot, hclosed, hcovered⟩
  · rintro ⟨hfits, hroot, hclosed, hcovered⟩
    obtain ⟨⟨n, b⟩, hb⟩ := hsteps.2 hfits
    have hreached : Reached text offset ss b := steps_induction Reached.step hnew hb
    obtain ⟨t, ht⟩ := hreached.tree_isOk_iff.2 ⟨hroot, hclosed, hcovered⟩
    exact ⟨t, build_eq_ok.2 ⟨n, b, hb, ht⟩⟩

/-! ## The tree so far -/

/-- An open node, with the parts it has so far. -/
def Open.node (o : Open) : Node := ⟨o.id, o.kind, .emptyAt o.start, o.children.reverse⟩

/-- The nodes at and below open nodes, in the order in which they start. -/
def openNodes : List Open → List Node
  | [] => []
  | o :: os => openNodes os ++ o.node :: Element.descendantsIn o.children.reverse

/-- The tokens below open nodes, in the order of the text. -/
def openLeaves : List Open → List Leaf
  | [] => []
  | o :: os => openLeaves os ++ Element.leavesIn o.children.reverse

/-- The nodes so far. -/
def nodeList (b : Builder) : List Node := (b.root.map Node.descendants).getD (openNodes b.opened)

/-- The tokens so far. -/
def leafList (b : Builder) : List Leaf := (b.root.map Node.leaves).getD (openLeaves b.opened)

end Builder

/-- The parts of a node tile it. -/
def Node.Tiled (n : Node) : Prop := Element.Tile n.span.start n.children n.span.stop

namespace Builder

/-- The parts of the open nodes tile what lies between an offset and the current one. -/
def OpenTile (offset : Nat) : Nat → List Open → Prop
  | stop, [] => stop = offset
  | stop, o :: os => Element.Tile o.start o.children.reverse stop ∧
    (∀ n ∈ Element.descendantsIn o.children.reverse, n.Tiled) ∧ OpenTile offset o.start os

/-- What holds of a tree while it is being built. -/
structure Sound (b : Builder) : Prop where
  /-- Nodes are numbered in the order in which they start. -/
  nodeIds : b.nodeList.map Node.id = List.range b.nodes
  /-- Tokens are numbered in the order of the text. -/
  leafIds : b.leafList.map Leaf.id = List.range b.tokens
  /-- The tokens cover what is not left of the text. -/
  covers : ∃ done, b.text = done ++ b.rest ∧ b.position = b.offset + done.size ∧
    Token.Covers b.offset done (b.leafList.map Leaf.token)
  /-- The parts of the open nodes tile. -/
  opened : b.root = none → OpenTile b.offset b.position b.opened
  /-- The root covers what the tokens cover, and the parts of all nodes tile. -/
  root : ∀ r, b.root = some r → b.opened = [] ∧ r.span = .between b.offset b.position ∧ ∀ n ∈ r.descendants, n.Tiled

namespace Sound

variable {b b' : Builder} {s : BuildStep}

lemma new (text : Text) (offset : Nat) : Sound (new text offset) where
  nodeIds := rfl
  leafIds := rfl
  covers := ⟨[], rfl, rfl, .nil offset⟩
  opened _ := rfl
  root r hr := by cases hr

/-- While nodes are open, or none has been started, there is no root. -/
lemma root_eq_none (h : Sound b) (ho : b.opened = [] → b.nodes = 0) : b.root = none := by
  cases hr : b.root with
  | none => rfl
  | some r =>
    have hids := h.nodeIds
    rw [ho (h.root r hr).1, nodeList, hr] at hids
    simp [Node.descendants, Node.element, Element.descendants] at hids

/-- While there is no root, the nodes and tokens so far are those at and below the open nodes. -/
lemma of_open (hroot : b.root = none) (hids : (openNodes b.opened).map Node.id = List.range b.nodes)
    (hleaves : (openLeaves b.opened).map Leaf.id = List.range b.tokens) (hcovers : ∃ done, b.text = done ++ b.rest ∧
      b.position = b.offset + done.size ∧ Token.Covers b.offset done ((openLeaves b.opened).map Leaf.token))
    (htile : OpenTile b.offset b.position b.opened) : Sound b where
  nodeIds := by simpa [nodeList, hroot] using hids
  leafIds := by simpa [leafList, hroot] using hleaves
  covers := by simpa [leafList, hroot] using hcovers
  opened _ := htile
  root r hr := by
    rw [hroot] at hr
    cases hr

lemma openIds (h : Sound b) (hroot : b.root = none) : (openNodes b.opened).map Node.id = List.range b.nodes := by
  simpa [nodeList, hroot] using h.nodeIds

lemma openLeafIds (h : Sound b) (hroot : b.root = none) : (openLeaves b.opened).map Leaf.id = List.range b.tokens := by
  simpa [leafList, hroot] using h.leafIds

lemma openCovers (h : Sound b) (hroot : b.root = none) : ∃ done, b.text = done ++ b.rest ∧
    b.position = b.offset + done.size ∧ Token.Covers b.offset done ((openLeaves b.opened).map Leaf.token) := by
  simpa [leafList, hroot] using h.covers

/-- A node that is started has no parts yet. -/
lemma step_start (h : Sound b) {k : Kind} (hfirst : b.opened = [] → b.nodes = 0) :
    Sound { b with opened := ⟨b.nodes, k, b.position, []⟩ :: b.opened, nodes := b.nodes + 1 } := by
  have hroot := h.root_eq_none hfirst
  refine of_open hroot ?_ ?_ ?_ ⟨rfl, by simp [Element.descendantsIn], h.opened hroot⟩
  · simp [openNodes, Open.node, Element.descendantsIn, h.openIds hroot, List.range_succ]
  · simpa [openLeaves, Element.leavesIn] using h.openLeafIds hroot
  · simpa [openLeaves, Element.leavesIn] using h.openCovers hroot

/-- The last open node becomes the root. -/
lemma step_finish_root (h : Sound b) {o : Open} (ho : b.opened = [o]) :
    Sound { b with
      opened := [], root := some ⟨o.id, o.kind, .between o.start b.position, o.children.reverse⟩ } := by
  have hroot := h.root_eq_none (by simp [ho])
  have hids := h.openIds hroot
  have hleaves := h.openLeafIds hroot
  obtain ⟨done, hdone, hposition, hcovers⟩ := h.openCovers hroot
  have htile := h.opened hroot
  rw [ho] at hids hleaves hcovers htile
  obtain ⟨hparts, hinner, hstart⟩ := htile
  have hspan := Span.stop_between hparts.le
  refine ⟨?_, ?_, ⟨done, hdone, hposition, ?_⟩, nofun, ?_⟩
  · simpa [nodeList, Node.descendants, Node.element, Element.descendants, openNodes, Open.node] using hids
  · simpa [leafList, Node.leaves, Node.element, Element.leaves, openLeaves] using hleaves
  · simpa [leafList, Node.leaves, Node.element, Element.leaves, openLeaves] using hcovers
  · intro r hr
    obtain rfl := Option.some.inj hr
    refine ⟨rfl, by rw [show o.start = b.offset from hstart], fun n hn => ?_⟩
    rcases List.mem_cons.1 hn with rfl | hn
    · simpa [Node.Tiled, hspan] using hparts
    · exact hinner n hn

/-- Every other open node becomes a part of the one it stands in. -/
lemma step_finish_inner (h : Sound b) {o p : Open} {ps : List Open} (ho : b.opened = o :: p :: ps) :
    Sound { b with opened := { p with
      children := .node o.id o.kind (.between o.start b.position) o.children.reverse :: p.children } :: ps } := by
  have hroot := h.root_eq_none (by simp [ho])
  have hids := h.openIds hroot
  have hleaves := h.openLeafIds hroot
  obtain ⟨done, hdone, hposition, hcovers⟩ := h.openCovers hroot
  have htile := h.opened hroot
  rw [ho] at hids hleaves hcovers htile
  obtain ⟨hparts, hinner, houter, hdeep, hrest⟩ := htile
  have hspan := Span.stop_between hparts.le
  refine of_open hroot ?_ ?_ ⟨done, hdone, hposition, ?_⟩ ⟨?_, ?_, hrest⟩
  · simpa [openNodes, Open.node, Element.descendantsIn, Element.descendants] using hids
  · simpa [openLeaves, Element.leavesIn, Element.leaves] using hleaves
  · simpa [openLeaves, Element.leavesIn, Element.leaves] using hcovers
  · rw [List.reverse_cons]
    exact houter.append ⟨rfl, hspan⟩
  · intro n hn
    simp only [List.reverse_cons, Element.descendantsIn_append, Element.descendantsIn, Element.descendants,
      List.append_nil, List.mem_append, List.mem_cons] at hn
    rcases hn with hn | rfl | hn
    · exact hdeep n hn
    · simpa [Node.Tiled, hspan] using hparts
    · exact hinner n hn

/-- A token covers what it takes of the text, and becomes a part of the innermost open node. -/
lemma step_token (h : Sound b) {k : Kind} {stop : Nat} {o : Open} {os : List Open} {piece rest : Text}
    (hle : b.position ≤ stop) (hrest : b.rest = piece ++ rest) (hpiece : piece.size = stop - b.position)
    (ho : b.opened = o :: os) :
    Sound { b with
      opened := { o with children := .token b.tokens ⟨k, b.position, piece⟩ :: o.children } :: os
      rest, position := stop, tokens := b.tokens + 1 } := by
  have hroot := h.root_eq_none (by simp [ho])
  have hids := h.openIds hroot
  have hleaves := h.openLeafIds hroot
  obtain ⟨done, hdone, hposition, hcovers⟩ := h.openCovers hroot
  have htile := h.opened hroot
  rw [ho] at hids hleaves hcovers htile
  obtain ⟨hparts, hinner, houter⟩ := htile
  have htoken : (Token.mk k b.position piece).stop = stop := by
    simp only [Token.stop]
    omega
  refine of_open hroot ?_ ?_ ⟨done ++ piece, ?_, ?_, ?_⟩ ⟨?_, ?_, houter⟩
  · simpa [openNodes, Open.node, Element.descendantsIn, Element.descendants] using hids
  · simp only [openLeaves] at hleaves
    simp [openLeaves, Element.leavesIn, Element.leaves, List.range_succ, ← hleaves]
  · simp [hdone, hrest]
  · simp only [Text.size_append]
    omega
  · have hpiece := Token.Covers.single ⟨k, b.position, piece⟩
    rw [hposition] at hpiece
    simpa [openLeaves, Element.leavesIn, Element.leaves, hposition] using hcovers.append hpiece
  · rw [List.reverse_cons]
    exact hparts.append ⟨rfl, htoken⟩
  · simpa [Element.descendantsIn, Element.descendants] using hinner

lemma step (h : Sound b) (hs : b.step s = .ok b') : Sound b' := by
  rcases step_cases hs with ⟨k, rfl, hfirst, rfl⟩ | ⟨o, rfl, ho, rfl⟩ | ⟨o, p, ps, rfl, ho, rfl⟩ |
    ⟨k, stop, o, os, piece, rest, rfl, hle, hrest, hpiece, ho, rfl⟩ | ⟨message, start, stop, anchor, rfl, hle, rfl⟩
  · exact h.step_start hfirst
  · exact h.step_finish_root ho
  · exact h.step_finish_inner ho
  · exact h.step_token hle hrest hpiece ho
  · exact ⟨h.nodeIds, h.leafIds, h.covers, h.opened, h.root⟩

end Sound

end Builder

/-- A tree that was put together over a text: it is numbered in the order of a walk, its tokens are the text, and the
parts of every node tile it. -/
structure SyntaxTree.Assembled (text : Text) (offset : Nat) (t : SyntaxTree) : Prop where
  /-- The tree is a tree of the text. -/
  text_eq : t.text = text
  /-- It stands where the text stands. -/
  offset_eq : t.offset = offset
  /-- Nodes are numbered in the order of a walk. -/
  nodeIds : t.root.descendants.map Node.id = List.range t.root.descendants.length
  /-- Tokens are numbered in the order of a walk. -/
  leafIds : t.root.leaves.map Leaf.id = List.range t.root.leaves.length
  /-- The tokens cover the text. -/
  covers : Token.Covers offset text (t.root.leaves.map Leaf.token)
  /-- The root covers the text. -/
  span : t.root.span = ⟨offset, text.size⟩
  /-- The parts of every node tile it. -/
  tiled : ∀ n ∈ t.root.descendants, n.Tiled

namespace Builder

open BuildStep

lemma Sound.assembled {text : Text} {offset : Nat} {ss : List BuildStep} {b : Builder} {t : SyntaxTree} (h : Sound b)
    (hb : Reached text offset ss b) (ht : b.tree = .ok t) : t.Assembled text offset := by
  obtain ⟨done, hdone, hposition, hcovers⟩ := h.covers
  unfold tree at ht
  split at ht
  · cases ht
  split at ht
  · cases ht
  next r hr =>
  split at ht
  · cases ht
  next hrest =>
  obtain rfl := Except.ok.inj ht
  have hnil : b.rest = [] := by simpa using hrest
  obtain ⟨-, hspan, htiled⟩ := h.root r hr
  have hids := h.nodeIds
  have hleaves := h.leafIds
  simp only [nodeList, leafList, hr, Option.map_some, Option.getD_some] at hids hleaves hcovers
  rw [hnil, List.append_nil, hb.text_eq] at hdone
  subst hdone
  refine ⟨hb.text_eq, hb.offset_eq, ?_, ?_, hb.offset_eq ▸ hcovers, ?_, htiled⟩
  · rw [hids, ← List.length_map Node.id, hids, List.length_range]
  · rw [hleaves, ← List.length_map Leaf.id, hleaves, List.length_range]
  · rw [hspan, hposition, hb.offset_eq, Span.between, Nat.add_sub_cancel_left]

/-- What steps build is put together over the text. -/
lemma assembled_of_build {text : Text} {offset : Nat} {ss : List BuildStep} {t : SyntaxTree}
    (h : build text offset ss = .ok t) : t.Assembled text offset := by
  obtain ⟨n, b, hb, ht⟩ := build_eq_ok.1 h
  obtain ⟨hreached, hsound⟩ : Reached text offset ss b ∧ Sound b :=
    steps_induction (P := fun before b => Reached text offset before b ∧ Sound b)
      (fun h hs => ⟨h.1.step hs, h.2.step hs⟩) ⟨.new text offset, .new text offset⟩ hb
  exact hsound.assembled hreached ht

end Builder

end GoFront
