import GoFront.Proofs.Tree.Traversal
import GoFront.Tree.Lookup
import Mathlib.Data.List.Find

/-!
# Looking things up in a tree

The tokens below a node tile it. So behind one that ends at an offset only empty ones stand until the next that has
characters, which starts there: a look-up that goes through them from front to back and keeps the last one that ended at
the offset finds all that touch it (`TokenAt.toList_scan`).

The parts of a node tile it, too, so at most one of them holds an offset. A look-up that goes down into the first part
that covers a stretch passes all elements around the stretch (`Element.smallest_covering`), and one that goes down into
the first node that holds an offset passes all nodes around the offset (`Element.innermost_innermostIn?`).

The main statements are `Builder.tokens_found` and `Builder.covering_found`.
-/

namespace GoFront

lemma Span.holds_iff {s : Span} {offset : Nat} : s.holds offset ↔ s.start ≤ offset ∧ offset < s.stop := by
  simp [holds]

lemma Span.touches_iff {s : Span} {offset : Nat} : s.touches offset ↔ s.start ≤ offset ∧ offset ≤ s.stop := by
  simp [touches]

/-- What covers a stretch that is not empty holds its first offset. -/
lemma Span.holds_start {s r : Span} (hr : r.length ≠ 0) (h : s.covers r) : s.holds r.start := by
  have hcovers := covers_iff.1 h
  have hstop : r.start < r.stop := Nat.lt_add_of_pos_right (Nat.pos_of_ne_zero hr)
  exact holds_iff.2 ⟨hcovers.1, hstop.trans_le hcovers.2⟩

/-! ## The tokens at an offset -/

/-- Whether a token has characters and touches an offset. -/
def Leaf.isAt (l : Leaf) (offset : Nat) : Bool := l.span.length ≠ 0 && l.span.touches offset

/-- The tokens below a node that have characters and touch an offset, in the order of the text. -/
def Node.leavesAt (n : Node) (offset : Nat) : List Leaf := n.leaves.filter (·.isAt offset)

lemma Leaf.isAt_iff {l : Leaf} {offset : Nat} :
    l.isAt offset ↔ l.span.length ≠ 0 ∧ l.span.start ≤ offset ∧ offset ≤ l.span.stop := by
  rw [isAt, Bool.and_eq_true, Span.touches_iff]
  simp

namespace TokenAt

variable {a b offset : Nat} {left : Option Leaf} {ls : List Leaf}

lemma length_toList_le (t : TokenAt) : t.toList.length ≤ 2 := by
  cases t <;> simp [toList]

lemma toList_injective : Function.Injective toList := by
  intro t u h
  cases t <;> cases u <;> simp_all [toList]

/-- Tokens that start behind an offset do not touch it. -/
lemma filter_isAt_eq_nil (h : Element.Tile a (ls.map Leaf.element) b) (ha : offset < a) :
    ls.filter (·.isAt offset) = [] := by
  rw [List.filter_eq_nil_iff]
  intro l hl htouches
  have hstart : a ≤ l.span.start := h.start_le l.element (List.mem_map_of_mem hl)
  obtain ⟨-, hle, -⟩ := Leaf.isAt_iff.1 htouches
  omega

/-- A scan gives the token that ended at the offset, if there was one, and the tokens that touch the offset behind it.
Once a token has ended at the offset, the scan has not come further than that. -/
lemma toList_scan (h : Element.Tile a (ls.map Leaf.element) b) (hleft : left ≠ none → a = offset) :
    (scan offset left ls).toList = left.toList ++ ls.filter (·.isAt offset) := by
  induction ls generalizing a left with
  | nil => cases left <;> rfl
  | cons l ls ih =>
    obtain ⟨hstart, hrest⟩ := h
    have hspan : l.span.stop = l.span.start + l.span.length := rfl
    have hstart : l.span.start = a := hstart
    have hrest : Element.Tile l.span.stop (ls.map Leaf.element) b := hrest
    unfold scan
    split
    case isTrue hempty =>
      have hskip : l.isAt offset = false := by simp [Leaf.isAt, hempty]
      rw [List.filter_cons_of_neg (by simp [hskip])]
      exact ih hrest fun hne => by rw [hspan, hempty, hstart, hleft hne, Nat.add_zero]
    case isFalse hlength =>
    split
    case isTrue hholds =>
      obtain ⟨hle, hlt⟩ := Span.holds_iff.1 hholds
      have hat : l.isAt offset = true := Leaf.isAt_iff.2 ⟨hlength, hle, hlt.le⟩
      rw [List.filter_cons, if_pos hat, filter_isAt_eq_nil hrest hlt]
      cases left with
      | none => rfl
      | some p =>
        have hat : l.span.start = offset := hstart.trans (hleft (Option.some_ne_none p))
        simp only [if_pos hat]
        rfl
    case isFalse hholds =>
    -- No token has ended at the offset so far: this one would start there and hold it.
    have hnone : left = none := by
      by_contra hne
      have hat := hleft hne
      exact hholds (Span.holds_iff.2 ⟨by omega, by omega⟩)
    subst hnone
    split
    case isTrue hstop =>
      have hat : l.isAt offset = true := Leaf.isAt_iff.2 ⟨hlength, by omega, hstop.ge⟩
      rw [List.filter_cons, if_pos hat, ih hrest fun _ => hstop]
      rfl
    case isFalse hstop =>
    have hoff : l.isAt offset = false := by
      refine Bool.eq_false_iff.2 fun hat => ?_
      obtain ⟨-, hle, hge⟩ := Leaf.isAt_iff.1 hat
      exact hholds (Span.holds_iff.2 ⟨hle, by omega⟩)
    rw [List.filter_cons_of_neg (by simp [hoff])]
    split
    case isTrue hbefore =>
      rw [filter_isAt_eq_nil hrest (by omega)]
      rfl
    case isFalse => exact ih hrest nofun

end TokenAt

namespace Node

variable {n : Node}

/-- In a tiled node a look-up gives the tokens that have characters and touch the offset. -/
lemma toList_tokenAt (h : ∀ m ∈ n.descendants, m.Tiled) (offset : Nat) :
    (n.tokenAt offset).toList = n.leavesAt offset := by
  have htile : Element.Tile n.span.start (n.leaves.map Leaf.element) n.span.stop := Element.tile_leaves n.element h
  rw [tokenAt]
  split
  case isTrue => exact TokenAt.toList_scan htile nofun
  case isFalse houtside =>
    refine (List.filter_eq_nil_iff.2 fun l hl hat => houtside ?_).symm
    have hmem : l.element ∈ n.leaves.map Leaf.element := List.mem_map_of_mem hl
    obtain ⟨-, hle, hge⟩ := Leaf.isAt_iff.1 hat
    exact Span.touches_iff.2 ⟨(htile.start_le _ hmem).trans hle, hge.trans (htile.stop_le _ hmem)⟩

/-- Its tokens stand in the order of the text. -/
lemma pairwise_leavesAt (h : ∀ m ∈ n.descendants, m.Tiled) (offset : Nat) :
    (n.leavesAt offset).Pairwise fun l r => l.span.stop ≤ r.span.start := by
  have hpairwise := (Element.tile_leaves n.element h).pairwise
  rw [List.pairwise_map] at hpairwise
  exact hpairwise.filter _

end Node

namespace SyntaxTree.Assembled

variable {text : Text} {offset : Nat} {t : SyntaxTree} {n : Node}

/-- The parts of a node, and of all nodes below it, tile. -/
lemma tiled_below (h : t.Assembled text offset) (hn : n ∈ t.root.descendants) : ∀ m ∈ n.descendants, m.Tiled :=
  fun m hm => h.tiled m ((Element.infix_descendants t.root.element hn).1.subset hm)

end SyntaxTree.Assembled

/-- **The tokens at an offset.** In a tree that is built from steps, the tokens at an offset below a node are those that
have characters and that the offset lies in or at an end of: none, one, or two that follow one another in the text. There
is none at an offset outside of the node. -/
theorem Builder.tokens_found {text : Text} {offset : Nat} {ss : List BuildStep} {t : SyntaxTree}
    (h : Builder.build text offset ss = .ok t) {n : Node} (hn : n ∈ t.root.descendants) (place : Nat) :
    (n.tokenAt place = .nothing ↔ n.leavesAt place = []) ∧
    (∀ l, n.tokenAt place = .single l ↔ n.leavesAt place = [l]) ∧
    (∀ l r, n.tokenAt place = .between l r ↔ n.leavesAt place = [l, r]) ∧
    (n.leavesAt place).length ≤ 2 ∧
    (n.leavesAt place).Pairwise (fun l r => l.span.stop ≤ r.span.start) ∧
    (n.span.touches place = false → n.tokenAt place = .nothing) := by
  have htiled := (Builder.assembled_of_build h).tiled_below hn
  have hfound := Node.toList_tokenAt htiled place
  refine ⟨?_, fun l => ?_, fun l r => ?_, ?_, Node.pairwise_leavesAt htiled place, fun houtside => ?_⟩
  · rw [← hfound, ← TokenAt.toList_injective.eq_iff]
    rfl
  · rw [← hfound, ← TokenAt.toList_injective.eq_iff]
    rfl
  · rw [← hfound, ← TokenAt.toList_injective.eq_iff]
    rfl
  · rw [← hfound]
    exact TokenAt.length_toList_le _
  · rw [Node.tokenAt, houtside]
    rfl

/-- The steps that build a file of two names with an empty token and an empty node in between. -/
def Builder.gapSteps : List BuildStep := [.start .sourceFile, .start .nameRef, .token .identifier 0 1, .finish,
  .token .semicolon 1 1, .start .emptyStatement, .finish, .start .nameRef, .token .identifier 1 2, .finish, .finish]

/-- Two names stand at the offset between them, whatever empty things stand there, too. -/
theorem Builder.tokens_found_between :
    ∃ t, Builder.build ['a', 'b'] 0 gapSteps = .ok t ∧
      ∃ l r, t.root.tokenAt 1 = .between l r ∧ l.text = ['a'] ∧ r.text = ['b'] := by
  have hrun : (Builder.build ['a', 'b'] 0 gapSteps).toOption.map (fun t => (t.root.leavesAt 1).map Leaf.text) =
      some [['a'], ['b']] := by decide +kernel
  generalize hbuild : Builder.build ['a', 'b'] 0 gapSteps = built at hrun ⊢
  cases built with
  | error e => cases hrun
  | ok t =>
    obtain ⟨l, rest, hleaves, hl, hrest⟩ := List.map_eq_cons_iff.1 (Option.some.inj hrun)
    obtain ⟨r, last, rfl, hr, hlast⟩ := List.map_eq_cons_iff.1 hrest
    obtain rfl := List.map_eq_nil_iff.1 hlast
    obtain ⟨-, -, hbetween, -⟩ := Builder.tokens_found hbuild t.root.mem_descendants_self 1
    exact ⟨t, rfl, l, r, (hbetween l r).2 hleaves, hl, hr⟩

/-! ## Going down into parts -/

namespace Element

mutual

/-- The elements at and below an element, a node before its parts. -/
def elements : Element → List Element
  | .token i t => [.token i t]
  | .node i k s cs => .node i k s cs :: elementsIn cs

/-- The elements at and below elements that follow one another. -/
def elementsIn : List Element → List Element
  | [] => []
  | e :: es => elements e ++ elementsIn es

end

lemma mem_elements_self (e : Element) : e ∈ e.elements := by
  cases e <;> simp [elements]

lemma mem_elementsIn {e : Element} {es : List Element} : e ∈ elementsIn es ↔ ∃ c ∈ es, e ∈ c.elements := by
  induction es with
  | nil => simp [elementsIn]
  | cons c es ih => simp [elementsIn, ih]

mutual

/-- What is at or below a tiled element lies inside it. -/
lemma covers_of_mem_elements {x : Element} : (e : Element) → (∀ n ∈ e.descendants, n.Tiled) → x ∈ e.elements →
    e.span.covers x.span
  | .token _ _, _, hx => by
    rw [elements, List.mem_singleton] at hx
    exact hx ▸ Span.covers_iff.2 ⟨le_rfl, le_rfl⟩
  | .node _ _ _ cs, h, hx => by
    rw [descendants, List.forall_mem_cons] at h
    rcases List.mem_cons.1 hx with rfl | hx
    · exact Span.covers_iff.2 ⟨le_rfl, le_rfl⟩
    · exact Span.covers_iff.2 (bounds_of_mem_elementsIn cs h.1 h.2 hx)

lemma bounds_of_mem_elementsIn {x : Element} {a b : Nat} : (es : List Element) → Tile a es b →
    (∀ n ∈ descendantsIn es, n.Tiled) → x ∈ elementsIn es → a ≤ x.span.start ∧ x.span.stop ≤ b
  | [], _, _, hx => nomatch hx
  | e :: es, ht, h, hx => by
    rw [descendantsIn, List.forall_mem_append] at h
    have hstart : e.span.start = a := ht.1
    rcases List.mem_append.1 hx with hx | hx
    · have hinside := Span.covers_iff.1 (covers_of_mem_elements e h.1 hx)
      exact ⟨hstart ▸ hinside.1, hinside.2.trans ht.2.le⟩
    · have hbehind := bounds_of_mem_elementsIn es ht.2 h.2 hx
      exact ⟨hstart ▸ e.span.start_le_stop.trans hbehind.1, hbehind.2⟩

end

/-- No two elements that follow one another hold the same offset. -/
lemma Tile.eq_of_holds {a b offset : Nat} {es : List Element} (h : Tile a es b) {e e' : Element} (he : e ∈ es)
    (he' : e' ∈ es) (hat : e.span.holds offset) (hat' : e'.span.holds offset) : e = e' := by
  have hbounds := Span.holds_iff.1 hat
  have hbounds' := Span.holds_iff.1 hat'
  induction es generalizing a with
  | nil => exact absurd he List.not_mem_nil
  | cons x es ih =>
    rcases List.mem_cons.1 he with rfl | hes <;> rcases List.mem_cons.1 he' with rfl | hes'
    · rfl
    · have hbehind := h.2.start_le e' hes'
      omega
    · have hbehind := h.2.start_le e hes
      omega
    · exact ih h.2 hes hes'

/-! ### The smallest element around a stretch -/

/-- At and below an element, `found` is the smallest element that covers a stretch: every other one that covers it is
around `found`. -/
structure Smallest (r : Span) (top found : Element) : Prop where
  /-- It is at or below the element. -/
  mem : found ∈ top.elements
  /-- It covers the stretch. -/
  covers : found.span.covers r
  /-- It is at or below all others that do. -/
  below : ∀ e ∈ top.elements, e.span.covers r → found ∈ e.elements

variable {r : Span}

/-- What is around an element that covers a stretch covers it, too. -/
lemma exists_covers_of_mem_elementsIn {e : Element} {es : List Element} (h : ∀ n ∈ descendantsIn es, n.Tiled)
    (he : e ∈ elementsIn es) (hcovers : e.span.covers r) : ∃ c ∈ es, c.span.covers r ∧ e ∈ c.elements := by
  obtain ⟨c, hc, hec⟩ := mem_elementsIn.1 he
  have hpart : ∀ n ∈ c.descendants, n.Tiled := fun n hn => h n (mem_descendantsIn.2 ⟨c, hc, hn⟩)
  have hinside := Span.covers_iff.1 (covers_of_mem_elements c hpart hec)
  have hbounds := Span.covers_iff.1 hcovers
  exact ⟨c, hc, Span.covers_iff.2 ⟨hinside.1.trans hbounds.1, hbounds.2.trans hinside.2⟩, hec⟩

/-- A stretch that is not empty is covered by none of some elements, if nothing is found. -/
lemma not_covers_of_coveringIn? (hr : r.length ≠ 0) {es : List Element} (h : coveringIn? r es = none) :
    ∀ e ∈ es, ¬ e.span.covers r := by
  induction es with
  | nil => simp
  | cons e es ih =>
    rw [coveringIn?] at h
    split at h
    · cases h
    next hnot =>
      refine List.forall_mem_cons.2 ⟨fun hcovers => hnot ?_, ih h⟩
      have hlength : e.span.length ≠ 0 := by
        have hbounds := Span.holds_iff.1 (Span.holds_start hr hcovers)
        intro hempty
        rw [Span.stop, hempty] at hbounds
        omega
      simp [hcovers, hlength]

mutual

/-- Going down from an element that covers a stretch leads to the smallest one. -/
lemma smallest_covering (hr : r.length ≠ 0) : (e : Element) → (∀ n ∈ e.descendants, n.Tiled) → e.span.covers r →
    Smallest r e (covering r e)
  | .token i t, _, hcovers => by
    rw [covering]
    refine ⟨mem_elements_self _, hcovers, fun e he _ => ?_⟩
    rw [elements, List.mem_singleton] at he
    exact he ▸ mem_elements_self _
  | .node i k s cs, h, hcovers => by
    rw [descendants, List.forall_mem_cons] at h
    obtain ⟨htile, hinner⟩ := h
    rw [covering]
    cases hfound : coveringIn? r cs with
    | none =>
      -- No part covers the stretch, so nothing below one does.
      refine ⟨mem_elements_self _, hcovers, fun e he hcov => ?_⟩
      rcases List.mem_cons.1 he with rfl | he
      · exact mem_elements_self _
      · obtain ⟨c, hc, hcc, -⟩ := exists_covers_of_mem_elementsIn hinner he hcov
        exact absurd hcc (not_covers_of_coveringIn? hr hfound c hc)
    | some x =>
      obtain ⟨c, hc, hcc, hsmallest⟩ := smallest_coveringIn? hr cs hinner hfound
      have hmem : x ∈ elementsIn cs := mem_elementsIn.2 ⟨c, hc, hsmallest.mem⟩
      refine ⟨List.mem_cons_of_mem _ hmem, hsmallest.covers, fun e he hcov => ?_⟩
      rcases List.mem_cons.1 he with rfl | he
      · exact List.mem_cons_of_mem _ hmem
      · -- The part around `e` covers the stretch, too, so it is the one gone into.
        obtain ⟨c', hc', hcc', hec⟩ := exists_covers_of_mem_elementsIn hinner he hcov
        obtain rfl := htile.eq_of_holds hc hc' (Span.holds_start hr hcc) (Span.holds_start hr hcc')
        exact hsmallest.below e hec hcov

lemma smallest_coveringIn? (hr : r.length ≠ 0) {x : Element} : (es : List Element) →
    (∀ n ∈ descendantsIn es, n.Tiled) → coveringIn? r es = some x → ∃ c ∈ es, c.span.covers r ∧ Smallest r c x
  | [], _, hx => nomatch hx
  | e :: es, h, hx => by
    rw [descendantsIn, List.forall_mem_append] at h
    rw [coveringIn?] at hx
    split at hx
    next hcovers =>
      have hcovers : e.span.covers r := by simp_all
      obtain rfl := Option.some.inj hx
      exact ⟨e, List.mem_cons_self, hcovers, smallest_covering hr e h.1 hcovers⟩
    next =>
      obtain ⟨c, hc, hfound⟩ := smallest_coveringIn? hr es h.2 hx
      exact ⟨c, List.mem_cons_of_mem _ hc, hfound⟩

end

/-! ### The innermost node around an offset -/

/-- Among the nodes at and below an element, `found` is the innermost one that holds an offset: every other one that holds
it is around `found`. -/
structure Innermost (offset : Nat) (top : Element) (found : Node) : Prop where
  /-- It is at or below the element. -/
  mem : found ∈ top.descendants
  /-- It holds the offset. -/
  holds : found.span.holds offset
  /-- It is at or below all others that do. -/
  below : ∀ m ∈ top.descendants, m.span.holds offset → found ∈ m.descendants

variable {offset : Nat}

mutual

lemma element_mem_elements {m : Node} : (e : Element) → m ∈ e.descendants → m.element ∈ e.elements
  | .token _ _, h => nomatch h
  | .node _ _ _ cs, h => by
    rcases List.mem_cons.1 h with rfl | h
    · exact List.mem_cons_self
    · exact List.mem_cons_of_mem _ (element_mem_elementsIn cs h)

lemma element_mem_elementsIn {m : Node} : (es : List Element) → m ∈ descendantsIn es → m.element ∈ elementsIn es
  | [], h => nomatch h
  | e :: es, h => by
    rw [elementsIn, List.mem_append]
    exact (List.mem_append.1 h).imp (element_mem_elements e) (element_mem_elementsIn es)

end

/-- What is around a node that holds an offset holds it, too. -/
lemma holds_of_mem_descendants {e : Element} {m : Node} (h : ∀ n ∈ e.descendants, n.Tiled) (hm : m ∈ e.descendants)
    (hat : m.span.holds offset) : e.span.holds offset := by
  have hinside := Span.covers_iff.1 (covers_of_mem_elements e h (element_mem_elements e hm))
  have hbounds := Span.holds_iff.1 hat
  exact Span.holds_iff.2 ⟨hinside.1.trans hbounds.1, hbounds.2.trans_le hinside.2⟩

lemma exists_holds_of_mem_descendantsIn {es : List Element} {m : Node} (h : ∀ n ∈ descendantsIn es, n.Tiled)
    (hm : m ∈ descendantsIn es) (hat : m.span.holds offset) : ∃ c ∈ es, c.span.holds offset ∧ m ∈ c.descendants := by
  obtain ⟨c, hc, hmc⟩ := mem_descendantsIn.1 hm
  exact ⟨c, hc, holds_of_mem_descendants (fun n hn => h n (mem_descendantsIn.2 ⟨c, hc, hn⟩)) hmc hat, hmc⟩

lemma innermostIn?_eq_none {es : List Element} (h : innermostIn? offset es = none) :
    ∀ e ∈ es, innermost? offset e = none := by
  induction es with
  | nil => simp
  | cons e es ih =>
    rw [innermostIn?] at h
    split at h
    · cases h
    next hnone => exact List.forall_mem_cons.2 ⟨hnone, ih h⟩

/-- Where nothing is found no node holds the offset. -/
lemma not_holds_of_innermost? {e : Element} (h : ∀ n ∈ e.descendants, n.Tiled) (hnone : innermost? offset e = none) :
    ∀ m ∈ e.descendants, ¬ m.span.holds offset := by
  intro m hm hat
  cases e with
  | token i t => exact absurd hm List.not_mem_nil
  | node i k s cs =>
    have hholds : s.holds offset := holds_of_mem_descendants h hm hat
    rw [innermost?, if_pos hholds] at hnone
    cases hnone

mutual

/-- Going down into the nodes that hold an offset leads to the innermost one. -/
lemma innermost_innermost? {x : Node} : (e : Element) → (∀ n ∈ e.descendants, n.Tiled) →
    innermost? offset e = some x → e.span.holds offset ∧ Innermost offset e x
  | .token _ _, _, hx => nomatch hx
  | .node i k s cs, h, hx => by
    rw [descendants, List.forall_mem_cons] at h
    obtain ⟨htile, hinner⟩ := h
    rw [innermost?] at hx
    split at hx
    case isFalse => cases hx
    case isTrue hat =>
    refine ⟨hat, ?_⟩
    cases hfound : innermostIn? offset cs with
    | none =>
      -- No part is a node that holds the offset, so nothing below one does.
      obtain rfl : ⟨i, k, s, cs⟩ = x := by simpa [hfound] using hx
      refine ⟨List.mem_cons_self, hat, fun m hm hmat => ?_⟩
      rcases List.mem_cons.1 hm with rfl | hm
      · exact List.mem_cons_self
      · obtain ⟨c, hc, -, hmc⟩ := exists_holds_of_mem_descendantsIn hinner hm hmat
        have hpart : ∀ n ∈ c.descendants, n.Tiled := fun n hn => hinner n (mem_descendantsIn.2 ⟨c, hc, hn⟩)
        exact absurd hmat (not_holds_of_innermost? hpart (innermostIn?_eq_none hfound c hc) m hmc)
    | some y =>
      obtain rfl : y = x := by simpa [hfound] using hx
      obtain ⟨c, hc, hcat, hinnermost⟩ := innermost_innermostIn? cs hinner hfound
      have hmem : y ∈ descendantsIn cs := mem_descendantsIn.2 ⟨c, hc, hinnermost.mem⟩
      refine ⟨List.mem_cons_of_mem _ hmem, hinnermost.holds, fun m hm hmat => ?_⟩
      rcases List.mem_cons.1 hm with rfl | hm
      · exact List.mem_cons_of_mem _ hmem
      · -- The part around `m` holds the offset, too, so it is the one gone into.
        obtain ⟨c', hc', hcat', hmc⟩ := exists_holds_of_mem_descendantsIn hinner hm hmat
        obtain rfl := htile.eq_of_holds hc hc' hcat hcat'
        exact hinnermost.below m hmc hmat

lemma innermost_innermostIn? {x : Node} : (es : List Element) → (∀ n ∈ descendantsIn es, n.Tiled) →
    innermostIn? offset es = some x → ∃ c ∈ es, c.span.holds offset ∧ Innermost offset c x
  | [], _, hx => nomatch hx
  | e :: es, h, hx => by
    rw [descendantsIn, List.forall_mem_append] at h
    rw [innermostIn?] at hx
    split at hx
    next y hy =>
      obtain rfl := Option.some.inj hx
      exact ⟨e, List.mem_cons_self, innermost_innermost? e h.1 hy⟩
    next =>
      obtain ⟨c, hc, hfound⟩ := innermost_innermostIn? es h.2 hx
      exact ⟨c, List.mem_cons_of_mem _ hc, hfound⟩

end

/-- What is found among elements is found at or below the first that covers the stretch. -/
lemma coveringIn?_eq (r : Span) (es : List Element) : coveringIn? r es =
    (es.find? fun e => e.span.covers r && !(e.span.length = 0 && r.length ≠ 0)).map (covering r) := by
  induction es with
  | nil => rfl
  | cons e es ih =>
    rw [coveringIn?, List.find?_cons]
    cases e.span.covers r && !(e.span.length = 0 && r.length ≠ 0) <;> simp [ih]

end Element

/-- Going down from a node that holds an offset leads to the innermost one. -/
lemma Node.innermost_innermost {n : Node} {offset : Nat} (h : ∀ m ∈ n.descendants, m.Tiled) (hat : n.span.holds offset) :
    n.element.Innermost offset (n.innermost offset) := by
  have hfound : Element.innermost? offset n.element = some (n.innermost offset) := by
    rw [element, Element.innermost?, if_pos hat]
    rfl
  exact (Element.innermost_innermost? n.element h hfound).2

namespace SyntaxTree.Assembled

open Element

variable {text : Text} {offset : Nat} {t : SyntaxTree} {n : Node}

/-- In the arena of a tree, the part gone into is the part of the tree gone into. -/
lemma coveringPart?_eq (h : t.Assembled text offset) (hn : n ∈ t.root.descendants) (r : Span) :
    t.arena.coveringPart? r n.id =
      (n.children.find? fun e => e.span.covers r && !(e.span.length = 0 && r.length ≠ 0)).map child := by
  rw [Arena.coveringPart?, h.holds n hn, List.find?_map]
  congr 1
  refine List.find?_congr fun e he => ?_
  simp [h.span?_child hn he]

/-- Going down in the arena of a tree leads to where going down in the tree leads. It enters no more nodes than there are
at and below the one it starts from. -/
lemma covering?_eq (h : t.Assembled text offset) (r : Span) (d : Nat) :
    ∀ n ∈ t.root.descendants, n.descendants.length ≤ d → t.arena.covering? r d n.id = some (n.covering r).child := by
  induction d with
  | zero => simp [Node.descendants, Node.element, descendants]
  | succ d ih =>
    intro n hn hd
    rw [Arena.covering?, h.coveringPart?_eq hn, Node.covering, Node.element, covering, coveringIn?_eq]
    cases hpart : n.children.find? fun e => e.span.covers r && !(e.span.length = 0 && r.length ≠ 0) with
    | none => rfl
    | some e =>
      cases e with
      | token i u => rfl
      | node i k s cs =>
        have hmem : (⟨i, k, s, cs⟩ : Node) ∈ descendantsIn n.children :=
          mem_descendantsIn.2 ⟨_, List.mem_of_find?_eq_some hpart, List.mem_cons_self⟩
        have hlength := (infix_descendantsIn n.children hmem).1.length_le
        have hroot := (subset_of_mem_descendants t.root.element hn).1 hmem
        rw [Node.descendants, Node.element, descendants, List.length_cons] at hd
        exact ih ⟨i, k, s, cs⟩ hroot (by omega)

end SyntaxTree.Assembled

/-- **The element around a stretch.** In a tree that is built from steps, going down from a node that covers a stretch
which is not empty comes to an end, and it ends at the smallest element around the stretch: that one covers it, and every
node and every token at or below the node that covers the stretch is that element or lies around it. -/
theorem Builder.covering_found {text : Text} {offset : Nat} {ss : List BuildStep} {t : SyntaxTree}
    (h : Builder.build text offset ss = .ok t) {n : Node} (hn : n ∈ t.root.descendants) {r : Span}
    (hr : r.length ≠ 0) (hcovers : n.span.covers r) :
    Element.Smallest r n.element (n.covering r) ∧
    ∀ d, t.arena.nodes.length ≤ d → t.arena.covering? r d n.id = some (n.covering r).child := by
  have hassembled := Builder.assembled_of_build h
  refine ⟨Element.smallest_covering hr n.element (hassembled.tiled_below hn) hcovers, fun d hd => ?_⟩
  refine hassembled.covering?_eq r d n hn ?_
  rw [SyntaxTree.Assembled.length_nodes] at hd
  exact (Element.infix_descendants t.root.element hn).1.length_le.trans hd

/-- The element around the second of two names is its token. The empty node in front of it is not gone into. -/
theorem Builder.covering_found_name :
    ∃ t, Builder.build ['a', 'b'] 0 gapSteps = .ok t ∧
      Element.Smallest ⟨1, 1⟩ t.root.element (t.root.covering ⟨1, 1⟩) ∧
      t.arena.covering? ⟨1, 1⟩ t.arena.nodes.length 0 = some (.token 2) := by
  have hrun : (Builder.build ['a', 'b'] 0 gapSteps).toOption.map
      (fun t => (t.root.id, t.root.span.covers ⟨1, 1⟩, (t.root.covering ⟨1, 1⟩).child)) =
      some (0, true, .token 2) := by decide +kernel
  generalize hbuild : Builder.build ['a', 'b'] 0 gapSteps = built at hrun ⊢
  cases built with
  | error e => cases hrun
  | ok t =>
    obtain ⟨hroot, hfields⟩ := Prod.mk.inj (Option.some.inj hrun)
    obtain ⟨hcovers, hchild⟩ := Prod.mk.inj hfields
    obtain ⟨hsmallest, hends⟩ := Builder.covering_found hbuild t.root.mem_descendants_self (by decide) hcovers
    refine ⟨t, rfl, hsmallest, ?_⟩
    have hfound := hends t.arena.nodes.length le_rfl
    rwa [hroot, hchild] at hfound

end GoFront
