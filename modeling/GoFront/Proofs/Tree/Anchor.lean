import GoFront.Proofs.Tree.Cover
import GoFront.Proofs.Tree.Report
import GoFront.Tree.Lookup
import Mathlib.Data.List.Nodup
import Mathlib.Data.List.Pairwise

/-!
# Where a woven tree reports lexical errors

A token that stands for a lexical error is reported against the nodes that are open when it is placed. Those are the
nodes around it in the tree that comes out: the errors of a tree that are lexical are, in order, those of its tokens,
each against the nodes around the token (`Sprout.lexicalErrors_tree`). The nodes around a token are those that a look-up
from its owner finds (`SyntaxTree.ancestors_owner`).
-/

namespace GoFront

/-- Whether a problem is a lexical error. -/
def Problem.isLexical : Problem → Bool
  | .lexical _ _ => true
  | _ => false

/-- The error that a token brings with it inside open nodes, if it stands for one. -/
def Token.faults (opened : List OpenNode) (t : Token) : List SyntaxError :=
  if t.kind.isLexicalError then [⟨.lexical t.kind t.text, t.span, anchor opened⟩] else []

namespace Element

mutual

/-- The errors that the tokens of an element bring with them inside open nodes. -/
def faults (opened : List OpenNode) : Element → List SyntaxError
  | .token _ t => t.faults opened
  | .node i k _ cs => faultsIn ((i, k) :: opened) cs

/-- The errors that the tokens of elements bring with them that follow one another inside open nodes. -/
def faultsIn (opened : List OpenNode) : List Element → List SyntaxError
  | [] => []
  | e :: es => faults opened e ++ faultsIn opened es

end

@[simp] lemma faultsIn_append (opened : List OpenNode) (es fs : List Element) :
    faultsIn opened (es ++ fs) = faultsIn opened es ++ faultsIn opened fs := by
  induction es with
  | nil => rfl
  | cons e es ih => simp [faultsIn, ih]

end Element

/-! ## Weaving -/

namespace Loom

/-- The lexical errors so far, in order. -/
def lexicalErrors (l : Loom) : List SyntaxError := l.errors.reverse.filter (·.problem.isLexical)

/-- What the other errors so far say, in order. -/
def otherReports (l : Loom) : List (Problem × Span) :=
  (l.errors.reverse.filter (!·.problem.isLexical)).map SyntaxError.report

/-- From the loom `l`, elements were woven inside open nodes and the loom became `m`: the lexical errors found on the
way are those of the elements, and the others are the given ones. -/
structure Tells (opened : List OpenNode) (l : Loom) (es : List Element) (found : List (Problem × Span)) (m : Loom) :
    Prop where
  lexical : m.lexicalErrors = l.lexicalErrors ++ Element.faultsIn opened es
  other : m.otherReports = l.otherReports ++ found

variable {opened : List OpenNode} {l m n : Loom}

namespace Tells

lemma refl (l : Loom) : Tells opened l [] [] l := ⟨(List.append_nil _).symm, (List.append_nil _).symm⟩

lemma append {es fs : List Element} {found found' : List (Problem × Span)} (h : Tells opened l es found m)
    (k : Tells opened m fs found' n) : Tells opened l (es ++ fs) (found ++ found') n where
  lexical := by rw [k.lexical, h.lexical, Element.faultsIn_append, List.append_assoc]
  other := by rw [k.other, h.other, List.append_assoc]

/-- Only the errors so far matter. -/
lemma of_errors {es : List Element} {found : List (Problem × Span)} (h : Tells opened m es found n)
    (hl : m.errors = l.errors) : Tells opened l es found n := by
  have hlexical : m.lexicalErrors = l.lexicalErrors := by rw [lexicalErrors, lexicalErrors, hl]
  have hother : m.otherReports = l.otherReports := by rw [otherReports, otherReports, hl]
  exact ⟨hlexical ▸ h.lexical, hother ▸ h.other⟩

end Tells

lemma tells_placeToken (t : Token) (l : Loom) :
    Tells opened l [(l.placeToken opened t).1] [] (l.placeToken opened t).2 := by
  constructor
  · rw [placeToken, Element.faultsIn, Element.faults, Element.faultsIn, List.append_nil, Token.faults]
    split <;> simp [lexicalErrors, withError, Problem.isLexical]
  · rw [placeToken]
    split <;> simp [otherReports, withError, Problem.isLexical]

lemma tells_place (ts : List Token) (l : Loom) :
    Tells opened l (place opened ts l).1 [] (place opened ts l).2 := by
  induction ts generalizing l with
  | nil => exact .refl l
  | cons t ts ih => exact (tells_placeToken t l).append (ih (l.placeToken opened t).2)

lemma tells_placeGap (l : Loom) : Tells opened l (l.placeGap opened).1 [] (l.placeGap opened).2 := by
  rw [placeGap]
  split
  · exact (tells_place l.tail { l with tail := [] }).of_errors rfl
  · next w ws _ => exact (tells_place w.gap { l with words := { w with gap := [] } :: ws }).of_errors rfl

lemma tells_placeWord (l : Loom) : Tells opened l (l.placeWord opened).1 [] (l.placeWord opened).2 := by
  rw [placeWord]
  split
  · exact (tells_place l.tail { l with tail := [] }).of_errors rfl
  · next w ws _ => exact (tells_place (w.gap ++ [w.token]) { l with words := ws }).of_errors rfl

end Loom

namespace Sprout

open Loom

mutual

/-- Weaving a sprout in which no error is lexical reports its errors and those of its tokens. -/
lemma tells_weave (opened : List OpenNode) : (s : Sprout) → (∀ e ∈ s.errors, e.1.isLexical = false) → (l : Loom) →
    Tells opened l (s.weave opened l).1 s.errors (s.weave opened l).2
  | .word _, _, l => tells_placeWord l
  | .error p r, h, l => by
    have hp : p.isLexical = false := h (p, r) (List.mem_singleton_self _)
    constructor
    · simp [weave, withError, lexicalErrors, hp, Element.faultsIn]
    · simp [weave, withError, otherReports, hp, errors, SyntaxError.report]
  | .node k cs, h, l => by
    have hgap : Tells opened l (l.placeGap opened).1 [] (l.placeGap opened).2 := tells_placeGap l
    have hin := tells_weaveIn (((l.placeGap opened).2.nodes, k) :: opened) cs h
      { (l.placeGap opened).2 with nodes := (l.placeGap opened).2.nodes + 1 }
    refine hgap.append ⟨?_, hin.other⟩
    rw [Element.faultsIn, Element.faults, Element.faultsIn, List.append_nil]
    exact hin.lexical

lemma tells_weaveIn (opened : List OpenNode) : (ss : List Sprout) → (∀ e ∈ errorsIn ss, e.1.isLexical = false) →
    (l : Loom) → Tells opened l (weaveIn opened ss l).1 (errorsIn ss) (weaveIn opened ss l).2
  | [], _, l => .refl l
  | s :: ss, h, l => by
    rw [errorsIn, List.forall_mem_append] at h
    exact (tells_weave opened s h.1 l).append (tells_weaveIn opened ss h.2 (s.weave opened l).2)

end

/-- A tree of sprouts in which no error is lexical: its lexical errors are those of its tokens, and the others those of
the sprouts. -/
lemma lexicalErrors_tree {k : Kind} {sprouts : List Sprout} {text : Text} {offset : Nat} {ws : Words}
    (h : ∀ e ∈ errorsIn sprouts, e.1.isLexical = false) :
    (tree k sprouts text offset ws).errors.filter (·.problem.isLexical) =
        (tree k sprouts text offset ws).root.element.faults [] ∧
      ((tree k sprouts text offset ws).errors.filter (!·.problem.isLexical)).map SyntaxError.report =
        errorsIn sprouts := by
  let start : Loom := { words := ws.words, tail := ws.tail, position := offset, nodes := 1 }
  have hin := tells_weaveIn [(0, k)] sprouts h start
  let l := (weaveIn [(0, k)] sprouts start).2
  have hrest : Tells [(0, k)] l (l.placeRest [(0, k)]).1 [] (l.placeRest [(0, k)]).2 :=
    (tells_place l.pending { l with words := [], tail := [] }).of_errors rfl
  obtain ⟨hlexical, hother⟩ := hin.append hrest
  rw [List.append_nil] at hother
  exact ⟨hlexical, hother⟩

end Sprout

/-! ## The nodes around a token -/

/-- A node as one that is open. -/
def Node.opened (n : Node) : OpenNode := (n.id, n.kind)

namespace Element

mutual

/-- The tokens of an element, each with the nodes around it from the inside out; `around` are those around the
element. -/
def placed (around : List Node) : Element → List (Leaf × List Node)
  | .token i t => [(⟨i, t⟩, around)]
  | .node i k s cs => placedIn (⟨i, k, s, cs⟩ :: around) cs

/-- The tokens of elements that follow one another, each with the nodes around it. -/
def placedIn (around : List Node) : List Element → List (Leaf × List Node)
  | [] => []
  | e :: es => placed around e ++ placedIn around es

end

mutual

lemma map_fst_placed (around : List Node) : (e : Element) → (placed around e).map Prod.fst = leaves e
  | .token _ _ => rfl
  | .node _ _ _ cs => map_fst_placedIn _ cs

lemma map_fst_placedIn (around : List Node) : (es : List Element) → (placedIn around es).map Prod.fst = leavesIn es
  | [] => rfl
  | e :: es => by rw [placedIn, List.map_append, map_fst_placed around e, map_fst_placedIn around es, leavesIn]

end

mutual

/-- Each token brings its error inside the nodes around it. -/
lemma faults_eq_flatMap (around : List Node) : (e : Element) → faults (around.map Node.opened) e =
    (placed around e).flatMap fun p => p.1.token.faults (p.2.map Node.opened)
  | .token _ _ => (List.append_nil _).symm
  | .node i k s cs => faultsIn_eq_flatMap (⟨i, k, s, cs⟩ :: around) cs

lemma faultsIn_eq_flatMap (around : List Node) : (es : List Element) → faultsIn (around.map Node.opened) es =
    (placedIn around es).flatMap fun p => p.1.token.faults (p.2.map Node.opened)
  | [] => rfl
  | e :: es => by
    rw [faultsIn, placedIn, List.flatMap_append, faults_eq_flatMap around e, faultsIn_eq_flatMap around es]

end

/-! ### Look-ups -/

mutual

/-- There is no path to a number that no node has. -/
lemma pathTo?_eq_none {id : Nat} : (e : Element) → (pathTo? id e = none ↔ id ∉ (descendants e).map Node.id)
  | .token _ _ => by simp [pathTo?, descendants]
  | .node i k s cs => by
    by_cases hi : i = id
    · simp [pathTo?, descendants, hi]
    · simp [pathTo?, descendants, hi, Ne.symm hi, pathToIn?_eq_none cs]

lemma pathToIn?_eq_none {id : Nat} : (es : List Element) →
    (pathToIn? id es = none ↔ id ∉ (descendantsIn es).map Node.id)
  | [] => by simp [pathToIn?, descendantsIn]
  | e :: es => by
    rw [pathToIn?, descendantsIn, List.map_append, List.mem_append, not_or, ← pathTo?_eq_none e,
      ← pathToIn?_eq_none es]
    cases pathTo? id e <;> simp

end

/-- A node that directly holds a token, and the path that a look-up takes to it. -/
structure Owns (nodes : List Node) (path? : Nat → Option (List Node)) (l : Leaf) (n : Node) (path : List Node) :
    Prop where
  mem : n ∈ nodes
  holds : l ∈ n.tokens
  path : path? n.id = some (n :: path)

mutual

/-- If nodes have numbers of their own, a look-up from the owner of a token finds the nodes around the token. -/
lemma owns_of_mem_placed {around : List Node} {l : Leaf} {p : List Node} : (e : Element) →
    ((descendants e).map Node.id).Nodup → (l, p) ∈ placed around e →
    (p = around ∧ e.leaf? = some l) ∨ ∃ n q, p = n :: q ++ around ∧ Owns (descendants e) (pathTo? · e) l n q
  | .token i t, _, h => by
    obtain ⟨rfl, rfl⟩ := Prod.mk.inj (List.mem_singleton.1 h)
    exact .inl ⟨rfl, rfl⟩
  | .node i k s cs, hids, h => by
    rw [descendants, List.map_cons, List.nodup_cons] at hids
    right
    rcases owns_of_mem_placedIn cs hids.2 h with ⟨rfl, hl⟩ | ⟨n, q, rfl, hn⟩
    · exact ⟨⟨i, k, s, cs⟩, [], rfl, List.mem_cons_self, hl, by simp [pathTo?]⟩
    · have hpath : pathToIn? n.id cs = some (n :: q) := hn.path
      have hne : i ≠ n.id := by
        rintro rfl
        exact hids.1 (List.mem_map.2 ⟨n, hn.mem, rfl⟩)
      refine ⟨n, q ++ [⟨i, k, s, cs⟩], by simp, List.mem_cons_of_mem _ hn.mem, hn.holds, ?_⟩
      rw [pathTo?, if_neg hne, hpath]
      rfl

lemma owns_of_mem_placedIn {around : List Node} {l : Leaf} {p : List Node} : (es : List Element) →
    ((descendantsIn es).map Node.id).Nodup → (l, p) ∈ placedIn around es →
    (p = around ∧ l ∈ es.filterMap leaf?) ∨
      ∃ n q, p = n :: q ++ around ∧ Owns (descendantsIn es) (pathToIn? · es) l n q
  | [], _, h => absurd h List.not_mem_nil
  | e :: es, hids, h => by
    rw [descendantsIn, List.map_append, List.nodup_append] at hids
    rcases List.mem_append.1 h with h | h
    · rcases owns_of_mem_placed e hids.1 h with ⟨rfl, hl⟩ | ⟨n, q, rfl, hn⟩
      · exact .inl ⟨rfl, by simp [hl]⟩
      · have hpath : pathTo? n.id e = some (n :: q) := hn.path
        exact .inr ⟨n, q, rfl, List.mem_append_left _ hn.mem, hn.holds, by simp [pathToIn?, hpath]⟩
    · rcases owns_of_mem_placedIn es hids.2.1 h with ⟨rfl, hl⟩ | ⟨n, q, rfl, hn⟩
      · obtain ⟨x, hx, hxl⟩ := List.mem_filterMap.1 hl
        exact .inl ⟨rfl, List.mem_filterMap.2 ⟨x, List.mem_cons_of_mem e hx, hxl⟩⟩
      · have hpath : pathToIn? n.id es = some (n :: q) := hn.path
        have hnone : pathTo? n.id e = none :=
          (pathTo?_eq_none e).2 fun he => hids.2.2 _ he _ (List.mem_map_of_mem hn.mem) rfl
        exact .inr ⟨n, q, rfl, List.mem_append_right _ hn.mem, hn.holds, by simp [pathToIn?, hnone, hpath]⟩

end

mutual

/-- Every token below a node is held by one node directly. -/
lemma perm_tokens : (e : Element) → (e.leaf?.toList ++ (descendants e).flatMap Node.tokens).Perm (leaves e)
  | .token _ _ => .refl _
  | .node _ _ _ cs => perm_tokensIn cs

lemma perm_tokensIn : (es : List Element) →
    (es.filterMap leaf? ++ (descendantsIn es).flatMap Node.tokens).Perm (leavesIn es)
  | [] => .refl _
  | e :: es => by
    have hperm := (perm_tokens e).append (perm_tokensIn es)
    have hhead : (e :: es).filterMap leaf? = e.leaf?.toList ++ es.filterMap leaf? := by
      rw [List.filterMap_cons]
      cases e.leaf? <;> rfl
    rw [hhead, descendantsIn, List.flatMap_append, leavesIn]
    refine List.Perm.trans ?_ hperm
    simp only [List.append_assoc]
    refine List.Perm.append_left _ ?_
    simp only [← List.append_assoc]
    exact List.Perm.append_right _ List.perm_append_comm

end

end Element

/-! ## Reports against tokens -/

/-- A token in front of another one of which tokens that tile consist starts before it, unless it is empty. -/
lemma Token.Tile.start_ne {n : Nat} {t : Token} {ts us : List Token} (h : Tile n (ts ++ t :: us)) (ht : t.text ≠ []) :
    ∀ u ∈ ts ++ us, u.text ≠ [] → u.start ≠ t.start := by
  intro u hu hne
  have hfirst := h.left.bounds
  have hsecond := h.behind
  rw [← hsecond.start_eq] at hfirst
  have hsize : ∀ v : Token, v.text ≠ [] → 0 < v.text.size := fun v hv => Nat.pos_of_ne_zero (mt Text.size_eq_zero.1 hv)
  rcases List.mem_append.1 hu with hu | hu
  · have hbefore := (hfirst u hu).2
    have := hsize u hne
    simp only [Token.stop] at hbefore
    omega
  · have hbehind := (hsecond.tail.bounds u hu).1
    have := hsize t ht
    simp only [Token.stop] at hbehind
    omega

/-- The error that a token brings with it is over its stretch and in the words of a lexical error. -/
lemma Token.filter_faults {opened : List OpenNode} (t : Token) (h : t.kind.isLexicalError = true) :
    (t.faults opened).filter (fun e => e.span = t.span ∧ e.message = Problem.lexicalMessage t.kind t.text) =
      [⟨.lexical t.kind t.text, t.span, anchor opened⟩] := by
  rw [faults, if_pos h]
  have hmessage : SyntaxError.message ⟨.lexical t.kind t.text, t.span, anchor opened⟩ =
      Problem.lexicalMessage t.kind t.text := rfl
  rw [List.filter_cons, hmessage]
  simp

namespace SyntaxTree

/-- The node that a lexical error of a token is to be reported against, given the node that holds the token: the nearest
statement, declaration or template action from there outwards, or the node itself if there is none. -/
def anchorOf (t : SyntaxTree) (owner : Node) : Node := ((t.ancestors owner.id).find? (·.kind.isAnchor)).getD owner

/-- One error is reported over the stretch of a token in the words of its lexical error, and it belongs where it
should. -/
def ReportsOnce (t : SyntaxTree) (l : Leaf) : Prop :=
  ∃ owner e, t.leafParent? l.id = some owner ∧
    (t.errors.filter fun e => e.span = l.span ∧ e.message = Problem.lexicalMessage l.kind l.text) = [e] ∧
    e.node = (t.anchorOf owner).id

lemma anchor_map_opened (n : Node) (q : List Node) :
    anchor ((n :: q).map Node.opened) = (((n :: q).find? (·.kind.isAnchor)).getD n).id := by
  rw [anchor, List.find?_map, Option.map_map]
  change ((List.find? (·.kind.isAnchor) (n :: q)).map Node.id).getD n.id = _
  cases List.find? (·.kind.isAnchor) (n :: q) <;> rfl

variable {t : SyntaxTree} {k : Kind} {R : Span} {ts : List Token}

/-- The node that directly holds a token, and the nodes around the token. -/
lemma ancestors_owner (h : t.Covers k R ts) {l : Leaf} {p : List Node} (hl : (l, p) ∈ t.root.element.placed []) :
    ∃ n q, p = n :: q ∧ t.leafParent? l.id = some n ∧ t.ancestors n.id = p := by
  have hids : ((Element.descendants t.root.element).map Node.id).Nodup := by
    have hnodup := List.nodup_range (n := t.root.descendants.length)
    rw [← h.nodeIds] at hnodup
    exact hnodup
  obtain ⟨-, hleaf⟩ | ⟨n, q, rfl, hn⟩ := Element.owns_of_mem_placed _ hids hl
  · exact nomatch hleaf
  have hpath : t.root.element.pathTo? n.id = some (n :: q) := hn.path
  refine ⟨n, q, List.append_nil _, ?_, by rw [ancestors, hpath, List.append_nil]; rfl⟩
  -- No other node holds a token of that number.
  have hperm : (t.root.descendants.flatMap Node.tokens).Perm t.root.leaves := Element.perm_tokens t.root.element
  have hnodup : (t.root.descendants.flatMap fun m => m.tokens.map Leaf.id).Nodup := by
    rw [← List.map_flatMap, (hperm.map Leaf.id).nodup_iff, h.tokenIds]
    exact List.nodup_range
  have hsymm : Std.Symm (Function.onFun List.Disjoint fun m : Node => m.tokens.map Leaf.id) :=
    ⟨fun _ _ hd _ hx hy => hd hy hx⟩
  have honly : ∀ m ∈ t.root.descendants, m.tokens.any (·.id == l.id) = true → m = n := by
    intro m hm hany
    obtain ⟨l', hl', heq⟩ := List.any_eq_true.1 hany
    by_contra hne
    refine (List.nodup_flatMap.1 hnodup).2.forall hm hn.mem hne (List.mem_map_of_mem hl') ?_
    rw [eq_of_beq heq]
    exact List.mem_map_of_mem hn.holds
  have hheld : n.tokens.any (·.id == l.id) = true := List.any_eq_true.2 ⟨l, hn.holds, beq_self_eq_true _⟩
  rw [leafParent?]
  cases hfind : t.root.descendants.find? fun m => m.tokens.any (·.id == l.id) with
  | none => exact absurd hheld (List.find?_eq_none.1 hfind n hn.mem)
  | some m =>
    have hm := List.find?_some hfind
    rw [honly m (List.mem_of_find?_eq_some hfind) hm]

/-- What is chosen from what only one entry brings. -/
lemma filter_flatMap_of_others {α β : Type} {as bs : List α} {x : α} {f : α → List β} {P : β → Bool}
    (h : ∀ y ∈ as ++ bs, (f y).filter P = []) : ((as ++ x :: bs).flatMap f).filter P = (f x).filter P := by
  have has : (as.flatMap f).filter P = [] := by
    rw [List.filter_flatMap]
    exact List.flatMap_eq_nil_iff.2 fun y hy => h y (List.mem_append_left _ hy)
  have hbs : (bs.flatMap f).filter P = [] := by
    rw [List.filter_flatMap]
    exact List.flatMap_eq_nil_iff.2 fun y hy => h y (List.mem_append_right _ hy)
  rw [List.flatMap_append, List.flatMap_cons, List.filter_append, List.filter_append, has, hbs, List.nil_append,
    List.append_nil]

/-- A tree whose lexical errors are those of its tokens reports each of them once, if nothing else is said in the same
words and a token that stands for one is not empty. -/
lemma reportsOnce (h : t.Covers k R ts) (htile : Token.Tile R.start ts)
    (hlexical : t.errors.filter (·.problem.isLexical) = t.root.element.faults []) {l : Leaf} (hl : l ∈ t.root.leaves)
    (hkind : l.kind.isLexicalError = true)
    (hother : ∀ e ∈ t.errors, e.problem.isLexical = false → e.message ≠ Problem.lexicalMessage l.kind l.text)
    (hne : ∀ u ∈ ts, u.kind.isLexicalError = true → u.text ≠ []) : t.ReportsOnce l := by
  have hleaves : (t.root.element.placed []).map Prod.fst = t.root.leaves := Element.map_fst_placed [] t.root.element
  obtain ⟨⟨l, p⟩, hp, rfl⟩ := List.mem_map.1 (hleaves ▸ hl)
  obtain ⟨n, q, rfl, howner, hancestors⟩ := ancestors_owner h hp
  refine ⟨n, ⟨.lexical l.kind l.text, l.span, anchor ((n :: q).map Node.opened)⟩, howner, ?_, ?_⟩
  swap
  · rw [anchorOf, hancestors]
    exact anchor_map_opened n q
  -- An error in these words is lexical, so it is that of a token.
  have hfilter : (t.errors.filter fun e => e.span = l.span ∧ e.message = Problem.lexicalMessage l.kind l.text) =
      (t.root.element.faults []).filter fun e =>
        e.span = l.span ∧ e.message = Problem.lexicalMessage l.kind l.text := by
    rw [← hlexical, List.filter_filter]
    refine List.filter_congr fun e he => ?_
    cases hproblem : e.problem.isLexical with
    | true => simp
    | false => simp [hother e he hproblem]
  have hfaults := Element.faults_eq_flatMap [] t.root.element
  rw [List.map_nil] at hfaults
  obtain ⟨before, after, hsplit⟩ := List.append_of_mem hp
  rw [hsplit, List.map_append, List.map_cons] at hleaves
  -- No other token stands where this one does.
  have hstart := h.tokens
  rw [← hleaves, List.map_append, List.map_cons] at hstart
  rw [← hstart] at htile hne
  have hown : l.token.text ≠ [] := hne _ (by simp) hkind
  have hapart : ∀ x ∈ before ++ after, (x.1.token.faults (x.2.map Node.opened)).filter
      (fun e => e.span = l.span ∧ e.message = Problem.lexicalMessage l.kind l.text) = [] := by
    intro x hx
    rw [Token.faults]
    split
    · next hx' =>
      have hmem : x.1.token ∈ (before.map Prod.fst).map Leaf.token ++ (after.map Prod.fst).map Leaf.token := by
        rw [← List.map_append, ← List.map_append]
        exact List.mem_map_of_mem (List.mem_map_of_mem hx)
      have hspan : x.1.token.start ≠ l.token.start :=
        htile.start_ne hown _ hmem (hne _ (by simp only [List.mem_append, List.mem_cons] at hmem ⊢; tauto) hx')
      have hne : x.1.token.span ≠ l.span := fun heq => hspan (congrArg Span.start heq)
      simp [hne]
    · rfl
  rw [hfilter, hfaults, hsplit, filter_flatMap_of_others hapart]
  exact l.token.filter_faults hkind

end SyntaxTree

end GoFront
