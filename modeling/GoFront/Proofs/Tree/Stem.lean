import GoFront.Proofs.Tree.Report
import GoFront.Tree.Walk

/-!
# Stems

The stem of a tree keeps the kinds of its nodes and of its words, and leaves out everything else: blanks and comments,
errors, numbers and stretches. What a parser grows has the same stem as the tree that is woven from it
(`Parser.stem_tree`), so what holds of the parts of every node that was grown holds of the parts of every node of the
tree.
-/

namespace GoFront

/-- A tree as the kinds of its nodes and of its words. -/
inductive Stem where
  /-- A word. -/
  | leaf (kind : Kind)
  /-- A node and its parts. -/
  | branch (kind : Kind) (parts : List Stem)

namespace Stem

mutual

/-- Of the kind and the parts of every node `P` holds. -/
def All (P : Kind → List Stem → Prop) : Stem → Prop
  | .leaf _ => True
  | .branch k ps => P k ps ∧ AllIn P ps

/-- Of the kind and the parts of every node in several stems `P` holds. -/
def AllIn (P : Kind → List Stem → Prop) : List Stem → Prop
  | [] => True
  | p :: ps => All P p ∧ AllIn P ps

end

lemma allIn_iff {P : Kind → List Stem → Prop} {ps : List Stem} : AllIn P ps ↔ ∀ p ∈ ps, All P p := by
  induction ps with
  | nil => simp [AllIn]
  | cons p ps ih => rw [AllIn, ih, List.forall_mem_cons]

lemma allIn_append {P : Kind → List Stem → Prop} {ps qs : List Stem} :
    AllIn P (ps ++ qs) ↔ AllIn P ps ∧ AllIn P qs := by
  rw [allIn_iff, allIn_iff, allIn_iff, List.forall_mem_append]

end Stem

namespace Sprout

mutual

/-- The stem of a sprout, if it is no error. -/
def stems : Sprout → List Stem
  | .word w => [.leaf w.kind]
  | .error _ _ => []
  | .node k cs => [.branch k (stemsIn cs)]

/-- The stems of sprouts that follow one another. -/
def stemsIn : List Sprout → List Stem
  | [] => []
  | s :: ss => stems s ++ stemsIn ss

end

end Sprout

namespace Element

variable (isTrivia : Kind → Bool)

mutual

/-- The stem of an element, if it is no blank and no comment. -/
def stems : Element → List Stem
  | .token _ t => if isTrivia t.kind then [] else [.leaf t.kind]
  | .node _ k _ cs => [.branch k (stemsIn cs)]

/-- The stems of elements that follow one another. -/
def stemsIn : List Element → List Stem
  | [] => []
  | e :: es => stems e ++ stemsIn es

end

variable {isTrivia}

@[simp] lemma stemsIn_append (es fs : List Element) :
    stemsIn isTrivia (es ++ fs) = stemsIn isTrivia es ++ stemsIn isTrivia fs := by
  induction es with
  | nil => rfl
  | cons e es ih => simp [stemsIn, ih]

/-- An element that is no blank and no comment. -/
def isSignificant (isTrivia : Kind → Bool) : Element → Bool
  | .token _ t => !isTrivia t.kind
  | .node _ _ _ _ => true

/-- The stem of an element. -/
def stem (isTrivia : Kind → Bool) : Element → Stem
  | .token _ t => .leaf t.kind
  | .node _ k _ cs => .branch k (stemsIn isTrivia cs)

lemma stemsIn_eq_map (es : List Element) :
    stemsIn isTrivia es = (es.filter (isSignificant isTrivia)).map (stem isTrivia) := by
  induction es with
  | nil => rfl
  | cons e es ih =>
    rw [stemsIn, ih]
    cases e with
    | token i t => cases h : isTrivia t.kind <;> simp [stems, isSignificant, stem, h]
    | node i k s cs => rfl

end Element

namespace Node

variable (isTrivia : Kind → Bool) (n : Node)

/-- The parts of a node without blanks and comments. -/
def parts : List Element := n.children.filter (Element.isSignificant isTrivia)

/-- The stem of a node. -/
abbrev stem : Stem := n.element.stem isTrivia

lemma nodes_eq_parts : n.nodes = (n.parts isTrivia).filterMap Element.node? := by
  rw [nodes, parts]
  induction n.children with
  | nil => rfl
  | cons e es ih =>
    cases e with
    | token i t =>
      cases h : isTrivia t.kind <;>
        simpa [Element.isSignificant, List.filterMap_cons, Element.node?, h] using ih
    | node i k s cs => exact congrArg (_ :: ·) ih

lemma tokens_eq_parts :
    n.tokens.filter (fun l => !isTrivia l.kind) = (n.parts isTrivia).filterMap Element.leaf? := by
  rw [tokens, parts]
  induction n.children with
  | nil => rfl
  | cons e es ih =>
    cases e with
    | token i t => cases h : isTrivia t.kind <;> simp [Element.isSignificant, Element.leaf?, h, ih]
    | node i k s cs => exact ih

end Node

namespace Element

variable {isTrivia : Kind → Bool}

/-- An element whose stem is a branch is a node. -/
lemma eq_element_of_stem {e : Element} {k : Kind} {ps : List Stem} (h : e.stem isTrivia = .branch k ps) :
    ∃ n : Node, e = n.element ∧ n.stem isTrivia = .branch k ps := by
  cases e with
  | token i t => exact nomatch h
  | node i k' s cs => exact ⟨⟨i, k', s, cs⟩, rfl, h⟩

/-- An element whose stem is a leaf is a token. -/
lemma eq_token_of_stem {e : Element} {k : Kind} (h : e.stem isTrivia = .leaf k) :
    ∃ l : Leaf, e = .token l.id l.token ∧ l.kind = k := by
  cases e with
  | token i t => exact ⟨⟨i, t⟩, rfl, (Stem.leaf.inj h)⟩
  | node i k' s cs => exact nomatch h

mutual

/-- What holds of all nodes of a stem holds of the stems of all nodes of the tree. -/
lemma forall_descendants {P : Kind → List Stem → Prop} : (e : Element) → Stem.AllIn P (e.stems isTrivia) →
    ∀ n ∈ descendants e, Stem.All P (n.stem isTrivia)
  | .token _ _, _ => by simp [descendants]
  | .node _ _ _ cs, h => List.forall_mem_cons.2 ⟨h.1, forall_descendantsIn cs h.1.2⟩

lemma forall_descendantsIn {P : Kind → List Stem → Prop} : (es : List Element) →
    Stem.AllIn P (stemsIn isTrivia es) → ∀ n ∈ descendantsIn es, Stem.All P (n.stem isTrivia)
  | [], _ => by simp [descendantsIn]
  | e :: es, h => by
    rw [stemsIn, Stem.allIn_append] at h
    exact List.forall_mem_append.2 ⟨forall_descendants e h.1, forall_descendantsIn es h.2⟩

end

end Element

/-- What holds of the kinds and the parts of all nodes in the stem of a tree holds of the stems of all its nodes. -/
lemma Node.forall_descendants {isTrivia : Kind → Bool} {P : Kind → List Stem → Prop} {n : Node}
    (hn : P n.kind (Element.stemsIn isTrivia n.children)) (h : Stem.AllIn P (Element.stemsIn isTrivia n.children)) :
    ∀ m ∈ n.descendants, Stem.All P (m.stem isTrivia) :=
  Element.forall_descendants n.element ⟨⟨hn, h⟩, trivial⟩

/-! ## Weaving -/

namespace Loom

variable {isTrivia : Kind → Bool} {opened : List OpenNode}

lemma stemsIn_place (ts : List Token) (l : Loom) : Element.stemsIn isTrivia (place opened ts l).1 =
    (ts.filter fun t => !isTrivia t.kind).map fun t => .leaf t.kind := by
  induction ts generalizing l with
  | nil => rfl
  | cons t ts ih =>
    have hplace : Element.stemsIn isTrivia (place opened (t :: ts) l).1 =
        Element.stems isTrivia (l.placeToken opened t).1 ++
          Element.stemsIn isTrivia (place opened ts (l.placeToken opened t).2).1 := rfl
    have htoken : Element.stems isTrivia (l.placeToken opened t).1 =
        if isTrivia t.kind then [] else [.leaf t.kind] := rfl
    rw [hplace, htoken, ih]
    cases h : isTrivia t.kind <;> simp [h]

/-- Blanks and comments have no stem. -/
lemma stemsIn_place_trivia {ts : List Token} (h : ∀ t ∈ ts, isTrivia t.kind = true) (l : Loom) :
    Element.stemsIn isTrivia (place opened ts l).1 = [] := by
  rw [stemsIn_place, List.filter_eq_nil_iff.2 fun t ht => by simp [h t ht], List.map_nil]

end Loom

namespace Sprout

open Loom

variable {isTrivia : Kind → Bool}

mutual

/-- Weaving a sprout keeps its stem. -/
lemma stems_weave (opened : List OpenNode) : (s : Sprout) → {l : Loom} → {rest : List Token} →
    l.Feeds (isTrivia ·.kind) (s.words.map Word.token ++ rest) → (∀ w ∈ s.words, isTrivia w.kind = false) →
    (s.weave opened l).2.Feeds (isTrivia ·.kind) rest ∧ Element.stemsIn isTrivia (s.weave opened l).1 = s.stems
  | .word w, l, rest, h, hw => by
    obtain ⟨hfeeds, us, l', hplace, -, htrivia⟩ := h.placeWord opened
    refine ⟨hfeeds, ?_⟩
    have hkind : isTrivia w.token.kind = false := hw w (List.mem_singleton_self w)
    have hgap : us.filter (fun t => !isTrivia t.kind) = [] :=
      List.filter_eq_nil_iff.2 fun t ht => by simp [htrivia t ht]
    rw [weave, hplace, stemsIn_place, List.filter_append, hgap, stems]
    simp [hkind]
  | .error _ _, l, _, h, _ => ⟨⟨h.tokens, h.gaps, h.tail⟩, rfl⟩
  | .node k cs, l, rest, h, hw => by
    obtain ⟨hgap, us, l', hplace, -, htrivia⟩ := h.placeGap opened
    obtain ⟨hin, hstems⟩ := stemsIn_weaveIn (((l.placeGap opened).2.nodes, k) :: opened) cs
      (l := { (l.placeGap opened).2 with nodes := (l.placeGap opened).2.nodes + 1 })
      ⟨hgap.tokens, hgap.gaps, hgap.tail⟩ hw
    refine ⟨hin, ?_⟩
    have hbefore : Element.stemsIn isTrivia (l.placeGap opened).1 = [] := by
      rw [hplace]
      exact stemsIn_place_trivia htrivia l'
    have hparts := congrArg (fun ps => [Stem.branch k ps]) hstems
    exact (Element.stemsIn_append _ _).trans (congrArg₂ (· ++ ·) hbefore hparts)

lemma stemsIn_weaveIn (opened : List OpenNode) : (ss : List Sprout) → {l : Loom} → {rest : List Token} →
    l.Feeds (isTrivia ·.kind) ((wordsIn ss).map Word.token ++ rest) → (∀ w ∈ wordsIn ss, isTrivia w.kind = false) →
    (weaveIn opened ss l).2.Feeds (isTrivia ·.kind) rest ∧
      Element.stemsIn isTrivia (weaveIn opened ss l).1 = stemsIn ss
  | [], _, _, h, _ => ⟨h, rfl⟩
  | s :: ss, l, rest, h, hw => by
    rw [wordsIn, List.map_append, List.append_assoc] at h
    rw [wordsIn, List.forall_mem_append] at hw
    obtain ⟨hfeeds, hstems⟩ := stems_weave opened s h hw.1
    obtain ⟨hfeeds', hstems'⟩ := stemsIn_weaveIn opened ss hfeeds hw.2
    refine ⟨hfeeds', ?_⟩
    rw [weaveIn, Element.stemsIn_append, hstems, hstems', stemsIn]

end

end Sprout

namespace Parser

/-- If a parser reads a text to its end, the tree has the stem of what it grows. -/
lemma stem_tree {k : Kind} {body : Parser Unit} {isTrivia : Kind → Bool} {text : Text} {offset : Nat} {ts : List Token}
    (hrest : (body.run (.start isTrivia text offset ts)).2.rest = []) :
    Element.stemsIn isTrivia (body.tree k isTrivia text offset ts).root.children =
      Sprout.stemsIn (body.run (.start isTrivia text offset ts)).2.grown.reverse := by
  obtain ⟨taken, htaken, hgrown, -⟩ := (body.forward (.start isTrivia text offset ts)).moved
  rw [hrest, List.append_nil] at htaken
  replace htaken : (Words.ofTokens isTrivia ts).words = taken := htaken
  have hwords : Sprout.wordsIn (body.run (.start isTrivia text offset ts)).2.grown.reverse = taken := hgrown
  have hstart : (⟨(Words.ofTokens isTrivia ts).words, (Words.ofTokens isTrivia ts).tail, offset, 1, 0, []⟩ : Loom).Feeds
      (isTrivia ·.kind) (taken.map Word.token ++ []) := by
    refine ⟨?_, (Words.trivia_ofTokens ts).1, (Words.trivia_ofTokens ts).2⟩
    rw [List.append_nil]
    exact congrArg (List.map Word.token) htaken
  have hkinds : ∀ w ∈ taken, isTrivia w.kind = false := by
    intro w hw
    rw [← htaken] at hw
    have hmem := List.mem_map_of_mem (f := Word.token) hw
    rw [Words.tokens_ofTokens, List.mem_filter] at hmem
    simpa using hmem.2
  rw [← hwords] at hstart hkinds
  obtain ⟨hfeeds, hstems⟩ := Sprout.stemsIn_weaveIn [(0, k)] _ hstart hkinds
  -- Behind the last word there are blanks and comments only.
  have htree : Element.stemsIn isTrivia (body.tree k isTrivia text offset ts).root.children =
      Element.stemsIn isTrivia _ ++ Element.stemsIn isTrivia (Loom.placeRest [(0, k)] _).1 := Element.stemsIn_append _ _
  have hnil := List.map_eq_nil_iff.1 hfeeds.tokens
  have hlast : ∀ l : Loom, l.words = [] → (∀ t ∈ l.tail, isTrivia t.kind = true) →
      Element.stemsIn isTrivia (l.placeRest [(0, k)]).1 = [] := by
    intro l hl htail
    rw [Loom.placeRest, hl]
    exact Loom.stemsIn_place_trivia htail _
  rw [htree]
  refine Eq.trans (congrArg₂ (· ++ ·) hstems (hlast _ hnil hfeeds.tail)) (List.append_nil _)

end Parser

end GoFront
