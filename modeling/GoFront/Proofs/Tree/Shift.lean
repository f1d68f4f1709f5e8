import GoFront.Parse.Weave
import Mathlib.Tactic.Common

/-!
# Trees further on in a document

What stands at some offsets of a document can stand at others, all of them moved by the same distance. A token, a node
and an error are told by offsets, and nothing else of them depends on where they stand: their numbers, kinds, texts and
problems stay the same. Weaving commutes with the move, since it looks at the offsets of tokens only to pass them on.
-/

namespace GoFront

/-- A stretch moved on by a distance. -/
def Span.shift (n : Nat) (r : Span) : Span := ⟨r.start + n, r.length⟩

@[simp] lemma Span.shift_between (n a b : Nat) : (Span.between a b).shift n = .between (a + n) (b + n) := by
  simp only [Span.shift, Span.between, Nat.add_sub_add_right]

@[simp] lemma Span.shift_emptyAt (n a : Nat) : (Span.emptyAt a).shift n = .emptyAt (a + n) := rfl

/-- A token moved on by a distance. -/
def Token.shift (n : Nat) (t : Token) : Token := { t with start := t.start + n }

namespace Token

variable (n : Nat) (t : Token)

@[simp] lemma kind_shift : (t.shift n).kind = t.kind := rfl

@[simp] lemma text_shift : (t.shift n).text = t.text := rfl

@[simp] lemma span_shift : (t.shift n).span = t.span.shift n := rfl

@[simp] lemma stop_shift : (t.shift n).stop = t.stop + n := by
  simp only [stop, shift]
  omega

end Token

/-- A word moved on by a distance. -/
def Word.shift (n : Nat) (w : Word) : Word := { w with gap := w.gap.map (Token.shift n), token := w.token.shift n }

/-- Words moved on by a distance. -/
def Words.shift (n : Nat) (ws : Words) : Words := ⟨ws.words.map (Word.shift n), ws.tail.map (Token.shift n)⟩

namespace Words

lemma group_shift (isTrivia : Kind → Bool) (n : Nat) (ts : List Token) : ∀ (fresh : Bool) (gap : List Token),
    group isTrivia fresh (gap.map (Token.shift n)) (ts.map (Token.shift n)) =
      (group isTrivia fresh gap ts).shift n := by
  induction ts with
  | nil =>
    intro fresh gap
    simp [group, shift]
  | cons t ts ih =>
    intro fresh gap
    rw [List.map_cons, group, group, Token.kind_shift]
    split
    · exact ih (fresh || breaksLine t) (t :: gap)
    · rw [Token.text_shift, show group _ _ [] _ = _ from ih t.text.hasNewline [], ← List.map_reverse]
      rfl

/-- Tokens further on are grouped in the same way. -/
lemma ofTokens_shift (isTrivia : Kind → Bool) (n : Nat) (ts : List Token) :
    ofTokens isTrivia (ts.map (Token.shift n)) = (ofTokens isTrivia ts).shift n :=
  group_shift isTrivia n ts true []

lemma toTokens_shift (n : Nat) (ws : Words) : (ws.shift n).toTokens = ws.toTokens.map (Token.shift n) := by
  simp only [toTokens, shift, List.map_append, List.map_flatMap, List.flatMap_map]
  rfl

end Words

/-! ## Trees -/

namespace Element

mutual

/-- An element moved on by a distance. -/
def shift (n : Nat) : Element → Element
  | .token i t => .token i (t.shift n)
  | .node i k r cs => .node i k (r.shift n) (shiftIn n cs)

/-- Elements moved on by a distance. -/
def shiftIn (n : Nat) : List Element → List Element
  | [] => []
  | e :: es => shift n e :: shiftIn n es

end

lemma shiftIn_append (n : Nat) (es es' : List Element) : shiftIn n (es ++ es') = shiftIn n es ++ shiftIn n es' := by
  induction es with
  | nil => rfl
  | cons e es ih => rw [List.cons_append, shiftIn, ih, shiftIn, List.cons_append]

end Element

/-- A node moved on by a distance. -/
def Node.shift (n : Nat) (m : Node) : Node :=
  { m with span := m.span.shift n, children := Element.shiftIn n m.children }

/-- An error moved on by a distance. -/
def SyntaxError.shift (n : Nat) (e : SyntaxError) : SyntaxError := { e with span := e.span.shift n }

/-- The tree of a text that stands further on in its document by a distance. -/
def SyntaxTree.shift (n : Nat) (t : SyntaxTree) : SyntaxTree :=
  { t with offset := t.offset + n, root := t.root.shift n, errors := t.errors.map (SyntaxError.shift n) }

/-! ## Weaving -/

namespace Sprout

mutual

/-- A sprout moved on by a distance. -/
def shift (n : Nat) : Sprout → Sprout
  | .word w => .word (w.shift n)
  | .error p r => .error p (r.shift n)
  | .node k cs => .node k (shiftIn n cs)

/-- Sprouts moved on by a distance. -/
def shiftIn (n : Nat) : List Sprout → List Sprout
  | [] => []
  | s :: ss => shift n s :: shiftIn n ss

end

lemma shiftIn_eq_map (n : Nat) (ss : List Sprout) : shiftIn n ss = ss.map (shift n) := by
  induction ss with
  | nil => rfl
  | cons s ss ih => rw [shiftIn, ih, List.map_cons]

end Sprout

/-- A loom moved on by a distance. -/
def Loom.shift (n : Nat) (l : Loom) : Loom :=
  { l with
    words := l.words.map (Word.shift n)
    tail := l.tail.map (Token.shift n)
    position := l.position + n
    errors := l.errors.map (SyntaxError.shift n) }

/-- Elements and the loom behind them, moved on by a distance. -/
def Loom.shiftWoven (n : Nat) (r : List Element × Loom) : List Element × Loom := (Element.shiftIn n r.1, r.2.shift n)

variable (n : Nat) (opened : List OpenNode)

namespace Loom

lemma placeToken_shift (t : Token) (l : Loom) : (l.shift n).placeToken opened (t.shift n) =
    ((l.placeToken opened t).1.shift n, (l.placeToken opened t).2.shift n) := by
  rw [placeToken, placeToken, Token.kind_shift, Token.stop_shift]
  cases t.kind.isLexicalError <;> rfl

lemma place_shift (ts : List Token) : ∀ l : Loom,
    place opened (ts.map (Token.shift n)) (l.shift n) = shiftWoven n (place opened ts l) := by
  induction ts with
  | nil => exact fun l => rfl
  | cons t ts ih =>
    intro l
    simp only [List.map_cons, place, placeToken_shift, ih]
    rfl

lemma placeGap_shift (l : Loom) : (l.shift n).placeGap opened = shiftWoven n (l.placeGap opened) := by
  obtain ⟨words, tail, position, nodes, tokens, errors⟩ := l
  cases words with
  | nil => exact place_shift n opened tail ⟨[], [], position, nodes, tokens, errors⟩
  | cons w ws => exact place_shift n opened w.gap ⟨{ w with gap := [] } :: ws, tail, position, nodes, tokens, errors⟩

lemma placeWord_shift (l : Loom) : (l.shift n).placeWord opened = shiftWoven n (l.placeWord opened) := by
  obtain ⟨words, tail, position, nodes, tokens, errors⟩ := l
  cases words with
  | nil => exact place_shift n opened tail ⟨[], [], position, nodes, tokens, errors⟩
  | cons w ws =>
    refine Eq.trans ?_ (place_shift n opened (w.gap ++ [w.token]) ⟨ws, tail, position, nodes, tokens, errors⟩)
    rw [List.map_append]
    rfl

lemma placeRest_shift (l : Loom) : (l.shift n).placeRest opened = shiftWoven n (l.placeRest opened) := by
  refine Eq.trans ?_ (place_shift n opened (Words.mk l.words l.tail).toTokens _)
  rw [← Words.toTokens_shift]
  rfl

end Loom

namespace Sprout

mutual

lemma weave_shift : (s : Sprout) → ∀ (opened : List OpenNode) (l : Loom),
    weave opened (shift n s) (l.shift n) = Loom.shiftWoven n (weave opened s l)
  | .word _, opened, l => Loom.placeWord_shift n opened l
  | .error _ _, _, _ => rfl
  | .node k cs, opened, l => by
    simp only [shift, weave, Loom.placeGap_shift, Loom.shiftWoven]
    -- Behind the gap the parts are woven, and the node takes its stretch from them.
    generalize l.placeGap opened = r
    obtain ⟨gap, m⟩ := r
    have hchildren := weaveIn_shift cs ((m.nodes, k) :: opened) { m with nodes := m.nodes + 1 }
    simp only [Loom.shiftWoven] at hchildren
    simp only [Loom.shift] at hchildren ⊢
    simp only [hchildren, Element.shiftIn_append, Element.shiftIn, Element.shift, Span.shift_between]

lemma weaveIn_shift : (ss : List Sprout) → ∀ (opened : List OpenNode) (l : Loom),
    weaveIn opened (shiftIn n ss) (l.shift n) = Loom.shiftWoven n (weaveIn opened ss l)
  | [], _, _ => rfl
  | s :: ss, opened, l => by
    simp only [shiftIn, weaveIn, weave_shift s opened l, Loom.shiftWoven, weaveIn_shift ss opened,
      Element.shiftIn_append]

end

/-- What is grown further on becomes a tree further on. -/
lemma tree_shift (k : Kind) (ss : List Sprout) (text : Text) (offset : Nat) (ws : Words) :
    tree k (shiftIn n ss) text (offset + n) (ws.shift n) = (tree k ss text offset ws).shift n := by
  let start : Loom := { words := ws.words, tail := ws.tail, position := offset, nodes := 1 }
  have hweave := weaveIn_shift n ss [(0, k)] start
  have hrest := Loom.placeRest_shift n [(0, k)] (weaveIn [(0, k)] ss start).2
  have hstart : start.shift n =
      { words := (ws.shift n).words, tail := (ws.shift n).tail, position := offset + n, nodes := 1 } := rfl
  rw [hstart] at hweave
  simp only [tree, hweave, Loom.shiftWoven, hrest]
  simp only [SyntaxTree.shift, Node.shift, Span.shift_between, Element.shiftIn_append, Loom.shift, List.map_reverse]
  rfl

end Sprout

end GoFront
