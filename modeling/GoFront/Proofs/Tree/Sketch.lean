import GoFront.Proofs.Parse.Locality
import GoFront.Proofs.Tree.Cover
import GoFront.Proofs.Tree.Report

/-!
# Trees up to the numbers of their elements

The sketch of a tree keeps kinds, stretches and tokens, and leaves out the numbers. Weaving the same sprouts on two
looms gives the same sketches if the looms hold the same words; what follows the words of a piece does not matter as
long as no node starts behind the last of them (`Sprout.spend`). At the outermost level, what stands before the first
word of the piece does not matter to the nodes either.
-/

namespace GoFront

/-- An element of a tree without its number. -/
inductive Sketch where
  /-- A token. -/
  | leaf (token : Token)
  /-- A node: its kind, the stretch of text it covers, and its parts. -/
  | branch (kind : Kind) (span : Span) (parts : List Sketch)

/-- Whether a sketch is that of a node. -/
def Sketch.isBranch : Sketch → Bool
  | .leaf _ => false
  | .branch _ _ _ => true

namespace Element

mutual

/-- The sketch of an element. -/
def sketch : Element → Sketch
  | .token _ t => .leaf t
  | .node _ k s cs => .branch k s (sketchIn cs)

/-- The sketches of elements that follow one another. -/
def sketchIn : List Element → List Sketch
  | [] => []
  | e :: es => sketch e :: sketchIn es

end

lemma sketchIn_eq_map (es : List Element) : sketchIn es = es.map sketch := by
  induction es with
  | nil => rfl
  | cons e es ih => rw [sketchIn, ih, List.map_cons]

lemma sketchIn_append (es fs : List Element) : sketchIn (es ++ fs) = sketchIn es ++ sketchIn fs := by
  simp only [sketchIn_eq_map, List.map_append]

/-- The sketches of the nodes among some elements. -/
def branches (es : List Element) : List Sketch := (sketchIn es).filter Sketch.isBranch

lemma branches_congr {es fs : List Element} (h : sketchIn es = sketchIn fs) : branches es = branches fs :=
  congrArg (List.filter Sketch.isBranch) h

lemma branches_append (es fs : List Element) : branches (es ++ fs) = branches es ++ branches fs := by
  rw [branches, sketchIn_append, List.filter_append]
  rfl

end Element

/-- The sketch of a node. -/
def Node.sketch (n : Node) : Sketch := n.element.sketch

/-- The child nodes of a node are the nodes among its parts. -/
lemma Node.sketch_nodes (n : Node) : n.nodes.map Node.sketch = Element.branches n.children := by
  rw [Node.nodes, Element.branches, Element.sketchIn_eq_map]
  generalize n.children = es
  induction es with
  | nil => rfl
  | cons e es ih =>
    cases e with
    | token i t => exact ih
    | node i k s cs => exact congrArg (_ :: ·) ih

/-! ## Placing tokens -/

/-- A word as far as weaving looks at it. -/
def Word.laid (w : Word) : List Token × Token := (w.gap, w.token)

/-- The offset behind some tokens that start at an offset. -/
def Token.lastStop (start : Nat) (ts : List Token) : Nat := (ts.getLast?.map Token.stop).getD start

lemma Token.lastStop_cons (start : Nat) (t : Token) (ts : List Token) :
    lastStop start (t :: ts) = lastStop t.stop ts := by
  rw [lastStop, lastStop, List.getLast?_cons]
  cases ts.getLast? <;> rfl

/-- Tokens that tile end where the next one starts. -/
lemma Token.Tile.lastStop {n : Nat} {ts us : List Token} {t : Token} (h : Tile n (ts ++ t :: us)) :
    Token.lastStop n ts = t.start := by
  induction ts generalizing n with
  | nil =>
    cases h
    rfl
  | cons u ts ih =>
    cases h with
    | cons h =>
      rw [Token.lastStop_cons]
      exact ih h

namespace Loom

variable (opened opened' : List OpenNode)

lemma sketchIn_place (ts : List Token) (l : Loom) :
    Element.sketchIn (place opened ts l).1 = ts.map Sketch.leaf ∧
      (place opened ts l).2.position = Token.lastStop l.position ts := by
  induction ts generalizing l with
  | nil => exact ⟨rfl, rfl⟩
  | cons t ts ih =>
    obtain ⟨hsketch, hposition⟩ := ih (l.placeToken opened t).2
    refine ⟨?_, ?_⟩
    · change Element.sketchIn ((l.placeToken opened t).1 :: (place opened ts (l.placeToken opened t).2).1) = _
      rw [Element.sketchIn, hsketch]
      rfl
    · rw [Token.lastStop_cons]
      exact hposition

/-- Placing tokens makes no nodes. -/
lemma branches_place (ts : List Token) (l : Loom) : Element.branches (place opened ts l).1 = [] := by
  rw [Element.branches, (sketchIn_place opened ts l).1, List.filter_eq_nil_iff]
  intro x hx
  obtain ⟨t, -, rfl⟩ := List.mem_map.1 hx
  simp [Sketch.isBranch]

lemma placeWord_of_nil {l : Loom} (h : l.words = []) :
    l.placeWord opened = place opened l.tail { l with tail := [] } := by
  rw [placeWord, h]

lemma placeWord_of_cons {l : Loom} {w : Word} {ws : List Word} (h : l.words = w :: ws) :
    l.placeWord opened = place opened (w.gap ++ [w.token]) { l with words := ws } := by
  rw [placeWord, h]

lemma placeGap_of_nil {l : Loom} (h : l.words = []) :
    l.placeGap opened = place opened l.tail { l with tail := [] } := by
  rw [placeGap, h]

lemma placeGap_of_cons {l : Loom} {w : Word} {ws : List Word} (h : l.words = w :: ws) :
    l.placeGap opened = place opened w.gap { l with words := { w with gap := [] } :: ws } := by
  rw [placeGap, h]

/-! ## Two looms side by side -/

/-- Two looms stand at the same place of a piece: the words of the first come next on the second, in front of
`more`, behind which comes `last`. -/
structure Along (more : List Word) (last : List Token) (l l' : Loom) : Prop where
  words : l'.words.map Word.laid = l.words.map Word.laid ++ more.map Word.laid
  position : l'.position = l.position
  tail : more = [] → l'.tail = l.tail
  last : more ≠ [] → l'.tail = last

/-- Two looms stand in front of the same word of a piece, whatever has to be placed before it. -/
structure Nears (more : List Word) (last : List Token) (l l' : Loom) : Prop where
  words : ∃ w ws w' ws', l.words = w :: ws ∧ l'.words = w' :: ws' ∧ w'.token = w.token ∧
    ws'.map Word.laid = ws.map Word.laid ++ more.map Word.laid ∧
    Token.lastStop l.position w.gap = w.token.start ∧ Token.lastStop l'.position w'.gap = w.token.start
  tail : more = [] → l'.tail = l.tail
  last : more ≠ [] → l'.tail = last

namespace Along

variable {more : List Word} {last : List Token} {l l' : Loom}

/-- The same tokens are placed on both looms. -/
lemma place (h : Along more last l l') (ts : List Token) :
    Element.sketchIn (Loom.place opened' ts l').1 = Element.sketchIn (Loom.place opened ts l).1 ∧
      Along more last (Loom.place opened ts l).2 (Loom.place opened' ts l').2 := by
  obtain ⟨hsketch, hposition⟩ := sketchIn_place opened ts l
  obtain ⟨hsketch', hposition'⟩ := sketchIn_place opened' ts l'
  obtain ⟨hwords, htail⟩ := words_tail_place opened ts l
  obtain ⟨hwords', htail'⟩ := words_tail_place opened' ts l'
  refine ⟨hsketch'.trans hsketch.symm, ?_, ?_, ?_, ?_⟩
  · rw [hwords, hwords']
    exact h.words
  · rw [hposition, hposition', h.position]
  · rw [htail, htail']
    exact h.tail
  · rw [htail']
    exact h.last

/-- The words of both looms are gone together if nothing follows. -/
lemma words_eq_nil (h : Along more last l l') (hl : l.words = []) (hmore : more = []) : l'.words = [] := by
  have := h.words
  rw [hl, hmore] at this
  exact List.map_eq_nil_iff.1 this

lemma words_eq_cons (h : Along more last l l') {w : Word} {ws : List Word} (hl : l.words = w :: ws) :
    ∃ w' ws', l'.words = w' :: ws' ∧ w'.gap = w.gap ∧ w'.token = w.token ∧
      ws'.map Word.laid = ws.map Word.laid ++ more.map Word.laid := by
  have := h.words
  rw [hl, List.map_cons, List.cons_append] at this
  obtain ⟨w', ws', hl', hw, hws⟩ := List.map_eq_cons_iff.1 this
  exact ⟨w', ws', hl', congrArg Prod.fst hw, congrArg Prod.snd hw, hws⟩

/-- Where no word is left, both looms place what is behind the last one. -/
lemma placeTail (h : Along more last l l') (hmore : more = []) :
    Element.sketchIn (Loom.place opened' l'.tail { l' with tail := [] }).1 =
        Element.sketchIn (Loom.place opened l.tail { l with tail := [] }).1 ∧
      Along more last (Loom.place opened l.tail { l with tail := [] }).2
        (Loom.place opened' l'.tail { l' with tail := [] }).2 := by
  have hstart : Along more last { l with tail := [] } { l' with tail := [] } :=
    ⟨h.words, h.position, fun _ => rfl, fun hne => absurd hmore hne⟩
  rw [h.tail hmore]
  exact hstart.place opened opened' l.tail

lemma placeWord (h : Along more last l l') (hl : more ≠ [] → l.words ≠ []) :
    Element.sketchIn (l'.placeWord opened').1 = Element.sketchIn (l.placeWord opened).1 ∧
      Along more last (l.placeWord opened).2 (l'.placeWord opened').2 := by
  cases hwords : l.words with
  | nil =>
    have hmore : more = [] := by
      by_contra hmore
      exact hl hmore hwords
    rw [placeWord_of_nil opened hwords, placeWord_of_nil opened' (h.words_eq_nil hwords hmore)]
    exact h.placeTail opened opened' hmore
  | cons w ws =>
    obtain ⟨w', ws', hwords', hgap, htoken, hws⟩ := h.words_eq_cons hwords
    have hrest : Along more last { l with words := ws } { l' with words := ws' } := ⟨hws, h.position, h.tail, h.last⟩
    rw [placeWord_of_cons opened hwords, placeWord_of_cons opened' hwords', hgap, htoken]
    exact hrest.place opened opened' _

lemma placeGap (h : Along more last l l') (hl : more ≠ [] → l.words ≠ []) :
    Element.sketchIn (l'.placeGap opened').1 = Element.sketchIn (l.placeGap opened).1 ∧
      Along more last (l.placeGap opened).2 (l'.placeGap opened').2 := by
  cases hwords : l.words with
  | nil =>
    have hmore : more = [] := by
      by_contra hmore
      exact hl hmore hwords
    rw [placeGap_of_nil opened hwords, placeGap_of_nil opened' (h.words_eq_nil hwords hmore)]
    exact h.placeTail opened opened' hmore
  | cons w ws =>
    obtain ⟨w', ws', hwords', hgap, htoken, hws⟩ := h.words_eq_cons hwords
    have hrest : Along more last { l with words := { w with gap := [] } :: ws }
        { l' with words := { w' with gap := [] } :: ws' } := by
      refine ⟨?_, h.position, h.tail, h.last⟩
      simp only [List.map_cons, Word.laid, htoken, List.cons_append, List.cons.injEq, true_and]
      exact hws
    rw [placeGap_of_cons opened hwords, placeGap_of_cons opened' hwords', hgap]
    exact hrest.place opened opened' _

/-- A node around what was woven on both looms. -/
lemma node (h : Along more last l l') {r r' : List Element × Loom}
    (hparts : Element.sketchIn r'.1 = Element.sketchIn r.1) (hr : Along more last r.2 r'.2) (k : Kind) :
    Element.sketchIn [.node l'.nodes k (.between l'.position r'.2.position) r'.1] =
      Element.sketchIn [.node l.nodes k (.between l.position r.2.position) r.1] := by
  simp only [Element.sketchIn, Element.sketch, hparts, h.position, hr.position]

/-- The next node can be given any number. -/
lemma renumber (h : Along more last l l') (i j : Nat) :
    Along more last { l with nodes := i } { l' with nodes := j } :=
  ⟨h.words, h.position, h.tail, h.last⟩

end Along

/-- The gap before the next word is placed once. -/
lemma placeGap_placeGap {l : Loom} (h : l.words ≠ []) :
    (l.placeGap opened).2.placeGap opened = ([], (l.placeGap opened).2) := by
  obtain ⟨w, ws, hwords⟩ := List.exists_cons_of_ne_nil h
  have hgap : (l.placeGap opened).2.words = { w with gap := [] } :: ws := by
    rw [placeGap_of_cons opened hwords, (words_tail_place opened _ _).1]
  rw [placeGap_of_cons opened hgap]
  dsimp only
  rw [← hgap]
  rfl

namespace Nears

variable {more : List Word} {last : List Token} {l l' : Loom}

lemma ne_nil (h : Nears more last l l') : l.words ≠ [] ∧ l'.words ≠ [] := by
  obtain ⟨w, ws, w', ws', hl, hl', -⟩ := h.words
  rw [hl, hl']
  exact ⟨List.cons_ne_nil w ws, List.cons_ne_nil w' ws'⟩

/-- With the gaps before the next word both looms come to the same place. -/
lemma placeGap (h : Nears more last l l') :
    Element.branches (l.placeGap opened).1 = [] ∧ Element.branches (l'.placeGap opened').1 = [] ∧
      Along more last (l.placeGap opened).2 (l'.placeGap opened').2 := by
  obtain ⟨w, ws, w', ws', hl, hl', htoken, hws, hstart, hstart'⟩ := h.words
  rw [placeGap_of_cons opened hl, placeGap_of_cons opened' hl']
  refine ⟨branches_place _ _ _, branches_place _ _ _, ?_, ?_, ?_, ?_⟩
  · rw [(words_tail_place opened _ _).1, (words_tail_place opened' _ _).1]
    simp only [List.map_cons, Word.laid, htoken, List.cons_append, List.cons.injEq, true_and]
    exact hws
  · rw [(sketchIn_place _ _ _).2, (sketchIn_place _ _ _).2]
    exact hstart'.trans hstart.symm
  · rw [(words_tail_place opened _ _).2, (words_tail_place opened' _ _).2]
    exact h.tail
  · rw [(words_tail_place opened' _ _).2]
    exact h.last

lemma placeWord (h : Nears more last l l') :
    Element.branches (l.placeWord opened).1 = [] ∧ Element.branches (l'.placeWord opened').1 = [] ∧
      Along more last (l.placeWord opened).2 (l'.placeWord opened').2 := by
  obtain ⟨w, ws, w', ws', hl, hl', htoken, hws, -⟩ := h.words
  rw [placeWord_of_cons opened hl, placeWord_of_cons opened' hl']
  refine ⟨branches_place _ _ _, branches_place _ _ _, ?_, ?_, ?_, ?_⟩
  · rw [(words_tail_place opened _ _).1, (words_tail_place opened' _ _).1]
    exact hws
  · have hlast : ∀ n (ts : List Token) t, Token.lastStop n (ts ++ [t]) = t.stop := by
      intro n ts t
      rw [Token.lastStop, List.getLast?_concat]
      rfl
    rw [(sketchIn_place _ _ _).2, (sketchIn_place _ _ _).2, hlast, hlast, htoken]
  · rw [(words_tail_place opened _ _).2, (words_tail_place opened' _ _).2]
    exact h.tail
  · rw [(words_tail_place opened' _ _).2]
    exact h.last

end Nears

/-- Placing the next word takes it off the loom. -/
lemma length_placeWord (l : Loom) : (l.placeWord opened).2.words.length = l.words.length - 1 := by
  cases hwords : l.words with
  | nil =>
    rw [placeWord_of_nil opened hwords, (words_tail_place opened _ _).1]
    exact congrArg List.length hwords
  | cons w ws =>
    rw [placeWord_of_cons opened hwords, (words_tail_place opened _ _).1]
    rfl

lemma length_placeGap (l : Loom) : (l.placeGap opened).2.words.length = l.words.length := by
  cases hwords : l.words with
  | nil =>
    rw [placeGap_of_nil opened hwords, (words_tail_place opened _ _).1]
    exact congrArg List.length hwords
  | cons w ws =>
    rw [placeGap_of_cons opened hwords, (words_tail_place opened _ _).1]
    rfl

end Loom

/-! ## Weaving on two looms -/

namespace Sprout

variable {more : List Word} {last : List Token}

mutual

/-- The words that a sprout spends are taken off the loom. -/
lemma length_weave (opened : List OpenNode) : (s : Sprout) → {l : Loom} → {n : Nat} →
    s.spend l.words.length = some n → (s.weave opened l).2.words.length = n
  | .word w, l, n, h => by
    rw [spend] at h
    split at h
    · exact nomatch h
    · rw [weave, Loom.length_placeWord opened]
      exact Option.some.inj h
  | .error p r, l, n, h => Option.some.inj h
  | .node k cs, l, n, h => by
    rw [spend] at h
    split at h
    · exact nomatch h
    · refine length_weaveIn _ cs (l := { (l.placeGap opened).2 with nodes := (l.placeGap opened).2.nodes + 1 }) ?_
      change spendIn cs (l.placeGap opened).2.words.length = some n
      rw [Loom.length_placeGap]
      exact h

lemma length_weaveIn (opened : List OpenNode) : (ss : List Sprout) → {l : Loom} → {n : Nat} →
    spendIn ss l.words.length = some n → (weaveIn opened ss l).2.words.length = n
  | [], l, n, h => Option.some.inj h
  | s :: ss, l, n, h => by
    rw [spendIn, Option.bind_eq_some_iff] at h
    obtain ⟨i, hi, hn⟩ := h
    have hs := length_weave opened s hi
    rw [← hs] at hn
    exact length_weaveIn opened ss hn

end

/-- Where a node starts, a word is left. -/
lemma ne_nil_of_spend {k : Kind} {cs : List Sprout} {l : Loom} {n : Nat}
    (h : (Sprout.node k cs).spend l.words.length = some n) : l.words ≠ [] ∧ spendIn cs l.words.length = some n := by
  rw [spend] at h
  split at h
  · exact nomatch h
  · next hpos => exact ⟨fun hnil => hpos (by rw [hnil]; rfl), h⟩

mutual

/-- Weaving a sprout on two looms that stand at the same place gives the same sketches. -/
lemma along_weave (opened opened' : List OpenNode) : (s : Sprout) → {l l' : Loom} →
    (more ≠ [] → ∃ n, s.spend l.words.length = some n) → Loom.Along more last l l' →
    Element.sketchIn (s.weave opened' l').1 = Element.sketchIn (s.weave opened l).1 ∧
      Loom.Along more last (s.weave opened l).2 (s.weave opened' l').2
  | .word w, l, l', hs, h => by
    refine h.placeWord opened opened' fun hmore hnil => ?_
    obtain ⟨n, hn⟩ := hs hmore
    simp [spend, hnil] at hn
  | .error p r, l, l', _, h => ⟨rfl, h.words, h.position, h.tail, h.last⟩
  | .node k cs, l, l', hs, h => by
    obtain ⟨hgap, h₁⟩ := h.placeGap opened opened' fun hmore => by
      obtain ⟨n, hn⟩ := hs hmore
      exact (ne_nil_of_spend hn).1
    obtain ⟨hparts, h₂⟩ := along_weaveIn (((l.placeGap opened).2.nodes, k) :: opened)
      (((l'.placeGap opened').2.nodes, k) :: opened') cs
      (fun hmore => by
        obtain ⟨n, hn⟩ := hs hmore
        refine ⟨n, ?_⟩
        change spendIn cs (l.placeGap opened).2.words.length = some n
        rw [Loom.length_placeGap]
        exact (ne_nil_of_spend hn).2)
      (h₁.renumber ((l.placeGap opened).2.nodes + 1) ((l'.placeGap opened').2.nodes + 1))
    refine ⟨?_, h₂⟩
    simp only [weave, Element.sketchIn_append, hgap]
    exact congrArg _ (h₁.node hparts h₂ k)

lemma along_weaveIn (opened opened' : List OpenNode) : (ss : List Sprout) → {l l' : Loom} →
    (more ≠ [] → ∃ n, spendIn ss l.words.length = some n) → Loom.Along more last l l' →
    Element.sketchIn (weaveIn opened' ss l').1 = Element.sketchIn (weaveIn opened ss l).1 ∧
      Loom.Along more last (weaveIn opened ss l).2 (weaveIn opened' ss l').2
  | [], l, l', _, h => ⟨rfl, h⟩
  | s :: ss, l, l', hs, h => by
    have hsplit : more ≠ [] → ∃ i n, s.spend l.words.length = some i ∧ spendIn ss i = some n := by
      intro hmore
      obtain ⟨n, hn⟩ := hs hmore
      rw [spendIn, Option.bind_eq_some_iff] at hn
      obtain ⟨i, hi, hn⟩ := hn
      exact ⟨i, n, hi, hn⟩
    obtain ⟨hfirst, h₁⟩ := along_weave opened opened' s
      (fun hmore => by
        obtain ⟨i, -, hi, -⟩ := hsplit hmore
        exact ⟨i, hi⟩) h
    obtain ⟨hrest, h₂⟩ := along_weaveIn opened opened' ss
      (fun hmore => by
        obtain ⟨i, n, hi, hn⟩ := hsplit hmore
        rw [length_weave opened s hi]
        exact ⟨n, hn⟩) h₁
    refine ⟨?_, h₂⟩
    simp only [weaveIn, Element.sketchIn_append, hfirst, hrest]

end

/-- The gap in front of a node is woven first. -/
lemma weave_node_gap (opened : List OpenNode) (k : Kind) (cs : List Sprout) {l : Loom} (h : l.words ≠ []) :
    (Sprout.node k cs).weave opened l = ((l.placeGap opened).1 ++ ((Sprout.node k cs).weave opened (l.placeGap opened).2).1,
      ((Sprout.node k cs).weave opened (l.placeGap opened).2).2) := by
  simp only [weave, Loom.placeGap_placeGap opened h, List.nil_append]

/-- Weaving sprouts on two looms that stand in front of the same word gives the same nodes. -/
lemma nears_weaveIn (opened opened' : List OpenNode) (ss : List Sprout) {l l' : Loom}
    (hs : more ≠ [] → ∃ n, spendIn ss l.words.length = some n) (h : Loom.Nears more last l l') :
    Element.branches (weaveIn opened' ss l').1 = Element.branches (weaveIn opened ss l).1 ∧
      (Loom.Along more last (weaveIn opened ss l).2 (weaveIn opened' ss l').2 ∨
        Loom.Nears more last (weaveIn opened ss l).2 (weaveIn opened' ss l').2) := by
  induction ss generalizing l l' with
  | nil => exact ⟨rfl, .inr h⟩
  | cons s ss ih =>
    have hsplit : more ≠ [] → ∃ i n, s.spend l.words.length = some i ∧ spendIn ss i = some n := by
      intro hmore
      obtain ⟨n, hn⟩ := hs hmore
      rw [spendIn, Option.bind_eq_some_iff] at hn
      obtain ⟨i, hi, hn⟩ := hn
      exact ⟨i, n, hi, hn⟩
    have hrest : more ≠ [] → ∃ n, spendIn ss (s.weave opened l).2.words.length = some n := by
      intro hmore
      obtain ⟨i, n, hi, hn⟩ := hsplit hmore
      rw [length_weave opened s hi]
      exact ⟨n, hn⟩
    -- once a word is placed or a node begun, the looms stand at the same place
    have hnext : Element.branches (s.weave opened' l').1 = Element.branches (s.weave opened l).1 →
        Loom.Along more last (s.weave opened l).2 (s.weave opened' l').2 →
        Element.branches (weaveIn opened' (s :: ss) l').1 = Element.branches (weaveIn opened (s :: ss) l).1 ∧
          (Loom.Along more last (weaveIn opened (s :: ss) l).2 (weaveIn opened' (s :: ss) l').2 ∨
            Loom.Nears more last (weaveIn opened (s :: ss) l).2 (weaveIn opened' (s :: ss) l').2) := by
      intro hfirst halong
      obtain ⟨hsketch, halong'⟩ := along_weaveIn opened opened' ss hrest halong
      refine ⟨?_, .inl halong'⟩
      simp only [weaveIn, Element.branches_append, hfirst, Element.branches_congr hsketch]
    cases s with
    | word w =>
      obtain ⟨hl, hl', halong⟩ := h.placeWord opened opened'
      exact hnext (hl'.trans hl.symm) halong
    | error p r =>
      have hnears : Loom.Nears more last ((Sprout.error p r).weave opened l).2 ((Sprout.error p r).weave opened' l').2 :=
        ⟨h.words, h.tail, h.last⟩
      obtain ⟨hbranches, hafter⟩ := ih hrest hnears
      exact ⟨hbranches, hafter⟩
    | node k cs =>
      obtain ⟨hl, hl', halong⟩ := h.placeGap opened opened'
      obtain ⟨hsketch, halong'⟩ := along_weave opened opened' (.node k cs)
        (fun hmore => by
          obtain ⟨i, -, hi, -⟩ := hsplit hmore
          rw [Loom.length_placeGap]
          exact ⟨i, hi⟩) halong
      refine hnext ?_ ?_
      · rw [weave_node_gap opened k cs h.ne_nil.1, weave_node_gap opened' k cs h.ne_nil.2]
        simp only [Element.branches_append, hl, hl', Element.branches_congr hsketch]
      · rw [weave_node_gap opened k cs h.ne_nil.1, weave_node_gap opened' k cs h.ne_nil.2]
        exact halong'

lemma weaveIn_append (opened : List OpenNode) (ss ts : List Sprout) (l : Loom) : weaveIn opened (ss ++ ts) l =
    ((weaveIn opened ss l).1 ++ (weaveIn opened ts (weaveIn opened ss l).2).1,
      (weaveIn opened ts (weaveIn opened ss l).2).2) := by
  induction ss generalizing l with
  | nil => rfl
  | cons s ss ih => simp only [List.cons_append, weaveIn, ih, List.append_assoc]

mutual

/-- Weaving only counts the words of a sprout. -/
lemma weave_bare (opened : List OpenNode) : (s : Sprout) → (l : Loom) → s.bare.weave opened l = s.weave opened l
  | .word _, _ => rfl
  | .error _ _, _ => rfl
  | .node _ cs, l => by simp only [bare, weave, weaveIn_bareIn _ cs]

lemma weaveIn_bareIn (opened : List OpenNode) : (ss : List Sprout) → (l : Loom) →
    weaveIn opened (bareIn ss) l = weaveIn opened ss l
  | [], _ => rfl
  | s :: ss, l => by simp only [bareIn, weaveIn, weave_bare opened s, weaveIn_bareIn opened ss]

end

mutual

/-- What is reported does not depend on what stands between the words. -/
lemma reports_bare : (s : Sprout) → s.bare.reports = s.reports
  | .word _ => rfl
  | .error _ _ => rfl
  | .node _ cs => reportsIn_bareIn cs

lemma reportsIn_bareIn : (ss : List Sprout) → reportsIn (bareIn ss) = reportsIn ss
  | [] => rfl
  | s :: ss => by rw [bareIn, reportsIn, reportsIn, reports_bare s, reportsIn_bareIn ss]

end

end Sprout

end GoFront
