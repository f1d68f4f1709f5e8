import GoFront.Parse.Replay
import GoFront.Proofs.Tree.Cover
import Mathlib.Tactic.Common

/-!
# Replaying a parse gives the woven tree

Weaving makes a tree in one go and checks nothing. Replaying the events of the same sprouts into a
builder checks every step: nodes are started and finished in pairs around a single root, every token
starts where the one before it ends and stands in a node, the words taken are there, and in the end the
whole text is covered. Both give the same tree, so no step is refused
(`Replay.tree?_eq_ok`), as long as the sprouts hold no more words than the text.

The induction over the sprouts keeps the loom and the builder in step: `Mirrors` says that they agree on
all that both keep track of, and `Replay.woven` what the builder has become once elements are woven.
-/

namespace GoFront

namespace Builder

/-- Gives the innermost open node further parts. -/
def Open.extend (es : List Element) (o : Open) : Open := { o with children := es.reverse ++ o.children }

/-- The builder once elements are woven inside its innermost open node, up to the loom `m` and the
text `rest`. -/
def woven (b : Builder) (es : List Element) (m : Loom) (rest : Text) : Builder :=
  { b with
    rest := rest
    position := m.position
    nodes := m.nodes
    tokens := m.tokens
    errors := m.errors
    opened := b.opened.modifyHead (Open.extend es) }

/-- A builder and a loom that agree, inside open nodes. -/
structure Mirrors (opened : List OpenNode) (l : Loom) (b : Builder) : Prop where
  position : b.position = l.position
  nodes : b.nodes = l.nodes
  tokens : b.tokens = l.tokens
  errors : b.errors = l.errors
  nonempty : opened ≠ []
  opened : b.opened.map (fun o => (o.id, o.kind)) = opened

variable {opened : List OpenNode} {l m n : Loom} {b : Builder}

lemma map_modifyHead_extend (es : List Element) (os : List Open) :
    (os.modifyHead (Open.extend es)).map (fun o => (o.id, o.kind)) = os.map fun o => (o.id, o.kind) := by
  cases os <;> rfl

lemma Mirrors.woven (h : Mirrors opened l b) (es : List Element) (m : Loom) (rest : Text) :
    Mirrors opened m (b.woven es m rest) :=
  ⟨rfl, rfl, rfl, rfl, h.nonempty, by rw [← h.opened]; exact map_modifyHead_extend es b.opened⟩

lemma woven_woven (b : Builder) (es fs : List Element) (m n : Loom) (rest rest' : Text) :
    (b.woven es m rest).woven fs n rest' = b.woven (es ++ fs) n rest' := by
  cases h : b.opened with
  | nil => simp [Builder.woven, h]
  | cons o os => simp [Builder.woven, h, Open.extend]

/-- A builder that mirrors a loom has an innermost open node. -/
lemma Mirrors.exists_cons (h : Mirrors opened l b) : ∃ o os, b.opened = o :: os := by
  cases ho : b.opened with
  | nil => exact absurd (by rw [← h.opened, ho]; rfl) h.nonempty
  | cons o os => exact ⟨o, os, rfl⟩

lemma Mirrors.woven_nil (h : Mirrors opened l b) : b.woven [] l b.rest = b := by
  have hopen : b.opened.modifyHead (Open.extend []) = b.opened := by cases b.opened <;> rfl
  simp only [Builder.woven, hopen, ← h.position, ← h.nodes, ← h.tokens, ← h.errors]

/-- The nodes errors belong to are the same. -/
lemma Mirrors.anchorId_innermost (h : Mirrors opened l b) : b.anchorId .innermost = innermost opened := by
  rw [← h.opened]
  simp [anchorId, innermost, Function.comp_def]

lemma Mirrors.anchorId_statement (h : Mirrors opened l b) : b.anchorId .statement = anchor opened := by
  have hi := h.anchorId_innermost
  rw [← h.opened] at hi ⊢
  simp only [anchorId] at hi
  simp only [anchorId, anchor, List.find?_map, Option.map_map, hi]
  rfl

end Builder

namespace Replay

open Builder

variable {opened : List OpenNode} {l m : Loom} {b : Builder}

/-- A token that starts at the position and begins the text to come is added as it is placed. -/
lemma addToken_eq_ok (h : Mirrors opened l b) {t : Token} (rest : Text) (ht : t.start = l.position)
    (hrest : b.rest = t.text ++ rest) :
    addToken b t = .ok (b.woven [(l.placeToken opened t).1] (l.placeToken opened t).2 rest) := by
  obtain ⟨o, os, ho⟩ := h.exists_cons
  have hcut : b.rest.cut? t.span.length = some (t.text, rest) := by
    rw [hrest]
    exact Text.cut?_append t.text rest
  have hpos : t.start = b.position := ht.trans h.position.symm
  have htoken : (⟨t.kind, b.position, t.text⟩ : Token) = t := by rw [← hpos]
  unfold addToken Loom.placeToken
  split
  · simp [Builder.token, report, hpos, hcut, ho, lift, Builder.woven, Open.extend, Loom.withError,
      htoken, h.anchorId_statement, h.nodes, h.tokens, h.errors]
  · simp [Builder.token, hpos, hcut, ho, lift, Builder.woven, Open.extend, htoken, h.nodes, h.tokens,
      h.errors]

/-- Tokens that follow one another from the position are added as they are placed. -/
lemma addTokens_eq_ok (h : Mirrors opened l b) {ts : List Token} {rest : Text}
    (ht : Token.Tile l.position ts) (hrest : b.rest = ts.flatMap Token.text ++ rest) :
    addTokens b ts = .ok (b.woven (Loom.place opened ts l).1 (Loom.place opened ts l).2 rest) := by
  induction ts generalizing l b with
  | nil =>
    have : b.woven [] l rest = b := by simpa [hrest] using h.woven_nil
    exact congrArg Except.ok this.symm
  | cons t ts ih =>
    obtain ⟨hstart, htail⟩ : t.start = l.position ∧ Token.Tile t.stop ts := by
      generalize hn : l.position = n at ht
      cases ht with
      | cons h => exact ⟨rfl, h⟩
    have hadd := addToken_eq_ok h (ts.flatMap Token.text ++ rest) hstart (by simp [hrest])
    have hih := ih (h.woven [(l.placeToken opened t).1] (l.placeToken opened t).2
      (ts.flatMap Token.text ++ rest)) htail rfl
    simp only [addTokens, hadd, hih, woven_woven]
    rfl

end Replay

/-! ## Replays and looms -/

/-- The replay once elements are woven, up to the loom `m`. -/
def Replay.woven (r : Replay) (es : List Element) (m : Loom) : Replay :=
  { r with
    builder := r.builder.woven es m (m.pending.flatMap Token.text)
    words := m.words
    tail := m.tail }

/-- A replay and a loom that agree, inside open nodes. -/
structure Mirrors (R : Span) (opened : List OpenNode) (l : Loom) (r : Replay) : Prop where
  builder : r.builder.Mirrors opened l
  words : r.words = l.words
  tail : r.tail = l.tail
  rest : r.builder.rest = l.pending.flatMap Token.text
  depth : r.depth = opened.length
  ready : l.Ready R

namespace Loom

lemma words_place (opened : List OpenNode) (ts : List Token) (l : Loom) :
    (place opened ts l).2.words = l.words ∧ (place opened ts l).2.tail = l.tail := by
  induction ts generalizing l with
  | nil => exact ⟨rfl, rfl⟩
  | cons t ts ih =>
    have h := ih (l.placeToken opened t).2
    have ht : (l.placeToken opened t).2.words = l.words ∧ (l.placeToken opened t).2.tail = l.tail := by
      unfold placeToken
      split <;> exact ⟨rfl, rfl⟩
    exact ⟨h.1.trans ht.1, h.2.trans ht.2⟩

lemma length_words_placeGap (opened : List OpenNode) (l : Loom) :
    (l.placeGap opened).2.words.length = l.words.length := by
  unfold placeGap
  split
  · next h => rw [(words_place opened _ _).1]
  · next w ws h =>
    rw [(words_place opened _ _).1, h]
    rfl

lemma length_words_placeWord (opened : List OpenNode) (l : Loom) :
    (l.placeWord opened).2.words.length = l.words.length - 1 := by
  unfold placeWord
  split
  · next h =>
    rw [(words_place opened _ _).1]
    simp [h]
  · next w ws h =>
    rw [(words_place opened _ _).1, h]
    rfl

end Loom

namespace Mirrors

variable {R : Span} {opened : List OpenNode} {l m : Loom} {r : Replay}

lemma woven (h : Mirrors R opened l r) (es : List Element) {m : Loom} (hm : m.Ready R) :
    Mirrors R opened m (r.woven es m) :=
  ⟨h.builder.woven es m _, rfl, rfl, rfl, h.depth, hm⟩

/-- Adding the first of the pending tokens, when the replay is left with the others; `depth` may
change on the way. -/
lemma after_addTokens (h : Mirrors R opened l r) (ts : List Token) (l' : Loom) (depth : Nat)
    (hpend : l.pending = ts ++ l'.pending) (hpos : l'.position = l.position) (hnodes : l'.nodes = l.nodes)
    (htokens : l'.tokens = l.tokens) (herrors : l'.errors = l.errors) :
    { r with words := l'.words, tail := l'.tail, depth := depth }.after (Replay.addTokens r.builder ts) =
      .ok { r.woven (Loom.place opened ts l').1 (Loom.place opened ts l').2 with depth := depth } := by
  have hb : r.builder.Mirrors opened l' :=
    ⟨h.builder.position.trans hpos.symm, h.builder.nodes.trans hnodes.symm,
      h.builder.tokens.trans htokens.symm, h.builder.errors.trans herrors.symm, h.builder.nonempty,
      h.builder.opened⟩
  have htile : Token.Tile l'.position ts := by
    have := h.ready.tile
    rw [hpend, ← hpos] at this
    exact this.left
  have hrest : r.builder.rest = ts.flatMap Token.text ++ l'.pending.flatMap Token.text := by
    rw [h.rest, hpend, List.flatMap_append]
  obtain ⟨hw, ht⟩ := Loom.words_place opened ts l'
  rw [Replay.addTokens_eq_ok hb htile hrest]
  simp only [Replay.after, Replay.woven, Loom.pending, hw, ht]

lemma addGap (h : Mirrors R opened l r) :
    r.addGap = .ok (r.woven (l.placeGap opened).1 (l.placeGap opened).2) := by
  unfold Replay.addGap Loom.placeGap
  rw [h.words, h.tail]
  cases hw : l.words with
  | nil =>
    exact h.after_addTokens l.tail { l with words := [], tail := [] } r.depth
      (by simp [Loom.pending, Words.toTokens, hw]) rfl rfl rfl rfl
  | cons w ws =>
    exact h.after_addTokens w.gap { l with words := { w with gap := [] } :: ws } r.depth
      (by simp [Loom.pending, Words.toTokens, hw]) rfl rfl rfl rfl

lemma addWord (h : Mirrors R opened l r) (hw : l.words ≠ []) :
    r.addWord = .ok (r.woven (l.placeWord opened).1 (l.placeWord opened).2) := by
  obtain ⟨w, ws, hw⟩ := List.exists_cons_of_ne_nil hw
  unfold Replay.addWord Loom.placeWord
  rw [h.words, h.tail, hw]
  exact h.after_addTokens (w.gap ++ [w.token]) { l with words := ws } r.depth
    (by simp [Loom.pending, Words.toTokens, hw]) rfl rfl rfl rfl

lemma addRest (h : Mirrors R opened l r) (depth : Nat) :
    { r with depth := depth }.addRest =
      .ok { r.woven (l.placeRest opened).1 (l.placeRest opened).2 with depth := depth } := by
  have := h.after_addTokens l.pending { l with words := [], tail := [] } depth
    (by simp [Loom.pending, Words.toTokens]) rfl rfl rfl rfl
  unfold Replay.addRest Loom.placeRest
  dsimp only
  rw [h.words, h.tail]
  exact this

/-- Starting a node mirrors a loom that has given it a number. -/
lemma startNode (h : Mirrors R opened l r) (k : Kind) :
    ∃ r', r.startNode k = .ok r' ∧
      Mirrors R ((l.nodes, k) :: opened) { l with nodes := l.nodes + 1 } r' ∧
      r' = { r with
        depth := r.depth + 1
        builder := { r.builder with
          opened := { id := l.nodes, kind := k, start := l.position } :: r.builder.opened
          nodes := l.nodes + 1 } } := by
  obtain ⟨o, os, ho⟩ := h.builder.exists_cons
  refine ⟨_, ?_, ?_, rfl⟩
  · simp [Replay.startNode, Builder.start, ho, Replay.lift, Replay.after, h.builder.nodes,
      h.builder.position]
  · exact ⟨⟨h.builder.position, rfl, h.builder.tokens, h.builder.errors, by simp, by simp [h.builder.opened]⟩,
      h.words, h.tail, h.rest, by simp [h.depth], h.ready.tile, h.ready.inside, h.ready.stop⟩

/-- Finishing a node puts it behind what was woven before it. -/
lemma finishNode (h : Mirrors R opened l r) (k : Kind) (gap es : List Element) {l₁ m : Loom} {r₁ : Replay}
    (hr : r₁ = { r.woven gap l₁ with
      depth := r.depth + 1
      builder := { (r.woven gap l₁).builder with
        opened := { id := l₁.nodes, kind := k, start := l₁.position } :: (r.woven gap l₁).builder.opened
        nodes := l₁.nodes + 1 } }) :
    (r₁.woven es m).step .finish =
      .ok (r.woven (gap ++ [.node l₁.nodes k (.between l₁.position m.position) es]) m) := by
  obtain ⟨o, os, ho⟩ := h.builder.exists_cons
  have hdepth : ∃ n, r.depth = n + 1 := by
    obtain ⟨x, xs, hx⟩ := List.exists_cons_of_ne_nil h.builder.nonempty
    exact ⟨xs.length, by simp [h.depth, hx]⟩
  obtain ⟨n, hn⟩ := hdepth
  subst hr
  simp [Replay.step, Replay.woven, hn, Replay.finishNode, Builder.finish, Builder.woven, ho, Replay.lift,
    Replay.after, Builder.Open.extend]

end Mirrors

/-! ## Replaying sprouts -/

namespace Replay

lemma run_append (r : Replay) (es fs : List ParseEvent) : r.run (es ++ fs) = r.run es >>= (run · fs) := by
  induction es generalizing r with
  | nil => rfl
  | cons e es ih =>
    simp only [List.cons_append, run]
    cases r.step e with
    | error x => rfl
    | ok r' => exact ih r'

lemma woven_woven (r : Replay) (es fs : List Element) (m n : Loom) :
    (r.woven es m).woven fs n = r.woven (es ++ fs) n := by
  simp [Replay.woven, Builder.woven_woven]

end Replay

namespace Sprout

variable {R : Span}

mutual

/-- Replaying a sprout does to the builder what weaving it does to the loom. -/
lemma run_events {opened : List OpenNode} : (s : Sprout) → {l : Loom} → {r : Replay} →
    Mirrors R opened l r → s.words.length ≤ l.words.length → (∀ e ∈ s.errors, R.covers e.2) →
    r.run s.events = .ok (r.woven (s.weave opened l).1 (s.weave opened l).2) ∧
      (s.weave opened l).2.words.length + s.words.length = l.words.length
  | .word w, l, r, h, hw, _ => by
    have hne : l.words ≠ [] := by
      rintro hnil
      simp [Sprout.words, hnil] at hw
    have hlen := Loom.length_words_placeWord opened l
    refine ⟨?_, ?_⟩
    · simp only [events, Replay.run, Replay.step, h.addWord hne]
      rfl
    · have := List.length_pos_iff.2 hne
      simp only [weave, Sprout.words, List.length_singleton, hlen]
      omega
  | .error p s, l, r, h, _, _ => by
    obtain ⟨o, os, ho⟩ := h.builder.exists_cons
    refine ⟨?_, by simp [weave, Loom.withError, Sprout.words]⟩
    have hopen : r.builder.opened.modifyHead (Builder.Open.extend []) = r.builder.opened := by
      cases r.builder.opened <;> rfl
    simp only [events, Replay.run, Replay.step, weave, Replay.woven, Builder.woven, hopen, Loom.withError,
      Builder.report, h.builder.anchorId_innermost, ← h.builder.position, ← h.builder.nodes,
      ← h.builder.tokens, ← h.builder.errors, ← h.words, ← h.tail, Loom.pending]
    rw [show (Words.mk r.words r.tail).toTokens = l.pending by rw [h.words, h.tail]; rfl, ← h.rest]
    rfl
  | .node k cs, l, r, h, hw, he => by
    have hgap := Weaves.placeGap (R := R) h.builder.nonempty h.ready
    have hdepth : r.depth ≠ 0 := by
      rw [h.depth]
      exact fun h0 => h.builder.nonempty (List.length_eq_zero_iff.1 h0)
    have hlen := Loom.length_words_placeGap opened l
    -- The gap, the start of the node, its parts, its finish.
    obtain ⟨r₁, hstart, h₁, hr₁⟩ := (h.woven (l.placeGap opened).1 hgap.ready).startNode k
    obtain ⟨hrun, hcount⟩ := run_eventsIn cs h₁ (by simpa [Sprout.words, hlen] using hw)
      (by simpa [errors] using he)
    refine ⟨?_, by simpa [weave, Sprout.words, hlen] using hcount⟩
    have hfinish := h.finishNode k (l.placeGap opened).1
      (weaveIn (((l.placeGap opened).2.nodes, k) :: opened) cs
        { (l.placeGap opened).2 with nodes := (l.placeGap opened).2.nodes + 1 }).1
      (m := (weaveIn (((l.placeGap opened).2.nodes, k) :: opened) cs
        { (l.placeGap opened).2 with nodes := (l.placeGap opened).2.nodes + 1 }).2) hr₁
    have hstep : r.step (.start k) = .ok r₁ := by
      simp only [Replay.step, hdepth, if_false, h.addGap]
      exact hstart
    simp only [events, Replay.run, hstep]
    change r₁.run (eventsIn cs ++ [.finish]) = _
    rw [Replay.run_append, hrun]
    change (Replay.run _ [.finish]) = _
    simp only [Replay.run, hfinish]
    rfl

/-- Replaying sprouts one after another. -/
lemma run_eventsIn {opened : List OpenNode} : (ss : List Sprout) → {l : Loom} → {r : Replay} →
    Mirrors R opened l r → (wordsIn ss).length ≤ l.words.length → (∀ e ∈ errorsIn ss, R.covers e.2) →
    r.run (eventsIn ss) = .ok (r.woven (weaveIn opened ss l).1 (weaveIn opened ss l).2) ∧
      (weaveIn opened ss l).2.words.length + (wordsIn ss).length = l.words.length
  | [], l, r, h, _, _ => by
    refine ⟨?_, by simp [weaveIn, wordsIn]⟩
    have hb := h.builder.woven_nil
    simp only [eventsIn, Replay.run, weaveIn, Replay.woven, ← h.rest, hb, ← h.words, ← h.tail]
  | s :: ss, l, r, h, hw, he => by
    simp only [wordsIn, List.length_append] at hw
    obtain ⟨hrun, hcount⟩ := run_events s h (by omega) (fun e h => he e (by simp [errorsIn, h]))
    have hs := weaves_weave h.builder.nonempty s h.ready (fun e h => he e (by simp [errorsIn, h]))
    obtain ⟨hrun', hcount'⟩ := run_eventsIn ss (h.woven (s.weave opened l).1 hs.ready) (by omega)
      (fun e h => he e (by simp [errorsIn, h]))
    refine ⟨?_, by simp only [weaveIn, wordsIn, List.length_append]; omega⟩
    simp only [eventsIn, weaveIn]
    rw [Replay.run_append, hrun]
    change Replay.run _ _ = _
    rw [hrun', Replay.woven_woven]

end

/-- Replaying a parse gives the woven tree: no step is refused. -/
lemma tree?_eq_ok {k : Kind} {sprouts : List Sprout} {text : Text} {offset : Nat} {ws : Words}
    (hts : Token.Covers offset text ws.toTokens) (hw : (wordsIn sprouts).length ≤ ws.words.length)
    (he : ∀ e ∈ errorsIn sprouts, Span.covers ⟨offset, text.size⟩ e.2) :
    Replay.tree? (.node k sprouts) text offset ws = .ok (tree k sprouts text offset ws) := by
  let start : Loom := { words := ws.words, tail := ws.tail, position := offset, nodes := 1 }
  let r₁ : Replay :=
    { builder := { Builder.new text offset with opened := [{ id := 0, kind := k, start := offset }], nodes := 1 }
      words := ws.words, tail := ws.tail, depth := 1 }
  have hready : start.Ready ⟨offset, text.size⟩ := ⟨hts.tile, hts.inside, by rw [← hts.chars]; rfl⟩
  have h₁ : Mirrors ⟨offset, text.size⟩ [(0, k)] start r₁ :=
    ⟨⟨rfl, rfl, rfl, rfl, by simp, rfl⟩, rfl, rfl, hts.chars.symm, rfl, hready⟩
  obtain ⟨hrun, -⟩ := run_eventsIn sprouts h₁ hw he
  have hin := weaves_weaveIn (List.cons_ne_nil (0, k) []) sprouts hready he
  obtain ⟨-, hdone⟩ := Weaves.placeRest (List.cons_ne_nil (0, k) []) hin.ready
  obtain ⟨w, hweave⟩ : ∃ w, w = weaveIn [(0, k)] sprouts start := ⟨_, rfl⟩
  rw [← hweave] at hrun hin hdone
  obtain ⟨v, hplace⟩ : ∃ v, v = w.2.placeRest [(0, k)] := ⟨_, rfl⟩
  have hrest := (h₁.woven w.1 hin.ready).addRest 0
  rw [← hplace] at hdone hrest
  have htree : tree k sprouts text offset ws =
      ⟨text, offset, ⟨0, k, .between offset v.2.position, w.1 ++ v.1⟩, v.2.errors.reverse⟩ := by
    rw [hplace, hweave]
    rfl
  have hfinish : (r₁.woven w.1 w.2).step .finish =
      Replay.finishNode { (r₁.woven w.1 w.2).woven v.1 v.2 with depth := 0 } := by
    change ({ r₁.woven w.1 w.2 with depth := 0 }.addRest >>= Replay.finishNode) = _
    rw [hrest]
    rfl
  have hall : Replay.run { builder := .new text offset, words := ws.words, tail := ws.tail }
      (Sprout.node k sprouts).events = (r₁.woven w.1 w.2).step .finish >>= (Replay.run · []) := by
    change Replay.run r₁ (eventsIn sprouts ++ [.finish]) = _
    rw [Replay.run_append, hrun]
    rfl
  unfold Replay.tree?
  rw [hall, hfinish, htree]
  simp [Replay.finishNode, Replay.woven, Builder.woven, r₁, Builder.finish, Builder.new, hdone,
    Builder.tree, Builder.Open.extend, Replay.lift, Replay.after, Replay.run, bind, Except.bind]

end Sprout

end GoFront
