import GoFront.Proofs.Document.Division
import GoFront.Proofs.Parse.Template.Locality
import GoFront.Proofs.Parse.Template.Acceptance
import GoFront.Proofs.Tree.Sketch

/-!
# Dividing a template and parsing its directives agrees with parsing it whole

A template whose tokens fall into two pieces, of which the first closes all it opens, is parsed piece by piece: the
parser of the whole template goes along with the parser of the first piece up to its end, and from there on with the
parser of the second (`Shows.append`). The two differ only in what stands before the first word of a piece, and that
shows neither in the nodes below the root nor in the errors.

A directive that runs to its closing marker closes all it opens (`closes_extent`), and host text opens nothing. So the
nodes below the root of a whole template and its errors are those of its directives in order: `regions_agree`.
-/

namespace GoFront

/-! ## The words of two pieces -/

namespace Words

variable {isTrivia : Kind → Bool}

/-- The words of tokens in two pieces. The second piece starts with what was left behind the last word of the
first. -/
lemma group_append (fresh : Bool) (gap us vs : List Token) : ∃ fresh',
    (group isTrivia fresh gap (us ++ vs)).words = (group isTrivia fresh gap us).words ++
        (group isTrivia fresh' (group isTrivia fresh gap us).tail.reverse vs).words ∧
      (group isTrivia fresh gap (us ++ vs)).tail =
        (group isTrivia fresh' (group isTrivia fresh gap us).tail.reverse vs).tail := by
  induction us generalizing fresh gap with
  | nil => exact ⟨fresh, by simp [group]⟩
  | cons u us ih =>
    by_cases h : isTrivia u.kind = true
    · simpa [group, h] using ih (fresh || breaksLine u) (u :: gap)
    · obtain ⟨fresh', hwords, htail⟩ := ih u.text.hasNewline []
      exact ⟨fresh', by simp [group, h, hwords], by simp [group, h, htail]⟩

/-- What came before some tokens is put in front of their first word and changes nothing else. -/
lemma group_behind {fresh : Bool} {gap vs : List Token} {w : Word} {ws : List Word}
    (h : (group isTrivia fresh gap vs).words = w :: ws) (fresh' : Bool) (before : List Token) : ∃ b,
    (group isTrivia fresh' (gap ++ before) vs).words = ⟨before.reverse ++ w.gap, w.token, b⟩ :: ws ∧
      (group isTrivia fresh' (gap ++ before) vs).tail = (group isTrivia fresh gap vs).tail := by
  induction vs generalizing fresh fresh' gap with
  | nil => simp [group] at h
  | cons v vs ih =>
    by_cases hv : isTrivia v.kind = true
    · simp only [group, hv, if_true] at h ⊢
      exact ih h (fresh' || breaksLine v)
    · simp only [group, hv, Bool.false_eq_true, if_false, List.cons.injEq] at h ⊢
      obtain ⟨rfl, rfl⟩ := h
      exact ⟨fresh', by simp⟩

/-- The words of tokens in two pieces are those of the pieces, but for what stands before the second. -/
lemma ofTokens_append (us : List Token) {vs : List Token} {w : Word} {ws : List Word}
    (h : (ofTokens isTrivia vs).words = w :: ws) : ∃ b,
    (ofTokens isTrivia (us ++ vs)).words =
        (ofTokens isTrivia us).words ++ ⟨(ofTokens isTrivia us).tail ++ w.gap, w.token, b⟩ :: ws ∧
      (ofTokens isTrivia (us ++ vs)).tail = (ofTokens isTrivia vs).tail := by
  obtain ⟨fresh, hwords, htail⟩ := @group_append isTrivia true [] us vs
  obtain ⟨b, hbehind, htail'⟩ := group_behind h fresh (group isTrivia true [] us).tail.reverse
  rw [List.nil_append, List.reverse_reverse] at hbehind
  rw [List.nil_append] at htail'
  exact ⟨b, by rw [ofTokens, hwords, hbehind]; rfl, htail.trans htail'⟩

end Words

/-! ## Rounds of a document -/

namespace Template

open GoFront.Parser

variable {d : Delimiters} {host : HostLanguage} {more : List Word} {base : List Sprout}

/-- One round of a document: host text or a directive, unless the template ends. -/
def documentRound (d : Delimiters) : Parser Bool := do
  if ← isAt .endOfInput then pure false
  else
    topLevel (nested d nestingLimit) d
    pure true

/-- A round of a document does not look past a piece. -/
lemma local_documentRound {m : Bool} {ks : List Kind} (hsees : Sees more ks 0) (h : Within more false 0 ks) :
    Local more base m ks (documentRound d) fun v m' ks' =>
      (v = true → Within more false 0 ks') ∧ (v = false → m' = m ∧ ks' = ks ∧ ahead ks 0 = .endOfInput) := by
  refine .ite (.isAt hsees _) (fun hend => .pure ⟨by simp, fun _ => ⟨rfl, rfl, hend⟩⟩) fun hend => ?_
  refine (local_topLevel (local_nested more d nestingLimit) rfl h hend).bind fun _ _ _ hstands => .pure ?_
  exact ⟨fun _ => hstands.2, by simp⟩

/-- At the end of the input there is no further round. -/
lemma documentRound_of_nil {s : Parser.State} (h : s.rest = []) : (documentRound d).run s = (false, s.looked) := by
  have hnth : s.nth 0 = .endOfInput := by
    rw [State.nth, h]
    rfl
  have hisAt : (isAt .endOfInput).run s = (true, s.looked) := by
    change (s.nth 0 == .endOfInput, s.looked) = _
    rw [hnth]
    rfl
  rw [documentRound, run_bind, hisAt]
  rfl

lemma sees_of_ne_nil {s : Parser.State} (h : s.rest ≠ []) : Sees more s.kinds 0 := by
  intro _
  rw [State.kinds, List.length_map]
  exact List.length_pos_iff.2 h

/-- Where a piece closes all it opens and more follows, the parser of the whole goes along with the parser of the
piece to its end. -/
lemma loops_front {s s' t u : Parser.State} (hmore : more ≠ []) (hs : Loops (documentRound d) s s')
    (hcalm : s'.panic = none) (hwithin : Within more false 0 s.kinds) (hst : Shadows more base s t)
    (ht : Loops (documentRound d) t u) : ∃ v t', v.rest = [] ∧ s' = v.looked ∧ Shadows more base v t' ∧
      Loops (documentRound d) t' u := by
  induction hs generalizing t with
  | @last s h =>
    have hnil : s.rest = [] := by
      by_contra hne
      obtain ⟨-, -, hQ⟩ := local_documentRound (sees_of_ne_nil hne) hwithin s t hst rfl rfl hcalm
      obtain ⟨i, -, hcloses⟩ := hwithin hmore
      have hend := (hQ.2 h).2.2
      have hkinds : s.kinds ≠ [] := fun h => hne (List.map_eq_nil_iff.1 h)
      generalize s.kinds = ks at hcloses hend hkinds
      cases hcloses with
      | nil => exact hkinds rfl
      | text | left => exact nomatch hend
    exact ⟨s, t, hnil, by rw [documentRound_of_nil hnil], hst, ht⟩
  | @next s s' h rest ih =>
    have hne : s.rest ≠ [] := by
      intro hnil
      rw [documentRound_of_nil hnil] at h
      exact Bool.noConfusion h
    obtain ⟨hanswer, hst', hQ⟩ :=
      local_documentRound (sees_of_ne_nil hne) hwithin s t hst rfl rfl (rest.reaches.calm hcalm)
    exact ih hcalm (hQ.1 h) hst' (ht.behind (hanswer.trans h))

/-- Where nothing follows a piece, the parser of the whole goes along with the parser of the piece. -/
lemma loops_back {s s' t u : Parser.State} (hs : Loops (documentRound d) s s') (hcalm : s'.panic = none)
    (hst : Shadows [] base s t) (ht : Loops (documentRound d) t u) : Shadows [] base s' u := by
  have hsees : ∀ ks, Sees [] ks 0 := fun ks h => absurd rfl h
  have hwithin : ∀ ks, Within [] false 0 ks := fun ks h => absurd rfl h
  induction hs generalizing t with
  | @last s h =>
    obtain ⟨hanswer, hst', -⟩ := local_documentRound (hsees _) (hwithin _) s t hst rfl rfl hcalm
    rw [ht.eq_of_last (hanswer.trans h)]
    exact hst'
  | @next s s' h rest ih =>
    obtain ⟨hanswer, hst', -⟩ :=
      local_documentRound (hsees _) (hwithin _) s t hst rfl rfl (rest.reaches.calm hcalm)
    exact ih hcalm hst' (ht.behind (hanswer.trans h))

/-! ## Two pieces -/

/-- Where the parser of a template starts. -/
abbrev startOn (offset : Nat) (text : Text) (ts : List Token) : Parser.State := .start isTrivia text offset ts

/-- The parser of a template goes through its rounds, no assertion fails on the way, and the errors lie in the
template. -/
lemma loops_document {offset : Nat} {text : Text} {ts : List Token} (h : Token.Covers offset text ts) :
    Loops (documentRound d) (startOn offset text ts) ((document d).run (startOn offset text ts)).2 ∧
      ((document d).run (startOn offset text ts)).2.Sound := by
  have hlimit : 3 + 40 * nestingLimit + 35 ≤ lookLimit := by decide
  have hcovers : Token.Covers offset text (Words.ofTokens isTrivia ts).toTokens := by
    rw [Words.toTokens_ofTokens]
    exact h
  obtain ⟨hsound, -⟩ := fits_document (R := ⟨offset, text.size⟩) (d := d) (startOn offset text ts) (sound_start hcovers)
    rfl rfl (Nat.zero_le _) (by simp [lookLimit]) hlimit
  exact ⟨loops_repeatWhile hsound.calm, hsound⟩

/-- A run on a whole template grows what a run on its first piece of `n` words and one on its second piece grow. The
first piece is read to its end, and no node starts behind its last word. -/
structure Joins (n : Nat) (first second whole : Parser.State) : Prop where
  done : first.rest = []
  spent : Sprout.spendIn first.grown.reverse n = some 0
  rest : whole.rest.map Word.token = second.rest.map Word.token
  grown : Sprout.bareIn whole.grown.reverse = Sprout.bareIn (first.grown.reverse ++ second.grown.reverse)

/-- The parser of the whole starts on the words of the first piece. -/
lemma shadows_first {offset : Nat} {x text : Text} {us ts : List Token} (hne : more ≠ [])
    (hwords : (startOn offset text ts).rest = (startOn offset x us).rest ++ more) :
    Shadows more [] (startOn offset x us) (startOn offset text ts) where
  rest := ⟨(startOn offset x us).rest, hwords, rfl, rfl, fun _ => rfl⟩
  previous h := nomatch h
  stop h := absurd h hne
  grown := rfl
  spent _ := by
    change Sprout.spendIn [] (0 + (startOn offset x us).rest.length) = some (startOn offset x us).rest.length
    rw [Nat.zero_add]
    rfl

/-- Behind the first piece, the parser of the whole stands on the words of the second. What stands before the first of
them may be more. -/
lemma shadows_second {offset : Nat} {y : Text} {vs gap : List Token} {b : Bool} {w : Word} {ws : List Word}
    {t : Parser.State} (hvs : (startOn offset y vs).rest = w :: ws) (hrest : t.rest = ⟨gap, w.token, b⟩ :: ws)
    (hstop : t.span.stop = offset + y.size) : Shadows [] (t.grown.map Sprout.bare) (startOn offset y vs) t where
  rest := ⟨⟨gap, w.token, b⟩ :: ws, by rw [hrest, List.append_nil], by rw [hvs]; rfl, by rw [hvs]; rfl, fun h => nomatch h⟩
  previous h := nomatch h
  stop _ := hstop
  grown := rfl
  spent h := absurd rfl h

/-- A run that reads its input to the end grows all its words. -/
lemma grownWords_of_loops {offset : Nat} {x : Text} {us : List Token} {s : Parser.State}
    (hs : Loops (documentRound d) (startOn offset x us) s) (hnil : s.rest = []) :
    s.grownWords = (startOn offset x us).rest := by
  obtain ⟨taken, htaken, hgrown, -⟩ := hs.reaches.moved
  rw [hnil, List.append_nil] at htaken
  rw [htaken]
  exact hgrown

/-- The parser of a template goes through its first piece and then through its second. -/
lemma joins_document {offset : Nat} {x y : Text} {us vs : List Token} (hx : Token.Covers offset x us)
    (hy : Token.Covers (offset + x.size) y vs) (hcloses : Closes false 0 (significantKinds us))
    (hvs : (Words.ofTokens isTrivia vs).words ≠ []) :
    Joins (Words.ofTokens isTrivia us).words.length ((document d).run (startOn offset x us)).2
      ((document d).run (startOn (offset + x.size) y vs)).2
      ((document d).run (startOn offset (x ++ y) (us ++ vs))).2 := by
  obtain ⟨w, ws, hvs⟩ := List.exists_cons_of_ne_nil hvs
  let s := startOn offset x us
  let t := startOn offset (x ++ y) (us ++ vs)
  obtain ⟨hs, hsound⟩ := loops_document (d := d) hx
  obtain ⟨hr, hsound'⟩ := loops_document (d := d) hy
  obtain ⟨ht, -⟩ := loops_document (d := d) (hx.append hy)
  obtain ⟨b, hwords, -⟩ := Words.ofTokens_append us hvs
  have hkinds : s.kinds = significantKinds us := kinds_start x offset us
  have hne : (⟨(Words.ofTokens isTrivia us).tail ++ w.gap, w.token, b⟩ :: ws : List Word) ≠ [] := List.cons_ne_nil _ _
  have hwithin : Within (⟨(Words.ofTokens isTrivia us).tail ++ w.gap, w.token, b⟩ :: ws) false 0 s.kinds :=
    fun _ => ⟨0, Nat.le_refl 0, hkinds ▸ hcloses⟩
  have hst : Shadows _ [] s t := shadows_first hne hwords
  obtain ⟨v, t', hnil, hlooked, hst', ht'⟩ := loops_front hne hs hsound.calm hwithin hst ht
  obtain ⟨front, hrest, htokens, -⟩ := hst'.rest
  rw [hnil, List.map_nil, List.map_eq_nil_iff] at htokens
  rw [htokens, List.nil_append] at hrest
  have hstop : t'.span.stop = offset + x.size + y.size := by
    have hspan : t'.span = t.span := ht'.reaches.span.symm.trans ht.reaches.span
    rw [hspan]
    simp [t, Span.stop, Nat.add_assoc]
  have hru := loops_back hr hsound'.calm (shadows_second hvs hrest hstop) ht'
  have hdone : ((document d).run (startOn offset x us)).2.rest = [] := by
    rw [hlooked]
    exact hnil
  have hall : v.grownWords = s.rest := by
    rw [← grownWords_of_loops hs hdone, hlooked]
    rfl
  exact
    { done := hdone
      spent := by
        have hspent := hst'.spent hne
        rw [hnil, List.length_nil, Nat.add_zero, hall] at hspent
        rw [hlooked]
        exact hspent
      rest := by rw [hru.tokens, List.map_nil, List.append_nil]
      grown := by
        have hgrown := hru.grown
        rw [hst'.grown, List.append_nil] at hgrown
        rw [hlooked]
        simp only [Sprout.bareIn_eq_map, List.map_append, List.map_reverse, hgrown, List.reverse_append]
        rfl }

end Template

namespace Sprout

variable {isTrivia : Kind → Bool} {k : Kind} {ss ts : List Sprout} {x y : Text} {offset : Nat} {us vs : List Token}

/-- The loom on which the words of some tokens are woven. -/
abbrev loomOf (isTrivia : Kind → Bool) (offset : Nat) (ts : List Token) : Loom :=
  { words := (Words.ofTokens isTrivia ts).words, tail := (Words.ofTokens isTrivia ts).tail, position := offset,
    nodes := 1 }

/-- The nodes below the root of a woven tree. -/
lemma branches_tree : Element.branches (tree k ss x offset (Words.ofTokens isTrivia us)).root.children =
    Element.branches (weaveIn [(0, k)] ss (loomOf isTrivia offset us)).1 := by
  change Element.branches (_ ++ (Loom.placeRest _ _).1) = _
  rw [Element.branches_append, Loom.placeRest, Loom.branches_place, List.append_nil]

lemma ready_loomOf (h : Token.Covers offset x us) : (loomOf isTrivia offset us).Ready ⟨offset, x.size⟩ := by
  have hpending : (loomOf isTrivia offset us).pending = us := Words.toTokens_ofTokens isTrivia us
  refine ⟨?_, ?_, ?_⟩
  · rw [hpending]
    exact h.tile
  · rw [hpending]
    exact h.inside
  · rw [hpending, h.chars]
    rfl

/-- The first word of a loom stands behind its gap. -/
lemma lastStop_gap {R : Span} {l : Loom} (h : l.Ready R) {w : Word} {ws : List Word} (hw : l.words = w :: ws) :
    Token.lastStop l.position w.gap = w.token.start := by
  have htile := h.tile
  rw [Loom.pending, hw, Words.toTokens, List.flatMap_cons, List.append_assoc, List.append_assoc] at htile
  exact htile.lastStop

/-- Weaving what grew in two pieces of a text gives the nodes of the two pieces, if the words of the first are spent
before the second starts. -/
lemma branches_tree_append (hx : Token.Covers offset x us) (hy : Token.Covers (offset + x.size) y vs)
    (hspent : spendIn ss (Words.ofTokens isTrivia us).words.length = some 0)
    (hvs : (Words.ofTokens isTrivia vs).words ≠ []) (he : ∀ e ∈ errorsIn ss, Span.covers ⟨offset, x.size⟩ e.2) :
    Element.branches (tree k (ss ++ ts) (x ++ y) offset (Words.ofTokens isTrivia (us ++ vs))).root.children =
      Element.branches (tree k ss x offset (Words.ofTokens isTrivia us)).root.children ++
        Element.branches (tree k ts y (offset + x.size) (Words.ofTokens isTrivia vs)).root.children := by
  obtain ⟨w, ws, hw⟩ := List.exists_cons_of_ne_nil hvs
  obtain ⟨b, hwords, htail⟩ := Words.ofTokens_append us hw
  generalize hfirst : (⟨(Words.ofTokens isTrivia us).tail ++ w.gap, w.token, b⟩ : Word) = v at hwords
  have hne : v :: ws ≠ [] := List.cons_ne_nil v ws
  -- on the whole loom the first piece is woven as on its own
  have hstart : Loom.Along (v :: ws) (Words.ofTokens isTrivia vs).tail (loomOf isTrivia offset us)
      (loomOf isTrivia offset (us ++ vs)) :=
    ⟨(congrArg (List.map Word.laid) hwords).trans List.map_append, rfl, fun h => absurd h hne, fun _ => htail⟩
  obtain ⟨hsketch, halong⟩ := along_weaveIn [(0, k)] [(0, k)] ss (fun _ => ⟨0, hspent⟩) hstart
  have hin : ∀ e ∈ errorsIn ss, Span.covers ⟨offset, (x ++ y).size⟩ e.2 := by
    intro e h
    obtain ⟨hlow, hhigh⟩ := Span.covers_iff.1 (he e h)
    refine Span.covers_iff.2 ⟨hlow, Nat.le_trans hhigh ?_⟩
    simp [Span.stop, Text.size_append]
  have hready := (weaves_weaveIn (List.cons_ne_nil (0, k) []) ss
    (show (loomOf isTrivia offset (us ++ vs)).Ready ⟨offset, (x ++ y).size⟩ from ready_loomOf (hx.append hy)) hin).ready
  have hdone : (weaveIn [(0, k)] ss (loomOf isTrivia offset us)).2.words = [] :=
    List.length_eq_zero_iff.1 (length_weaveIn [(0, k)] ss (l := loomOf isTrivia offset us) hspent)
  rw [branches_tree, branches_tree, branches_tree, weaveIn_append, Element.branches_append,
    Element.branches_congr hsketch]
  -- behind it, the looms of the whole and of the second piece stand in front of the same word
  have hlaid := halong.words
  rw [hdone, List.map_nil, List.nil_append, List.map_cons] at hlaid
  obtain ⟨v', ws', hwords', hv, hws⟩ := List.map_eq_cons_iff.1 hlaid
  have htoken : v'.token = w.token := by
    rw [show v'.token = v.token from congrArg Prod.snd hv, ← hfirst]
  have hnears : Loom.Nears [] [] (loomOf isTrivia (offset + x.size) vs)
      (weaveIn [(0, k)] ss (loomOf isTrivia offset (us ++ vs))).2 :=
    { words := ⟨w, ws, v', ws', hw, hwords', htoken, by rw [hws, List.map_nil, List.append_nil],
        lastStop_gap (ready_loomOf hy) hw, by rw [lastStop_gap hready hwords', htoken]⟩
      tail := fun _ => halong.last hne
      last := fun h => absurd rfl h }
  rw [(nears_weaveIn [(0, k)] [(0, k)] ts (fun h => absurd rfl h) hnears).1]

end Sprout

namespace Template

open GoFront.Parser

variable {d : Delimiters} {host : HostLanguage}

/-- What the parser of a template makes of some tokens. -/
def treeOf (d : Delimiters) (offset : Nat) (text : Text) (ts : List Token) : SyntaxTree :=
  (document d).tree .template isTrivia text offset ts

/-- A tree shows some nodes below its root, and some errors. -/
structure Shows (t : SyntaxTree) (nodes : List Sketch) (errors : List (Problem × Span)) : Prop where
  nodes : t.root.nodes.map Node.sketch = nodes
  errors : t.errors.map SyntaxError.report = errors

lemma isLexicalError_of_isTrivia (k : Kind) (h : isTrivia k = true) : k.isLexicalError = false := by
  rw [eq_of_beq h]
  rfl

/-- A template in two pieces, of which the first closes all it opens and the second is not blank, shows what the first
piece shows, followed by what the second shows. -/
lemma Shows.append {offset : Nat} {x y : Text} {us vs : List Token} (hx : Token.Covers offset x us)
    (hy : Token.Covers (offset + x.size) y vs) (hcloses : Closes false 0 (significantKinds us))
    (hwords : (Words.ofTokens isTrivia vs).words ≠ []) {ns ns' : List Sketch} {es es' : List (Problem × Span)}
    (h : Shows (treeOf d offset x us) ns es) (h' : Shows (treeOf d (offset + x.size) y vs) ns' es') :
    Shows (treeOf d offset (x ++ y) (us ++ vs)) (ns ++ ns') (es ++ es') := by
  have hjoins := joins_document (d := d) hx hy hcloses hwords
  have hsound := (loops_document (d := d) hx).2
  have herrors : ∀ e ∈ Sprout.errorsIn ((document d).run (startOn offset x us)).2.grown.reverse,
      Span.covers ⟨offset, x.size⟩ e.2 := by
    intro e he
    obtain ⟨z, hz, hez⟩ := Sprout.mem_errorsIn.1 he
    have hspan : ((document d).run (startOn offset x us)).2.span = ⟨offset, x.size⟩ := ((document d).forward _).span
    rw [← hspan]
    exact (hsound.proper z (List.mem_reverse.1 hz) e hez).inside
  have hweave : ∀ opened l,
      Sprout.weaveIn opened ((document d).run (startOn offset (x ++ y) (us ++ vs))).2.grown.reverse l =
      Sprout.weaveIn opened (((document d).run (startOn offset x us)).2.grown.reverse ++
        ((document d).run (startOn (offset + x.size) y vs)).2.grown.reverse) l := by
    intro opened l
    rw [← Sprout.weaveIn_bareIn, hjoins.grown, Sprout.weaveIn_bareIn]
  constructor
  · rw [← h.nodes, ← h'.nodes, Node.sketch_nodes, Node.sketch_nodes, Node.sketch_nodes, treeOf, treeOf, treeOf,
      Parser.tree, Parser.tree, Parser.tree, ← Sprout.branches_tree_append hx hy hjoins.spent hwords herrors,
      Sprout.branches_tree, Sprout.branches_tree, hweave]
  · rw [← h.errors, ← h'.errors, treeOf, treeOf, treeOf, Parser.reports_tree isLexicalError_of_isTrivia rfl,
      Parser.reports_tree isLexicalError_of_isTrivia rfl, Parser.reports_tree isLexicalError_of_isTrivia rfl,
      hjoins.done, hjoins.rest, ← Sprout.reportsIn_bareIn, hjoins.grown, Sprout.reportsIn_bareIn, Sprout.reportsIn_append]
    simp

/-! ## Host text -/

/-- Host text is taken as it is. -/
lemma documentRound_of_text {s : Parser.State} {w : Word} {ws : List Word} (h : s.rest = w :: ws)
    (hw : w.kind = .text) : (documentRound d).run s = (true, (s.glance 3).advance) := by
  have hisAt : ∀ k, k ≠ .text → ∀ i, (isAt k).run (s.glance i) = (false, s.glance (i + 1)) := by
    intro k hk i
    have hkind : (s.glance i).nth 0 = .text := by
      rw [State.nth, Asks.rest_glance, h, ← hw]
      rfl
    change ((s.glance i).nth 0 == k, (s.glance i).looked) = _
    rw [hkind, State.looked_glance, beq_false_of_ne hk.symm]
  have hstart := hisAt .endOfInput (by decide) 0
  have hlist : (isAtListEnd).run (s.glance 1) = (false, s.glance 2) := by
    rw [isAtListEnd, andM, run_bind, hisAt .leftDelimiter (by decide) 1]
    rfl
  rw [State.glance_zero] at hstart
  rw [documentRound, run_bind, hstart]
  change ((topLevel (nested d nestingLimit) d >>= fun _ => pure true).run (s.glance 1)) = _
  rw [run_bind, topLevel, run_bind, hlist]
  change (pure true : Parser Bool).run ((item (nested d nestingLimit) d false).run (s.glance 2)).2 = _
  rw [item, run_bind, hisAt .leftDelimiter (by decide) 2]
  rfl

/-- Host text grows nothing but words. -/
lemma loops_of_text {s u : Parser.State} (h : Loops (documentRound d) s u) (hrest : ∀ w ∈ s.rest, w.kind = .text)
    (hgrown : ∀ x ∈ s.grown, ∃ w : Word, w.kind = .text ∧ x = .word w) :
    u.rest = [] ∧ ∀ x ∈ u.grown, ∃ w : Word, w.kind = .text ∧ x = .word w := by
  induction h with
  | @last s h =>
    rcases hs : s.rest with _ | ⟨w, ws⟩
    · rw [documentRound_of_nil hs]
      exact ⟨hs, hgrown⟩
    · rw [documentRound_of_text hs (hrest w (by simp [hs]))] at h
      exact Bool.noConfusion h
  | @next s u h rest ih =>
    rcases hs : s.rest with _ | ⟨w, ws⟩
    · rw [documentRound_of_nil hs] at h
      exact Bool.noConfusion h
    · have hw := hrest w (by simp [hs])
      rw [documentRound_of_text hs hw] at ih
      obtain ⟨hrest', -, -, hgrown', -⟩ := State.advance_of_cons (s := s.glance 3) (by rw [Asks.rest_glance, hs])
      refine ih (fun v hv => hrest v ?_) ?_
      · rw [hrest'] at hv
        exact hs ▸ List.mem_cons_of_mem w hv
      · obtain ⟨p, hp, -⟩ := s.glance_eq 3
        rw [hgrown', hp]
        exact List.forall_mem_cons.2 ⟨⟨w, hw, rfl⟩, hgrown⟩

/-- Words are woven into tokens, not into nodes. -/
lemma branches_weaveIn_words (opened : List OpenNode) {ss : List Sprout}
    (h : ∀ x ∈ ss, ∃ w : Word, w.kind = .text ∧ x = .word w) (l : Loom) :
    Element.branches (Sprout.weaveIn opened ss l).1 = [] := by
  induction ss generalizing l with
  | nil => rfl
  | cons x ss ih =>
    obtain ⟨⟨w, -, rfl⟩, hss⟩ := List.forall_mem_cons.1 h
    have hword : Element.branches (l.placeWord opened).1 = [] := by
      rw [Loom.placeWord]
      split <;> exact Loom.branches_place ..
    change Element.branches ((l.placeWord opened).1 ++ _) = []
    rw [Element.branches_append, hword, List.nil_append]
    exact ih hss _

/-- Words of host text bring no errors. -/
lemma reportsIn_words {ss : List Sprout} (h : ∀ x ∈ ss, ∃ w : Word, w.kind = .text ∧ x = .word w) :
    Sprout.reportsIn ss = [] := by
  induction ss with
  | nil => rfl
  | cons x ss ih =>
    obtain ⟨⟨w, hw, rfl⟩, hss⟩ := List.forall_mem_cons.1 h
    have hplain : w.token.reports = [] := by
      rw [Token.reports_eq_nil, show w.token.kind = .text from hw]
      rfl
    rw [Sprout.reportsIn, ih hss, List.append_nil]
    exact hplain

/-- Host text shows neither nodes nor errors. -/
lemma shows_text {offset : Nat} {x : Text} {us : List Token} (hx : Token.Covers offset x us)
    (htext : ∀ u ∈ us, isText u = true) : Shows (treeOf d offset x us) [] [] := by
  have hrest : ∀ w ∈ (startOn offset x us).rest, w.kind = .text := by
    intro w hw
    have hmem : w.token ∈ (Words.ofTokens isTrivia us).words.map Word.token := List.mem_map_of_mem hw
    rw [Words.tokens_ofTokens] at hmem
    simpa [isText] using htext _ (List.mem_filter.1 hmem).1
  obtain ⟨hdone, hgrown⟩ := loops_of_text (loops_document (d := d) hx).1 hrest (by simp)
  have hwords := fun x hx => hgrown x (List.mem_reverse.1 hx)
  constructor
  · rw [Node.sketch_nodes, treeOf, Parser.tree, Sprout.branches_tree]
    exact branches_weaveIn_words _ hwords _
  · rw [treeOf, Parser.reports_tree isLexicalError_of_isTrivia rfl, hdone, reportsIn_words hwords]
    rfl

lemma closes_text {us : List Token} (htext : ∀ u ∈ us, isText u = true) : Closes false 0 (significantKinds us) := by
  induction us with
  | nil => exact .nil
  | cons u us ih =>
    obtain ⟨hu, hus⟩ := List.forall_mem_cons.1 htext
    have hkind : u.kind = .text := by simpa [isText] using hu
    rw [significantKinds_cons, hkind, if_neg (by decide)]
    exact .text (ih hus)

/-! ## Directives -/

lemma significantKinds_append (ts us : List Token) :
    significantKinds (ts ++ us) = significantKinds ts ++ significantKinds us := by
  simp [significantKinds]

/-- The number of open blocks behind an opening marker is read off the first word behind it. -/
lemma Closes.of_depthAfter {ts us : List Token} {depth : Nat}
    (h : Closes true (depthAfter depth (ts ++ us)) (significantKinds ts)) :
    Closes false depth (.leftDelimiter :: significantKinds ts) := by
  have hkeyword : actionKeyword? (ts ++ us) = (significantKinds (ts ++ us)).head? := by
    rw [significantKinds, List.head?_filter]
    rfl
  rw [depthAfter, hkeyword, significantKinds_append] at h
  refine .left ?_
  generalize significantKinds ts = ks at h ⊢
  cases ks with
  | nil => cases h
  | cons k ks => exact h

/-- A directive that runs to its closing marker closes all it opens. -/
lemma closes_extent {mode : Bool} {ds : List Drawn} (h : Alternates mode ds) {depth : Nat}
    (hfault : (extent d depth mode (ds.map Drawn.token)).fault = none) :
    Closes mode depth (significantKinds (extent d depth mode (ds.map Drawn.token)).taken) := by
  induction ds generalizing mode depth with
  | nil => simp [extent] at hfault
  | cons t ds ih =>
    obtain ⟨⟨kind, start, text⟩, after⟩ := t
    obtain ⟨hturn, hrest⟩ := h
    rw [List.map_cons, extent] at hfault ⊢
    dsimp only at hturn hrest hfault ⊢
    cases hturn with
    | host hk =>
      rcases hk with rfl | rfl
      · exact ih hrest hfault
      · exact .text (ih hrest hfault)
    | opens =>
      have hcloses := ih hrest hfault
      have happend := taken_append_rest_extent d (depthAfter depth (ds.map Drawn.token)) true (ds.map Drawn.token)
      nth_rewrite 1 [← happend] at hcloses
      exact hcloses.of_depthAfter
    | closes =>
      rw [if_neg (by decide), if_pos rfl] at hfault ⊢
      split at hfault
      · next hzero =>
        rw [if_pos hzero, hzero]
        rcases ds.map Drawn.token with _ | ⟨next, ts⟩
        · exact .right .nil
        · rw [closeAt]
          split
          · next hblank =>
            obtain ⟨-, hblank⟩ := Bool.and_eq_true_iff.1 hblank
            rw [significantKinds_cons, if_neg (by simp), significantKinds_cons, if_pos (of_decide_eq_true hblank)]
            exact .right .nil
          · exact .right .nil
      · next hzero =>
        rw [if_neg hzero]
        exact .right (ih hrest hfault)
    | inner hk =>
      have hleft : kind ≠ .leftDelimiter := fun h => hk (h ▸ by decide)
      have hright : kind ≠ .rightDelimiter := fun h => hk (h ▸ by decide)
      rw [if_neg hleft, if_neg hright] at hfault ⊢
      have hcloses := ih hrest hfault
      change Closes true depth (significantKinds (⟨kind, start, text⟩ :: _))
      rw [significantKinds_cons]
      split
      · exact hcloses
      · exact .inner hk hcloses

/-! ## Pieces of a template -/

/-- A template that is not empty has a word that is no blank. -/
lemma words_ne_nil {offset : Nat} {text : Text} {ts : List Token} (h : tokens d host offset text = ts) (hne : ts ≠ []) :
    (Words.ofTokens isTrivia ts).words ≠ [] := by
  obtain ⟨t, ts, rfl⟩ := List.exists_cons_of_ne_nil hne
  have hword : ∃ u ∈ t :: ts, isTrivia u.kind = false := by
    cases ht : isText t with
    | true =>
      have hkind : t.kind = .text := by simpa [isText] using ht
      exact ⟨t, List.mem_cons_self, by rw [hkind]; rfl⟩
    | false =>
      obtain ⟨gap, l, more, heq, -, -, hl⟩ :=
        leadsIn_of_fresh h (⟨by simp [IsOpen, markers], by simp⟩ : Fresh d [] (t :: ts)) ht
      exact ⟨l, by simp [heq], by rw [hl]; rfl⟩
  obtain ⟨u, hu, hplain⟩ := hword
  intro hnil
  have htokens : (Words.ofTokens isTrivia (t :: ts)).words.map Word.token = _ := Words.tokens_ofTokens (t :: ts)
  rw [hnil, List.map_nil, eq_comm, List.filter_eq_nil_iff] at htokens
  exact htokens u hu (by rw [hplain]; rfl)

/-- A template in two pieces, of which the first closes all it opens if the second is there, shows what the pieces
show. -/
lemma Shows.pieces {offset : Nat} {text : Text} {us vs : List Token} (h : tokens d host offset text = us ++ vs)
    (hcloses : vs ≠ [] → Closes false 0 (significantKinds us))
    (hvs : tokens d host (offset + (charsOf us).size) (charsOf vs) = vs)
    {ns ns' : List Sketch} {es es' : List (Problem × Span)} (hfirst : Shows (treeOf d offset (charsOf us) us) ns es)
    (hsecond : Shows (treeOf d (offset + (charsOf us).size) (charsOf vs) vs) ns' es') :
    Shows (treeOf d offset text (us ++ vs)) (ns ++ ns') (es ++ es') := by
  have hcovers : Token.Covers offset text (us ++ vs) := h ▸ covers_tokens d host offset text
  have htext : text = charsOf us ++ charsOf vs := by
    rw [← charsOf_append]
    exact hcovers.chars.symm
  have hy : Token.Covers (offset + (charsOf us).size) (charsOf vs) vs := by
    have := covers_tokens d host (offset + (charsOf us).size) (charsOf vs)
    rwa [hvs] at this
  rcases eq_or_ne vs [] with rfl | hne
  · have hnone := shows_text (d := d) hy (by simp)
    obtain rfl : ns' = [] := hsecond.nodes.symm.trans hnone.nodes
    obtain rfl : es' = [] := hsecond.errors.symm.trans hnone.errors
    rw [htext]
    simpa [charsOf] using hfirst
  · rw [htext]
    exact Shows.append ⟨hcovers.tile.left, rfl⟩ hy (hcloses hne) (words_ne_nil hvs hne) hfirst hsecond

/-- What the directives among some regions show. -/
abbrev ShowsRegions (t : SyntaxTree) (rs : List Region) : Prop :=
  Shows t ((rs.filterMap Region.tree?).flatMap fun u => u.root.nodes.map Node.sketch)
    ((rs.filterMap Region.tree?).flatMap fun u => u.errors.map SyntaxError.report)

variable {c : TemplateConfig} {offset : Nat} {text : Text} {ts us : List Token} {rs : List Region}

/-- Markup at the front of a template shows nothing. -/
lemma shows_hostRegion (htext : ∀ u ∈ us, isText u = true) (h : tokens c.delimiters c.host offset text = us ++ ts)
    (hrest : ShowsRegions (treeOf c.delimiters (offset + (charsOf us).size) (charsOf ts) ts) rs) :
    ShowsRegions (treeOf c.delimiters offset text (us ++ ts)) (hostRegion us :: rs) := by
  have hcovers := covers_tokens c.delimiters c.host offset text
  rw [h] at hcovers
  exact Shows.pieces h (fun _ => closes_text htext) (tokens_dropText htext h)
    (shows_text ⟨hcovers.tile.left, rfl⟩ htext) hrest

/-- A directive at the front of a template shows what its tree shows. -/
lemma shows_directiveRegion (hright : c.delimiters.right ≠ ['.']) {t : Token}
    (h : tokens c.delimiters c.host offset text = t :: ts) {e : Extent} (he : extent c.delimiters 0 false (t :: ts) = e)
    (hrest : ShowsRegions (treeOf c.delimiters (offset + (charsOf e.taken).size) (charsOf e.rest) e.rest) rs) :
    ShowsRegions (treeOf c.delimiters offset text (t :: ts)) (directiveRegion c e.taken e.fault :: rs) := by
  obtain ⟨hfirst, hsecond⟩ := tokens_extent hright h
  have hsplit := taken_append_rest_extent c.delimiters 0 false (t :: ts)
  have hlt := length_rest_extent_lt c.delimiters 0 false t ts
  have hfault : (extent c.delimiters 0 false (t :: ts)).fault = none →
      Closes false 0 (significantKinds (extent c.delimiters 0 false (t :: ts)).taken) := by
    rw [← h]
    exact closes_extent (alternates_scan c.delimiters c.host {} offset text)
  have hend : (extent c.delimiters 0 false (t :: ts)).fault ≠ none →
      (extent c.delimiters 0 false (t :: ts)).rest = [] := rest_extent
  rw [he] at hfirst hsecond hsplit hlt hfault hend
  have hne : e.taken ≠ [] := by
    intro hnil
    rw [hnil, List.nil_append] at hsplit
    exact absurd (congrArg List.length hsplit) (Nat.ne_of_lt hlt)
  have hstart : startOf e.taken = offset := by
    have hcovers := covers_tokens c.delimiters c.host offset text
    rw [h, ← hsplit] at hcovers
    exact startOf_of_tile hne hcovers.tile
  have htree : (directiveRegion c e.taken e.fault).tree? =
      some (treeOf c.delimiters offset (charsOf e.taken) e.taken) := by
    rw [directiveRegion, hstart, Region.tree?, parse, hfirst]
    rfl
  rw [ShowsRegions, List.filterMap_cons_some htree, List.flatMap_cons, List.flatMap_cons, ← hsplit]
  refine Shows.pieces (h.trans hsplit.symm) (fun hmore => hfault ?_) hsecond ⟨rfl, rfl⟩ hrest
  by_contra hne
  exact hmore (hend hne)

/-- A template shows what the regions show into which its tokens are divided. -/
lemma shows_divide (hright : c.delimiters.right ≠ ['.']) (ts : List Token) : ∀ offset text,
    tokens c.delimiters c.host offset text = ts → ShowsRegions (treeOf c.delimiters offset text ts) (divide c ts) := by
  fun_induction divide c ts with
  | case1 =>
    intro offset text h
    exact shows_text (h ▸ covers_tokens _ _ _ _) (by simp)
  | case2 t ts ht ih =>
    intro offset text h
    have hsplit : t :: ts = (t :: ts.takeWhile isText) ++ ts.dropWhile isText := by
      rw [List.cons_append, List.takeWhile_append_dropWhile]
    have htext : ∀ u ∈ t :: ts.takeWhile isText, isText u = true := by
      refine List.forall_mem_cons.2 ⟨ht, fun u hu => List.all_eq_true.1 List.all_takeWhile u hu⟩
    rw [hsplit] at h ⊢
    exact shows_hostRegion htext h (ih _ _ (tokens_dropText htext h))
  | case3 t ts ht e ih =>
    intro offset text h
    exact shows_directiveRegion hright h rfl (ih _ _ (tokens_extent hright h).2)

/-- The nodes below the root of a whole template are those of its directives one after another, each parsed on its own,
and so are its errors. -/
theorem regions_agree (c : TemplateConfig) (hright : c.delimiters.right ≠ ['.']) (text : Text) :
    ∃ whole, parseRange? c.delimiters c.host text 0 text.size = .ok whole ∧
      whole.root.nodes.map Node.sketch =
        ((regions c text).filterMap Region.tree?).flatMap (fun t => t.root.nodes.map Node.sketch) ∧
      whole.errors.map (fun e => (e.message, e.span)) =
        ((regions c text).filterMap Region.tree?).flatMap fun t => t.errors.map fun e => (e.message, e.span) := by
  have hslice : text.slice? 0 text.size = some text := by
    simpa [Text.size] using slice?_append [] text []
  have hshows : ShowsRegions (parse c.delimiters c.host 0 text) (regions c text) := shows_divide hright _ 0 text rfl
  refine ⟨parse c.delimiters c.host 0 text, ?_, hshows.nodes, ?_⟩
  · rw [parseRange?, hslice]
    exact (parse?_eq_ok c.delimiters c.host 0 text).1
  · have hmessages : ∀ es : List SyntaxError, es.map (fun e => (e.message, e.span)) =
        (es.map SyntaxError.report).map fun r => (r.1.message, r.2) := fun es => by
      rw [List.map_map]
      rfl
    simp only [hmessages]
    rw [hshows.errors, List.map_flatMap]

theorem regions_agree_standard : TemplateConfig.standard.delimiters.right ≠ ['.'] ∧
    ∃ whole, parseRange? .braces .html "a{{if .B}}c{{end}}d".toList 0 19 = .ok whole ∧
      whole.root.nodes.map Node.sketch =
        ((regions .standard "a{{if .B}}c{{end}}d".toList).filterMap Region.tree?).flatMap
          (fun t => t.root.nodes.map Node.sketch) ∧
      whole.errors.map (fun e => (e.message, e.span)) =
        ((regions .standard "a{{if .B}}c{{end}}d".toList).filterMap Region.tree?).flatMap
          fun t => t.errors.map fun e => (e.message, e.span) :=
  ⟨by decide, regions_agree .standard (by decide) "a{{if .B}}c{{end}}d".toList⟩

end Template

end GoFront
