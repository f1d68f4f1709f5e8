import GoFront.Proofs.Parse.Source.Arrangement
import GoFront.Proofs.Tree.Edges

/-!
# Growing something

A node is not without parts if something always grows in it: a word that is known to be there, or something that is put
in for certain, a word or the report that it is missing. `Gains` says of a parser that it always grows something, and
`Outgrows` of sprouts that something was grown on top of others; neither leaves a node without parts.
-/

namespace GoFront

namespace Sprout

/-- No node at or below a sprout is without parts. -/
def Full (s : Sprout) : Prop := ∀ x ∈ s.nodes, x.2 ≠ []

lemma full_word (w : Word) : (word w).Full := fun _ h => nomatch h

lemma full_error (p : Problem) (r : Span) : (error p r).Full := fun _ h => nomatch h

lemma full_node {k : Kind} {cs : List Sprout} (hne : cs ≠ []) (h : ∀ c ∈ cs, c.Full) : (node k cs).Full := by
  intro x hx
  rcases List.mem_cons.1 hx with rfl | hx
  · exact hne
  · obtain ⟨c, hc, hxc⟩ := mem_nodesIn.1 hx
    exact h c hc x hxc

mutual

/-- A sprout that reports nothing has words in it if no node in it is without parts. -/
lemma words_ne_nil : (s : Sprout) → s.Full → s.reports = [] → s.words ≠ []
  | .word _, _, _ => List.cons_ne_nil _ _
  | .error _ _, _, h => absurd h (List.cons_ne_nil _ _)
  | .node _ cs, hfull, h =>
    wordsIn_ne_nil cs (hfull _ List.mem_cons_self) (fun x hx => hfull x (List.mem_cons_of_mem _ hx)) h

lemma wordsIn_ne_nil : (ss : List Sprout) → ss ≠ [] → (∀ x ∈ nodesIn ss, x.2 ≠ []) → reportsIn ss = [] → wordsIn ss ≠ []
  | [], hne, _, _ => absurd rfl hne
  | s :: _, _, hfull, h => List.append_ne_nil_of_left_ne_nil
    (words_ne_nil s (fun x hx => hfull x (List.mem_append_left _ hx)) (List.append_eq_nil_iff.1 h).1) _

end

mutual

/-- What is in a node at or below a sprout is in the sprout. -/
lemma subset_of_mem_nodes {x : Kind × List Sprout} : (s : Sprout) → x ∈ s.nodes →
    nodesIn x.2 ⊆ s.nodes ∧ reportsIn x.2 ⊆ s.reports
  | .word _, h => nomatch h
  | .error _ _, h => nomatch h
  | .node _ cs, h => by
    rcases List.mem_cons.1 h with rfl | h
    · exact ⟨List.subset_cons_self _ _, List.Subset.refl _⟩
    · obtain ⟨hnodes, hreports⟩ := subset_of_mem_nodesIn cs h
      exact ⟨List.subset_cons_of_subset _ hnodes, hreports⟩

lemma subset_of_mem_nodesIn {x : Kind × List Sprout} : (ss : List Sprout) → x ∈ nodesIn ss →
    nodesIn x.2 ⊆ nodesIn ss ∧ reportsIn x.2 ⊆ reportsIn ss
  | [], h => nomatch h
  | s :: ss, h => by
    rcases List.mem_append.1 h with h | h
    · obtain ⟨hnodes, hreports⟩ := subset_of_mem_nodes s h
      exact ⟨List.subset_append_of_subset_left _ hnodes, List.subset_append_of_subset_left _ hreports⟩
    · obtain ⟨hnodes, hreports⟩ := subset_of_mem_nodesIn ss h
      exact ⟨List.subset_append_of_subset_right _ hnodes, List.subset_append_of_subset_right _ hreports⟩

end

end Sprout

namespace Source

open GoFront.Parser Sprout

/-! ## Growing something -/

/-- Something was grown on top of `f`, and no node in it is without parts. -/
def Outgrows (f f' : List Sprout) : Prop := Extends Full f f' ∧ f.length < f'.length

section

variable {α β : Type} {ws : List Word} {f f' f'' : List Sprout} {p : Parser α} {k : α → Parser β}

lemma Outgrows.cons {x : Sprout} (h : Extends Full f f') (hx : x.Full) : Outgrows f (x :: f') := by
  refine ⟨h.cons hx, ?_⟩
  obtain ⟨ys, rfl, -⟩ := h
  simp only [List.length_cons, List.length_append]
  omega

lemma Outgrows.extends (h : Outgrows f f') : Extends Full f f' := h.1

lemma Outgrows.then (h : Outgrows f f') (h' : Extends Full f' f'') : Outgrows f f'' := by
  refine ⟨h.1.trans h', ?_⟩
  obtain ⟨ys, rfl, -⟩ := h'
  exact Nat.lt_of_lt_of_le h.2 (by simp)

lemma Outgrows.after (h : Extends Full f f') (h' : Outgrows f' f'') : Outgrows f f'' := by
  refine ⟨h.trans h'.1, ?_⟩
  obtain ⟨ys, rfl, -⟩ := h
  exact Nat.lt_of_le_of_lt (by simp) h'.2

/-- What was grown on its own may stand on top of anything. -/
lemma Outgrows.onto (h : Outgrows [] f') : Outgrows f (f' ++ f) :=
  ⟨⟨f', rfl, h.1.all⟩, by simpa using h.2⟩

lemma Outgrows.ne_nil (h : Outgrows [] f) : f ≠ [] := by
  rintro rfl
  exact Nat.lt_irrefl 0 h.2

/-- What was grown on its own is the parts of a node. -/
lemma Outgrows.full {c : Kind} (h : Outgrows [] f) : (node c f.reverse).Full :=
  full_node (List.reverse_ne_nil_iff.2 h.ne_nil) fun x hx => h.1.all x (List.mem_reverse.1 hx)

/-- A parser always grows something. -/
def Gains (p : Parser α) : Prop := ∀ ws f, Grows ws f p fun _ _ f' => Outgrows f f'

/-! ### Words and errors -/

lemma full_advance : Keeps Full advance := by
  intro ws f
  cases ws with
  | nil => exact .advance_nil (.refl f)
  | cons w ws => exact .advance ((Extends.refl f).cons (full_word w))

lemma full_eat {c : Kind} : Keeps Full (eat c) := Keeps.isAt.choose (full_advance.bind fun _ => .pure true) (.pure false)

lemma gains_error {e : Problem} : Gains (error e) := fun _ f => .error fun r => .cons (.refl f) (full_error e r)

lemma gains_expected {what : String} : Gains (expected what) := fun _ f =>
  .expected fun _ _ => .cons (.refl f) (full_error _ _)

/-- A word that is there is taken. -/
lemma outgrows_advance (h : ws ≠ []) (hf : Extends Full f f') : Grows ws f' advance fun _ _ f'' => Outgrows f f'' := by
  obtain ⟨w, ws, rfl⟩ := List.exists_cons_of_ne_nil h
  exact .advance (.cons hf (full_word w))

/-! ### Sequences and choices -/

/-- Something is grown first. -/
lemma outgrows_then (h : Grows ws f' p fun _ _ f'' => Outgrows f f'') (hk : ∀ v, Keeps Full (k v)) :
    Grows ws f' (p >>= k) fun _ _ f'' => Outgrows f f'' :=
  h.bind fun v ws' f' hf => (hk v ws' f').mono fun _ _ _ hf' => hf.then hf'

/-- A word that is there is taken first. -/
lemma outgrows_first {k : Unit → Parser β} (h : ws ≠ []) (hk : ∀ v, Keeps Full (k v)) :
    Grows ws f (advance >>= k) fun _ _ f' => Outgrows f f' := outgrows_then (outgrows_advance h (.refl f)) hk

/-- What is put into a node. -/
lemma outgrows_nodeBy {p : Parser Kind} (h : Grows ws [] p fun _ _ g => Outgrows [] g) :
    Grows ws f (nodeBy p) fun _ _ f' => Outgrows f f' :=
  .nodeBy (h.mono fun _ _ _ hg => .cons (.refl f) hg.full)

lemma outgrows_node {c : Kind} {p : Parser Unit} (h : Grows ws [] p fun _ _ g => Outgrows [] g) :
    Grows ws f (node c p) fun _ _ f' => Outgrows f f' :=
  .node (h.mono fun _ _ _ hg => .cons (.refl f) hg.full)

/-- A node around the last sprout has at least that one as a part. -/
lemma Outgrows.wrapBy {p : Parser Kind} (hf : Outgrows f f') (h : Keeps Full p) :
    Grows ws f' (wrapBy p) fun _ _ f'' => Outgrows f f'' := by
  obtain ⟨⟨ys, rfl, hys⟩, hlength⟩ := hf
  cases ys with
  | nil => exact absurd hlength (Nat.lt_irrefl _)
  | cons y ys =>
    obtain ⟨hy, hys⟩ := List.forall_mem_cons.1 hys
    refine .wrapBy ((h ws [y]).mono fun c _ g hg => .cons ⟨ys, rfl, hys⟩ (Outgrows.full ?_))
    exact (Outgrows.cons (.refl []) hy).then hg

lemma Outgrows.wrap {c : Kind} {p : Parser Unit} (hf : Outgrows f f') (h : Keeps Full p) :
    Grows ws f' (wrap c p) fun _ _ f'' => Outgrows f f'' :=
  (hf.wrapBy (h.bind fun _ => .pure c)).discard fun _ _ _ hf => hf

namespace Gains

variable {body : Parser Unit}

lemma keeps (h : Gains p) : Keeps Full p := fun ws f => (h ws f).mono fun _ _ _ hf => hf.extends

lemma bind (hp : Gains p) (hk : ∀ v, Keeps Full (k v)) : Gains (p >>= k) := fun ws f => outgrows_then (hp ws f) hk

/-- Something is grown in the end. -/
lemma after (hp : Keeps Full p) (hk : ∀ v, Gains (k v)) : Gains (p >>= k) := fun ws f =>
  (hp ws f).bind fun v ws' f' hf => (hk v ws' f').mono fun _ _ _ hf' => .after hf hf'

lemma map (hp : Gains p) {g : α → β} : Gains (g <$> p) := fun ws f => (hp ws f).map fun _ _ _ hf => hf

lemma discard (hp : Gains p) : Gains (Functor.discard p) := hp.map

lemma peek {k : Kind → Parser β} (h : ∀ c, Gains (k c)) : Gains (Parser.peek >>= k) := fun ws f => .peek (h _ ws f)

lemma choose {q : Parser Bool} {yes no : Parser α} (hq : Keeps Full q) (hyes : Gains yes) (hno : Gains no) :
    Gains (do if ← q then yes else no) :=
  after hq fun v => by
    cases v with
    | true => exact hyes
    | false => exact hno

lemma nodeBy {p : Parser Kind} (h : Gains p) : Gains (Parser.nodeBy p) := fun ws _ => outgrows_nodeBy (h ws [])

lemma node {c : Kind} (h : Gains body) : Gains (Parser.node c body) := fun ws _ => outgrows_node (h ws [])

end Gains

/-- A word is taken, or reported as missing. -/
lemma gains_expect {c : Kind} (hc : c ≠ .endOfInput) : Gains (expect c) := fun _ f =>
  .ifEat hc (fun w _ _ _ => .pure (.cons (.refl f) (full_word w))) fun _ => gains_expected _ _

lemma gains_expectedAndAdvance {what : String} : Gains (expectedAndAdvance what) :=
  .peek fun _ => .node (gains_error.bind fun _ => full_advance)

lemma gains_expectedOr {what : String} {ks : KindSet} : Gains (expectedOr what ks) :=
  .choose (.ask fun _ => (Asks.isAtAny ks).or (.isAt _)) gains_expected gains_expectedAndAdvance

lemma full_orSkip {body next : Parser Unit} {what : String} (hbody : Keeps Full body) (hnext : Keeps Full next) :
    Keeps Full (orSkip body what next) := by
  refine .look fun _ => hbody.bind fun _ => .look fun _ => ?_
  split
  · exact gains_expectedAndAdvance.keeps
  · exact hnext

end

end Source

end GoFront
