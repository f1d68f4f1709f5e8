import GoFront.Proofs.Tree.Layout
import GoFront.Proofs.Tree.Rendering

/-!
# Where nodes start and end

A node whose parts tile it starts where its first token starts and ends where its last one does
(`Node.span_eq_between`). In a tree that renders what was grown, no node but the root starts with blanks or comments,
and one ends with them only if the last of its parts is a node without tokens, or the last part of that one is, and so
on (`Node.RendersParts.edged`). It ends with a word if what was grown in it does (`Renders.last_of_endsWith`).
-/

namespace GoFront

namespace Element

/-- Without tokens there are only nodes, and these have none. -/
lemma getLast?_of_leavesIn_eq_nil {es : List Element} (hne : es ≠ []) (h : leavesIn es = []) :
    ∃ m : Node, es.getLast? = some m.element ∧ m.leaves = [] := by
  obtain ⟨front, e, rfl⟩ := (List.eq_nil_or_concat es).resolve_left hne
  rw [List.concat_eq_append] at h ⊢
  have he : e.leaves = [] := by
    rw [leavesIn_append, List.append_eq_nil_iff] at h
    simpa [leavesIn] using h.2
  cases e with
  | token i t => exact absurd he (List.cons_ne_nil _ _)
  | node i k s cs => exact ⟨⟨i, k, s, cs⟩, List.getLast?_concat, he⟩

end Element

namespace Node

/-- A node that is a part of another is below what that one is below. -/
lemma mem_descendants_of_mem_nodes {r n m : Node} (hn : n ∈ r.descendants) (hm : m ∈ n.nodes) : m ∈ r.descendants := by
  refine (Element.subset_of_mem_descendants r.element hn).1 ?_
  exact Element.mem_descendantsIn.2 ⟨_, mem_nodes.1 hm, List.mem_cons_self⟩

/-- What is below a node is below what the node is below. -/
lemma descendants_subset {r n : Node} (hn : n ∈ r.descendants) : n.descendants ⊆ r.descendants :=
  List.cons_subset.2 ⟨hn, (Element.subset_of_mem_descendants r.element hn).1⟩

/-- If all parts tile, a node covers what lies from its first token to its last one. -/
lemma span_eq_between {r n : Node} (h : ∀ m ∈ r.descendants, Element.Tile m.span.start m.children m.span.stop)
    (hn : n ∈ r.descendants) {first last : Leaf} (hfirst : n.leaves.head? = some first)
    (hlast : n.leaves.getLast? = some last) : n.span = .between first.token.start last.token.stop := by
  have hbelow : ∀ m ∈ n.descendants, Element.Tile m.span.start m.children m.span.stop := fun m hm =>
    h m (descendants_subset hn hm)
  have hstart : n.span.start = first.token.start := (Element.start_eq n.element hbelow).1 first hfirst
  have hstop : n.span.stop = last.token.stop := Element.stop_eq n.element hbelow last hlast
  rw [← hstart, ← hstop]
  simp [Span.between, Span.stop]

/-- Following last parts down from a node leads to a node without tokens. -/
inductive TrailsOff : Node → Prop
  /-- The node has none. -/
  | empty {n : Node} (h : n.leaves = []) : TrailsOff n
  /-- Its last part is a node that trails off. -/
  | last {n m : Node} (hm : n.children.getLast? = some m.element) (h : TrailsOff m) : TrailsOff n

/-- Neither the first token of a node nor the last one is a blank or a comment, unless the node trails off. -/
structure Edged (isTrivia : Kind → Bool) (n : Node) : Prop where
  first : ∀ l ∈ n.leaves.head?, isTrivia l.kind = false
  last : ∀ l ∈ n.leaves.getLast?, isTrivia l.kind = false ∨ n.TrailsOff

end Node

/-- Sprouts end with a word, as it is if errors are passed over and the last node is entered. -/
inductive Sprout.EndsWith (w : Word) : List Sprout → Prop
  /-- The word is the last sprout. -/
  | word {ss : List Sprout} : EndsWith w (ss ++ [Sprout.word w])
  /-- An error is behind the word. -/
  | error {ss : List Sprout} {p : Problem} {r : Span} (h : EndsWith w ss) : EndsWith w (ss ++ [Sprout.error p r])
  /-- The word is at the end of a node. -/
  | node {ss cs : List Sprout} {k : Kind} (h : EndsWith w cs) : EndsWith w (ss ++ [Sprout.node k cs])

lemma Sprout.EndsWith.getLast?_wordsIn {w : Word} {ss : List Sprout} (h : EndsWith w ss) :
    (wordsIn ss).getLast? = some w := by
  induction h with
  | word => simp [wordsIn, words]
  | error _ ih => simpa [wordsIn, words] using ih
  | node _ ih => simp [wordsIn, words, List.getLast?_append, ih]

namespace Renders

variable {isTrivia : Kind → Bool} {A : Nat → List (Problem × Span)} {cs : List Sprout} {es : List Element}

/-- Behind a last part that is there, the last token is that of the part. -/
lemma last_of_tail {front : List Element} (hne : es ≠ [])
    (ih : ∀ l ∈ (Element.leavesIn es).getLast?,
      isTrivia l.kind = false ∨ ∃ m : Node, es.getLast? = some m.element ∧ m.TrailsOff) :
    ∀ l ∈ (Element.leavesIn (front ++ es)).getLast?,
      isTrivia l.kind = false ∨ ∃ m : Node, (front ++ es).getLast? = some m.element ∧ m.TrailsOff := by
  intro l hl
  have hlast : (front ++ es).getLast? = es.getLast? := List.getLast?_append_of_ne_nil front hne
  rw [Element.leavesIn_append, List.getLast?_append] at hl
  rw [hlast]
  cases hleaves : (Element.leavesIn es).getLast? with
  | none =>
    obtain ⟨m, hm, hempty⟩ := Element.getLast?_of_leavesIn_eq_nil hne (List.getLast?_eq_none_iff.1 hleaves)
    exact .inr ⟨m, hm, .empty hempty⟩
  | some x =>
    rw [hleaves] at hl
    exact ih l (hleaves.trans hl)

/-- The last token below elements that render sprouts is no blank and no comment, unless the last of the elements is a
node that trails off. -/
lemma last_leaf (h : Renders isTrivia A cs es) : ∀ l ∈ (Element.leavesIn es).getLast?,
    isTrivia l.kind = false ∨ ∃ m : Node, es.getLast? = some m.element ∧ m.TrailsOff := by
  induction h with
  | nil => exact nofun
  | @word w cs gap es i _ hw _ ih =>
    rw [← List.singleton_append, ← List.append_assoc]
    rcases List.eq_nil_or_concat es with rfl | hne
    · intro l hl
      rw [List.append_nil, Element.leavesIn_append, Element.leavesIn, Element.leavesIn, List.append_nil,
        Element.leaves, List.getLast?_concat] at hl
      obtain rfl := Option.some.inj hl
      exact .inl hw
    · exact last_of_tail (by obtain ⟨_, _, rfl⟩ := hne; simp) ih
  | error _ ih => exact ih
  | @node n ds cs gap es _ _ _ _ _ ihin ih =>
    rw [← List.singleton_append, ← List.append_assoc]
    rcases List.eq_nil_or_concat es with rfl | hne
    · intro l hl
      have hlast : (gap ++ [n.element] ++ []).getLast? = some n.element := by simp
      rw [hlast]
      cases hleaves : n.leaves.getLast? with
      | none => exact .inr ⟨n, rfl, .empty (List.getLast?_eq_none_iff.1 hleaves)⟩
      | some x =>
        have hx : (Element.leavesIn (gap ++ [n.element] ++ [])).getLast? = some x := by
          rw [List.append_nil, Element.leavesIn_append, List.getLast?_append, Element.leavesIn, Element.leavesIn,
            List.append_nil, show n.element.leaves.getLast? = some x from hleaves]
          rfl
        obtain rfl := Option.some.inj (hx.symm.trans hl)
        refine (ihin x hleaves).imp_right fun ⟨m, hm, htrail⟩ => ⟨n, rfl, .last hm htrail⟩
    · exact last_of_tail (by obtain ⟨_, _, rfl⟩ := hne; simp) ih

/-- The last token is that of the word that the sprouts end with. -/
lemma last_of_endsWith {w : Word} (hw : Sprout.EndsWith w cs) (h : Renders isTrivia A cs es) :
    ∃ l, (Element.leavesIn es).getLast? = some l ∧ l.token = w.token := by
  induction hw generalizing es with
  | word =>
    obtain ⟨fs, gs, rfl, -, hgs⟩ := h.split
    cases hgs with
    | @word _ _ gap es i _ _ hes =>
      cases hes with
      | nil => exact ⟨⟨i, w.token⟩, by simp [Element.leavesIn_append, Element.leavesIn, Element.leaves], rfl⟩
  | error _ ih =>
    obtain ⟨fs, gs, rfl, hfs, hgs⟩ := h.split
    cases hgs with
    | error hes =>
      cases hes with
      | nil =>
        rw [List.append_nil]
        exact ih hfs
  | node _ ih =>
    obtain ⟨fs, gs, rfl, -, hgs⟩ := h.split
    cases hgs with
    | @node n _ _ gap es _ _ _ hin hes =>
      cases hes with
      | nil =>
        obtain ⟨l, hl, htoken⟩ := ih hin
        refine ⟨l, ?_, htoken⟩
        have hn : n.element.leaves.getLast? = some l := hl
        simp [Element.leavesIn_append, Element.leavesIn, List.getLast?_append, hn]

/-- Words are rendered by tokens. -/
lemma leavesIn_ne_nil (h : Renders isTrivia A cs es) (hne : Sprout.wordsIn cs ≠ []) : Element.leavesIn es ≠ [] := by
  intro hnil
  have htokens := h.map_token_leavesIn
  rw [hnil] at htokens
  exact hne (List.map_eq_nil_iff.1 htokens.symm)

end Renders

namespace Node

variable {isTrivia : Kind → Bool} {A : Nat → List (Problem × Span)} {n : Node} {ds : List Sprout}

/-- A node that renders what was grown starts and ends with words. -/
lemma RendersParts.edged (h : n.RendersParts isTrivia A ds) : n.Edged isTrivia where
  first := h.lead
  last l hl := (h.parts.last_leaf l hl).imp_right fun ⟨_, hm, htrail⟩ => .last hm htrail

/-- In a tree that renders what was grown, in front of blanks and comments, all nodes below the root do. -/
lemma edged_of_renders {r : Node} {cs : List Sprout} {es gap : List Element} (hr : r.children = es ++ gap)
    (hgap : Element.IsGap isTrivia gap) (h : Renders isTrivia A cs es) :
    ∀ n ∈ r.descendants, n ≠ r → n.Edged isTrivia := by
  intro n hn hne
  have hbelow : n ∈ Element.descendantsIn r.children := (List.mem_cons.1 hn).resolve_left hne
  rw [hr, Element.descendantsIn_append, Renders.descendantsIn_gap hgap, List.append_nil] at hbelow
  obtain ⟨ds, -, hparts⟩ := h.exists_node hbelow
  exact hparts.edged

/-- A node does not trail off if no node in it is without tokens. -/
lemma not_trailsOff (h : ∀ m ∈ n.descendants, m.leaves ≠ []) : ¬n.TrailsOff := by
  intro htrail
  induction htrail with
  | empty hnil => exact h _ List.mem_cons_self hnil
  | @last n m hm _ ih =>
    have hpart : m ∈ n.nodes := mem_nodes.2 (List.mem_of_getLast? hm)
    exact ih fun x hx => h x (descendants_subset (mem_descendants_of_mem_nodes List.mem_cons_self hpart) hx)

/-- A node that starts and ends with tokens that are no blanks and no comments covers nothing else at its ends. -/
lemma trimmedSpan_eq_span {r : Node} (h : ∀ m ∈ r.descendants, Element.Tile m.span.start m.children m.span.stop)
    (hn : n ∈ r.descendants) (hne : n.leaves ≠ []) (hfirst : ∀ l ∈ n.leaves.head?, l.kind.isTrivia = false)
    (hlast : ∀ l ∈ n.leaves.getLast?, l.kind.isTrivia = false) : n.trimmedSpan = n.span := by
  obtain ⟨a, ls, hleaves⟩ := List.exists_cons_of_ne_nil hne
  obtain ⟨front, z, hconcat⟩ := (List.eq_nil_or_concat n.leaves).resolve_left hne
  rw [List.concat_eq_append] at hconcat
  have hhead : n.leaves.head? = some a := by rw [hleaves]; rfl
  have hend : n.leaves.getLast? = some z := by rw [hconcat, List.getLast?_concat]
  have hfilter : n.leaves.filter (fun l => !l.kind.isTrivia) = a :: ls.filter fun l => !l.kind.isTrivia := by
    rw [hleaves, List.filter_cons_of_pos (by rw [hfirst a hhead]; rfl)]
  have hz : (a :: ls.filter fun l => !l.kind.isTrivia).getLast? = some z := by
    rw [← hfilter, hconcat, List.filter_append, List.filter_cons_of_pos (by rw [hlast z hend]; rfl), List.filter_nil,
      List.getLast?_concat]
  rw [List.getLast?_cons] at hz
  rw [span_eq_between h hn hhead hend, trimmedSpan, hfilter]
  dsimp only
  rw [Option.some.inj hz]
  rfl

end Node

end GoFront
