import GoFront.Proofs.Parse.Source.Branch
import GoFront.Proofs.Token.Terminator
import GoFront.Proofs.Tree.Edges

/-!
# The parts of a node in an accepted file

In the tree of a file without errors the parts of a node are arranged as its kind asks, and they stand in the order of
the text (`Node.Laid`). A part with a word in it that is no semicolon starts before it stops, so the accessors that
compare offsets find a part where it stands.
-/

namespace GoFront

namespace Element

variable {isTrivia : Kind → Bool}

mutual

/-- An element with a word that has characters is not empty. -/
lemma start_lt_stop : (e : Element) → (∀ n ∈ e.descendants, Tile n.span.start n.children n.span.stop) →
    (∀ l ∈ e.leaves, l.kind ≠ .semicolon → l.text ≠ []) → Stem.Firm (e.stems isTrivia) → e.span.start < e.span.stop
  | .token i t, _, hsolid, hfirm => by
    obtain ⟨c, hc, hne⟩ := hfirm
    have hkind : c = t.kind := by
      rw [stems] at hc
      split at hc
      · exact absurd hc List.not_mem_nil
      · exact List.mem_singleton.1 hc
    subst hkind
    have htext : t.text ≠ [] := hsolid ⟨i, t⟩ (List.mem_singleton_self _) hne
    exact Nat.lt_add_of_pos_right (Nat.pos_of_ne_zero (mt Text.size_eq_zero.1 htext))
  | .node i k s cs, htiled, hsolid, hfirm => by
    rw [descendants, List.forall_mem_cons] at htiled
    refine start_lt_stop_in cs htiled.1 htiled.2 hsolid ?_
    obtain ⟨c, hc, hne⟩ := hfirm
    refine ⟨c, ?_, hne⟩
    simpa [stems, Stem.leavesIn, Stem.leaves] using hc

lemma start_lt_stop_in {a b : Nat} : (es : List Element) → Tile a es b →
    (∀ n ∈ descendantsIn es, Tile n.span.start n.children n.span.stop) →
    (∀ l ∈ leavesIn es, l.kind ≠ .semicolon → l.text ≠ []) → Stem.Firm (stemsIn isTrivia es) → a < b
  | [], _, _, _, hfirm => by
    obtain ⟨c, hc, -⟩ := hfirm
    exact absurd hc List.not_mem_nil
  | e :: es, ht, htiled, hsolid, hfirm => by
    rw [descendantsIn, List.forall_mem_append] at htiled
    rw [leavesIn, List.forall_mem_append] at hsolid
    obtain ⟨c, hc, hne⟩ := hfirm
    obtain ⟨p, hp, hcp⟩ := Stem.mem_leavesIn.1 hc
    rw [stemsIn, List.mem_append] at hp
    rcases hp with hp | hp
    · have hfirst := start_lt_stop e htiled.1 hsolid.1 ⟨c, Stem.mem_leavesIn.2 ⟨p, hp, hcp⟩, hne⟩
      exact ht.1 ▸ hfirst.trans_le ht.2.le
    · have hrest := start_lt_stop_in es ht.2 htiled.2 hsolid.2 ⟨c, Stem.mem_leavesIn.2 ⟨p, hp, hcp⟩, hne⟩
      exact ht.1 ▸ e.span.start_le_stop.trans_lt hrest

end

end Element

namespace Node

lemma as?_of_kind_eq {n : Node} {k : Kind} (h : n.kind = k) : n.as? k = some ⟨n, h⟩ := dif_pos h

lemma as?_of_kind_ne {n : Node} {k : Kind} (h : n.kind ≠ k) : n.as? k = none := dif_neg h

/-- A node of a kind that a test accepts, if the test accepts the first one of that kind. -/
lemma exists_typed {r : Node} {k : Kind} {q : Typed k → Bool}
    (h : (r.descendants.findSome? (·.as? k)).map q = some true) :
    ∃ s : Typed k, s.node ∈ r.descendants ∧ q s = true := by
  obtain ⟨s, hs, hq⟩ := Option.map_eq_some_iff.1 h
  obtain ⟨n, hn, htyped⟩ := List.exists_of_findSome?_eq_some hs
  refine ⟨s, ?_, hq⟩
  rw [as?] at htyped
  split at htyped
  · obtain rfl := Option.some.inj htyped
    exact hn
  · cases htyped

/-- The parts of a node are arranged, stand in the order of the text, and are not empty unless they are semicolons. -/
structure Laid (n : Node) : Prop where
  arranged : Source.Arranged n.kind ((n.parts Kind.isTrivia).map (Element.stem Kind.isTrivia))
  ordered : (n.parts Kind.isTrivia).Pairwise fun e e' => e.span.stop ≤ e'.span.start
  solid : ∀ e ∈ n.parts Kind.isTrivia, Stem.Firm [e.stem Kind.isTrivia] → e.span.start < e.span.stop

variable {n : Node}

/-- The node that a part is whose stem is a node. -/
lemma Laid.exists_node (h : n.Laid) {e : Element} (he : e ∈ n.parts Kind.isTrivia) {q : Kind → Bool}
    (hfills : (e.stem Kind.isTrivia).Fills q) :
    ∃ m : Node, e = m.element ∧ q m.kind = true ∧ m.span.start < m.span.stop := by
  have hlt : e.span.start < e.span.stop := h.solid e he (hfills.firm (List.mem_singleton_self _))
  generalize hstem : e.stem Kind.isTrivia = s at hfills
  cases hfills with
  | branch kind firm =>
    obtain ⟨m, rfl, hm⟩ := Element.eq_element_of_stem hstem
    rw [← (Stem.branch.inj hm).1] at kind
    exact ⟨m, rfl, kind, hlt⟩

lemma firstSignificant?_eq : n.firstSignificant? = ((n.parts Kind.isTrivia).filterMap Element.leaf?).head? := by
  rw [firstSignificant?, ← n.tokens_eq_parts, List.head?_filter]

lemma tokenOf?_eq {k : Kind} (hk : k.isTrivia = false) :
    n.tokenOf? k = ((n.parts Kind.isTrivia).filterMap Element.leaf?).find? (·.kind == k) := by
  rw [tokenOf?, ← n.tokens_eq_parts, List.find?_filter]
  congr 1
  funext l
  by_cases hl : l.kind = k
  · simp [hl, hk]
  · simp [hl]

end Node

namespace Source

open Element

/-- In the tree of a file without errors the parts of every node are laid out as its kind asks. -/
lemma laid_parse {text : Text} (h : (parse text).errors = []) : ∀ n ∈ (parse text).root.descendants, n.Laid := by
  intro n hn
  have hcovers := (covers_parse text).2
  have htiled := hcovers.tiled n hn
  have hsub : descendantsIn n.children ⊆ (parse text).root.descendants ∧
      leavesIn n.children ⊆ (parse text).root.leaves := subset_of_mem_descendants _ hn
  refine ⟨?_, htiled.pairwise.sublist List.filter_sublist, fun e he hfirm => ?_⟩
  · have harranged : Arranged n.kind (stemsIn Kind.isTrivia n.children) := (arranged_parse h n hn).1
    rwa [stemsIn_eq_map] at harranged
  · have hsig : e.stems Kind.isTrivia = [e.stem Kind.isTrivia] := by
      have hsig : e.isSignificant Kind.isTrivia = true := (List.mem_filter.1 he).2
      cases e with
      | token i t =>
        rw [isSignificant, Bool.not_eq_true'] at hsig
        simp [stems, stem, hsig]
      | node i k s cs => rfl
    have he : e ∈ n.children := (List.mem_filter.1 he).1
    refine start_lt_stop e (fun m hm => hcovers.tiled m (hsub.1 ?_)) (fun l hl hkind => ?_) (hsig ▸ hfirm)
    · exact mem_descendantsIn.2 ⟨e, he, hm⟩
    · have hl : l ∈ (parse text).root.leaves := hsub.2 (leavesIn_eq_flatMap _ ▸ List.mem_flatMap_of_mem he hl)
      have htoken : l.token ∈ tokens text := hcovers.tokens ▸ List.mem_map_of_mem hl
      obtain ⟨us, vs, heq⟩ := List.append_of_mem htoken
      exact fun hempty => hkind (((tokens_terminated text).placed us _ vs heq).nonempty hempty)

end Source

end GoFront
