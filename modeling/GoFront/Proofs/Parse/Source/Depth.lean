import GoFront.Proofs.Parse.Source.Branch
import GoFront.Proofs.Parse.Source.Restriction
import GoFront.Proofs.Tree.Parents

/-!
# How deep `if` statements are nested

A statement inside another one is one level down, and there are no more than `nestingLimit` levels. The `if` behind an
`else` is an exception: it is entered without going down a level. So the limit bounds the `if` statements on a path if
those of one chain count once (`chains_limited`), and a chain alone can be longer (`chain_past_limit`).
-/

namespace GoFront

namespace Stem

mutual

/-- The largest number of chains of `if` statements that lie one in the other; `inside` tells whether the stem is a part
of an `if` statement, which it then belongs to if it is one itself. -/
def depth (inside : Bool) : Stem → Nat
  | .leaf _ => 0
  | .branch k ps => (if k == .ifStatement && !inside then 1 else 0) + depthIn (k == .ifStatement) ps

/-- The largest number among stems that follow one another. -/
def depthIn (inside : Bool) : List Stem → Nat
  | [] => 0
  | p :: ps => max (depth inside p) (depthIn inside ps)

end

lemma depthIn_le_iff {inside : Bool} {ps : List Stem} {n : Nat} :
    depthIn inside ps ≤ n ↔ ∀ p ∈ ps, p.depth inside ≤ n := by
  induction ps with
  | nil => simp [depthIn]
  | cons p ps ih => rw [depthIn, max_le_iff, ih, List.forall_mem_cons]

lemma depth_inside_le (s : Stem) : s.depth true ≤ s.depth false := by
  cases s with
  | leaf => exact Nat.le_refl 0
  | branch k ps => cases h : k == .ifStatement <;> simp [depth, h]

lemma depth_le_succ (s : Stem) : s.depth false ≤ s.depth true + 1 := by
  cases s with
  | leaf => exact Nat.zero_le _
  | branch k ps =>
    cases h : k == .ifStatement <;> simp only [depth, h] <;> simp
    omega

end Stem

namespace Source

/-! ## What grows on a level -/

/-- Of the stems of a sprout none is deeper than `n`. -/
def Within (inside : Bool) (n : Nat) (x : Sprout) : Prop := ∀ s ∈ x.stems, s.depth inside ≤ n

lemma depthIn_le_of_within {inside : Bool} {n : Nat} {xs : List Sprout} (h : ∀ x ∈ xs, Within inside n x) :
    Stem.depthIn inside (Sprout.stemsIn xs) ≤ n := by
  refine Stem.depthIn_le_iff.2 fun s hs => ?_
  obtain ⟨x, hx, hs⟩ := mem_stemsIn.1 hs
  exact h x hx s hs

lemma inherited_within (n : Nat) : Inherited (Within false n) where
  word _ := List.forall_mem_singleton.2 (Nat.zero_le n)
  error _ _ _ h := absurd h List.not_mem_nil
  node {k cs} hk hcs _ := by
    have hk : (k == .ifStatement) = false := beq_eq_false_iff_ne.2 hk
    refine List.forall_mem_singleton.2 ?_
    rw [Stem.depth, hk, Bool.false_and, if_neg Bool.false_ne_true, Nat.zero_add]
    exact depthIn_le_of_within hcs

/-- The links of a chain are not deeper than what is between them. -/
lemma linked_within (n : Nat) : Linked (Within false n) (Within true n) where
  part _ h s hs := s.depth_inside_le.trans (h s hs)
  link hcs _ := by
    refine List.forall_mem_singleton.2 ?_
    rw [Stem.depth, Bool.not_true, Bool.and_false, if_neg Bool.false_ne_true, Nat.zero_add]
    exact depthIn_le_of_within hcs

/-- In the tree of a file chains of `if` statements are nested no deeper than the limit. -/
lemma depth_root_parse (text : Text) : ((parse text).root.stem Kind.isTrivia).depth false ≤ nestingLimit := by
  have htop : top.Keeps (Within false nestingLimit) :=
    keeps_nested (P := Within false) (C := Within true) inherited_within linked_within
      (fun n _ h s hs => (h s hs).trans n.le_succ) (fun _ _ h s hs => s.depth_le_succ.trans (Nat.succ_le_succ (h s hs)))
      nestingLimit
  have hroot : ((parse text).root.kind == .ifStatement) = false := by
    rw [kind_root_parse]
    rfl
  have hparts := depthIn_le_of_within (all_grown_file htop (inherited_within nestingLimit) text)
  rw [← stemsIn_parse] at hparts
  rw [Node.stem, Node.element, Element.stem, Stem.depth, hroot, Bool.false_and, if_neg Bool.false_ne_true, Nat.zero_add]
  exact hparts

/-! ## Paths -/

/-- The number of `if` statements on a way down that do not follow another one on it; `inside` tells whether one comes
right before. -/
def heads (inside : Bool) : List Node → Nat
  | [] => 0
  | n :: ns => (if n.kind == .ifStatement && !inside then 1 else 0) + heads (n.kind == .ifStatement) ns

/-- A way down from a node meets no more of them than there are in its stem. -/
lemma heads_le_depth {inside : Bool} {n : Node} {ns : List Node} (h : (n :: ns).IsChain fun m c => c ∈ m.nodes) :
    heads inside (n :: ns) ≤ (n.stem Kind.isTrivia).depth inside := by
  induction ns generalizing n inside with
  | nil => exact Nat.add_le_add_left (Nat.zero_le _) _
  | cons m ns ih =>
    obtain ⟨hm, hrest⟩ := List.isChain_cons_cons.1 h
    exact Nat.add_le_add_left ((ih hrest).trans (Stem.depthIn_le_iff.1 (Nat.le_refl _) _ (stem_mem_stemsIn hm))) _

/-- Where no `if` statement follows another one, all of them are counted. -/
lemma heads_eq_countP {inside : Bool} {n : Node} {ns : List Node} (hn : inside = true → n.kind ≠ .ifStatement)
    (h : (n :: ns).IsChain fun m c => m.kind = .ifStatement → c.kind ≠ .ifStatement) :
    heads inside (n :: ns) = (n :: ns).countP (·.kind == .ifStatement) := by
  induction ns generalizing n inside with
  | nil => cases inside <;> simp_all [heads]
  | cons m ns ih =>
    obtain ⟨hm, hrest⟩ := List.isChain_cons_cons.1 h
    have hfirst : (n.kind == .ifStatement && !inside) = (n.kind == .ifStatement) := by
      cases inside with
      | false => rw [Bool.not_false, Bool.and_true]
      | true => rw [Bool.not_true, Bool.and_false, beq_eq_false_iff_ne.2 (hn rfl)]
    rw [heads, hfirst, ih (fun hkind => hm (beq_iff_eq.1 hkind)) hrest, List.countP_cons (l := m :: ns), Nat.add_comm]

/-- **The nesting limit bounds the chains of `if` statements**: on a way down from the root of a file there are no more
of them than levels. Where no `if` statement follows another one on the way, these are all there are. -/
theorem chains_limited (text : Text) (path : List Node) (hchain : path.IsChain fun m n => n ∈ m.nodes)
    (hroot : path.head? = some (parse text).root) : heads false path ≤ nestingLimit ∧
      (path.IsChain (fun m n => m.kind = .ifStatement → n.kind ≠ .ifStatement) →
        path.countP (·.kind == .ifStatement) ≤ nestingLimit) := by
  cases path with
  | nil => exact nomatch hroot
  | cons n ns =>
    have hn : n = (parse text).root := Option.some.inj hroot
    have hheads : heads false (n :: ns) ≤ nestingLimit := by
      refine (heads_le_depth hchain).trans ?_
      rw [hn]
      exact depth_root_parse text
    refine ⟨hheads, fun hapart => ?_⟩
    have hall : heads false (n :: ns) = (n :: ns).countP (·.kind == .ifStatement) :=
      heads_eq_countP (fun h => absurd h Bool.false_ne_true) hapart
    exact hall.ge.trans hheads

/-- The nodes around a node, from the root on. -/
lemma exists_path {t : SyntaxTree} {id n : Nat} (h : (t.ancestors id).countP (·.kind == .ifStatement) = n + 1) :
    ∃ path : List Node, path.IsChain (fun m n => n ∈ m.nodes) ∧ path.head? = some t.root ∧
      path.countP (·.kind == .ifStatement) = n + 1 := by
  have hmem : id ∈ t.root.descendants.map Node.id := by
    by_contra hmem
    rw [SyntaxTree.ancestors, (Element.pathTo?_eq_none t.root.element).2 hmem] at h
    exact Nat.succ_ne_zero n h.symm
  have hleads := SyntaxTree.ancestors_spec hmem
  obtain ⟨r, hr, rfl⟩ := hleads.last
  refine ⟨(t.ancestors id).reverse, List.isChain_reverse.2 hleads.chain, ?_, ?_⟩
  · rw [List.head?_reverse, hr]
  · rw [List.countP_reverse, h]

theorem chains_limited_inner : ∃ path : List Node, path.IsChain (fun m n => n ∈ m.nodes) ∧
    path.head? = some (parse "package p\nfunc f(){if a{if b{}else if c{}}}\n".toList).root ∧
    path.countP (·.kind == .ifStatement) = 3 ∧ heads false path ≤ nestingLimit := by
  have hcount : ((parse "package p\nfunc f(){if a{if b{}else if c{}}}\n".toList).ancestors 13).countP
      (·.kind == .ifStatement) = 2 + 1 := by decide +kernel
  obtain ⟨path, hchain, hroot, hcount⟩ := exists_path hcount
  exact ⟨path, hchain, hroot, hcount, (chains_limited _ path hchain hroot).1⟩

/-! ## Chains of any length -/

/-- Each piece of a text is read as one token of its kind, whatever was read before it. -/
def Reads (rest : Text) : List (Kind × Text) → Prop
  | [] => True
  | (_, []) :: _ => False
  | (k, c :: cs) :: ps => lexeme c (cs ++ (ps.flatMap Prod.snd ++ rest)) = (k, cs.length) ∧ Reads rest ps

/-- The tokens of pieces that follow one another, and the state behind them. -/
def lay (s : State) (offset : Nat) : List (Kind × Text) → List Token × State
  | [] => ([], s)
  | (k, t) :: ps =>
    let r := lay (s.step offset k t).2 (offset + t.size) ps
    ((s.step offset k t).1 ++ r.1, r.2)

lemma Reads.append {ps qs : List (Kind × Text)} {rest : Text} (hp : Reads (qs.flatMap Prod.snd ++ rest) ps)
    (hq : Reads rest qs) : Reads rest (ps ++ qs) := by
  induction ps with
  | nil => exact hq
  | cons p ps ih =>
    obtain ⟨k, _ | ⟨c, cs⟩⟩ := p
    · exact hp.elim
    · refine ⟨?_, ih hp.2⟩
      change lexeme c (cs ++ ((ps ++ qs).flatMap Prod.snd ++ rest)) = _
      rw [List.flatMap_append, List.append_assoc]
      exact hp.1

/-- A text that is written piece by piece is read piece by piece. -/
lemma scan_append_of_reads {ps : List (Kind × Text)} {rest : Text} (h : Reads rest ps) (s : State) (offset : Nat) :
    ∃ offset', scan s offset (ps.flatMap Prod.snd ++ rest) =
      (lay s offset ps).1 ++ scan (lay s offset ps).2 offset' rest := by
  induction ps generalizing s offset with
  | nil => exact ⟨offset, rfl⟩
  | cons p ps ih =>
    obtain ⟨k, _ | ⟨c, cs⟩⟩ := p
    · exact h.elim
    · obtain ⟨offset', hrest⟩ := ih h.2 (s.step offset k (c :: cs)).2 (offset + Text.size (c :: cs))
      refine ⟨offset', ?_⟩
      have htext : List.flatMap Prod.snd ((k, c :: cs) :: ps) ++ rest = c :: (cs ++ (ps.flatMap Prod.snd ++ rest)) := by
        rw [List.flatMap_cons, List.append_assoc]
        rfl
      rw [htext, scan, h.1]
      simp only [List.take_left, List.drop_left]
      rw [hrest]
      exact (List.append_assoc ..).symm

lemma scan_of_reads {ps : List (Kind × Text)} (h : Reads [] ps) (s : State) (offset : Nat)
    (hend : (lay s offset ps).2.pending = false) : scan s offset (ps.flatMap Prod.snd) = (lay s offset ps).1 := by
  obtain ⟨offset', hscan⟩ := scan_append_of_reads h s offset
  rw [List.append_nil] at hscan
  rw [hscan, scan, hend]
  exact List.append_nil _

/-- The pieces of the start of a function with an `if`. -/
def headPieces : List (Kind × Text) :=
  [(.packageKeyword, "package".toList), (.whitespace, " ".toList), (.identifier, "p".toList), (.newline, "\n".toList),
    (.funcKeyword, "func".toList), (.whitespace, " ".toList), (.identifier, "f".toList), (.leftParen, "(".toList),
    (.rightParen, ")".toList), (.leftBrace, "\x7b".toList), (.ifKeyword, "if".toList), (.whitespace, " ".toList),
    (.identifier, "a".toList), (.leftBrace, "\x7b".toList), (.rightBrace, "\x7d".toList)]

/-- The pieces of a further `if` behind `else`. -/
def linkPieces : List (Kind × Text) :=
  [(.elseKeyword, "else".toList), (.whitespace, " ".toList), (.ifKeyword, "if".toList), (.whitespace, " ".toList),
    (.identifier, "a".toList), (.leftBrace, "\x7b".toList), (.rightBrace, "\x7d".toList)]

/-- The pieces of the end of the function. -/
def tailPieces : List (Kind × Text) := [(.rightBrace, "\x7d".toList), (.newline, "\n".toList)]

/-- A function with an `if` and further ones, each behind the `else` of the one before. -/
def chainPieces (links : Nat) : List (Kind × Text) :=
  headPieces ++ ((List.replicate links linkPieces).flatten ++ tailPieces)

/-- The text of these pieces. -/
def chainText (links : Nat) : Text := (chainPieces links).flatMap Prod.snd

lemma reads_chain (links : Nat) : Reads [] (chainPieces links) := by
  have hlinks : Reads [] ((List.replicate links linkPieces).flatten ++ tailPieces) := by
    induction links with
    | zero => exact ⟨rfl, rfl, trivial⟩
    | succ links ih =>
      rw [List.replicate_succ, List.flatten_cons, List.append_assoc]
      exact Reads.append ⟨rfl, rfl, rfl, rfl, rfl, rfl, rfl, trivial⟩ ih
  exact Reads.append ⟨rfl, rfl, rfl, rfl, rfl, rfl, rfl, rfl, rfl, rfl, rfl, rfl, rfl, rfl, rfl, trivial⟩ hlinks

/-- The links of a chain go down without end: 257 `if` statements are on one path, and nothing is reported. -/
theorem chain_past_limit : (parse (chainText nestingLimit)).errors = [] ∧ ∃ path : List Node,
    path.IsChain (fun m n => n ∈ m.nodes) ∧ path.head? = some (parse (chainText nestingLimit)).root ∧
      path.countP (·.kind == .ifStatement) = nestingLimit + 1 := by
  have htokens : tokens (chainText nestingLimit) = (lay {} 0 (chainPieces nestingLimit)).1 :=
    scan_of_reads (reads_chain nestingLimit) {} 0 (by decide +kernel)
  have htree : parse (chainText nestingLimit) = file.tree .sourceFile Kind.isTrivia (chainText nestingLimit) 0
      (lay {} 0 (chainPieces nestingLimit)).1 := by rw [parse, htokens]
  have hchain : (parse (chainText nestingLimit)).errors = [] ∧
      ((parse (chainText nestingLimit)).ancestors 777).countP (·.kind == .ifStatement) = nestingLimit + 1 := by
    rw [htree]
    decide +kernel
  exact ⟨hchain.1, exists_path hchain.2⟩

end Source

end GoFront
