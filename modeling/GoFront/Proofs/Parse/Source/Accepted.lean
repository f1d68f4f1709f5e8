import GoFront.Proofs.Parse.Source.Growth.File

/-!
# Source files without errors

A file whose tree has no errors is made of what a file should be made of (`Accepted`): nothing was skipped, and every
bracket is closed by its own kind. Every production that takes a word closes the bracket that the word opens, or it
reports an error; that is the form of what the grammar grows (`Leaves`), which the tree inherits through its stem.
-/

namespace GoFront.Source

/-- The tree of a file in which nothing is wrong. -/
structure Accepted (t : SyntaxTree) : Prop where
  /-- No node stands for a stretch that was skipped. -/
  sound : ∀ n ∈ t.root.descendants, n.kind ≠ .error
  /-- No token stands for a lexical error. -/
  lexed : ∀ l ∈ t.root.leaves, l.kind.isLexicalError = false
  /-- The text starts with the package keyword and a name, blanks and comments apart. -/
  named : ((t.root.leaves.map Leaf.kind).filter (!·.isTrivia)).take 2 = [.packageKeyword, .identifier]
  /-- The nodes at the top level are the package clause and, behind it, declarations. -/
  items : ∃ c ds, t.root.nodes = c :: ds ∧ c.kind = .packageClause ∧ ∀ d ∈ ds, isTopLevel d.kind = true
  /-- The brackets are closed in the order in which they are opened, each by its own kind. -/
  balanced : nest [] (t.root.leaves.map Leaf.kind) = some []

/-- Blanks and comments are no brackets. -/
lemma nest_filter (st ks : List Kind) : nest st (ks.filter (!·.isTrivia)) = nest st ks := by
  induction ks generalizing st with
  | nil => rfl
  | cons k ks ih =>
    cases hk : k.isTrivia with
    | true =>
      have hnone : isOpening k = false ∧ opening? k = none := by
        revert hk
        cases k <;> decide
      rw [List.filter_cons_of_neg (by simp [hk]), ih, nest, hnone.1, if_neg Bool.false_ne_true, hnone.2]
    | false =>
      rw [List.filter_cons_of_pos (by simp [hk]), nest, nest]
      split
      · exact ih _
      · split
        · exact ih _
        · split
          · exact ih _
          · rfl

/-- The kinds of the nodes among some stems. -/
def branchKinds (ps : List Stem) : List Kind := ps.filterMap fun
  | .leaf _ => none
  | .branch k _ => some k

lemma kind_nodes (n : Node) : n.nodes.map Node.kind = branchKinds (Element.stemsIn Kind.isTrivia n.children) := by
  rw [Element.stemsIn_eq_map, branchKinds, List.filterMap_map, n.nodes_eq_parts Kind.isTrivia, List.map_filterMap,
    Node.parts]
  congr 1
  funext e
  cases e <;> rfl

/-- The nodes among the items of a file are declarations. -/
lemma isTopLevel_of_items {is : List Sprout} (h : ∀ x ∈ is, IsItem x) :
    ∀ k ∈ branchKinds (Sprout.stemsIn is), isTopLevel k = true := by
  induction is with
  | nil => simp [Sprout.stemsIn, branchKinds]
  | cons x is ih =>
    obtain ⟨hx, his⟩ := List.forall_mem_cons.1 h
    rw [Sprout.stemsIn, branchKinds, List.filterMap_append]
    refine List.forall_mem_append.2 ⟨?_, ih his⟩
    cases hx with
    | word => simp [Sprout.stems]
    | declaration hk => simpa [Sprout.stems] using hk

/-- Where a text is read to its end, the words that were grown are its significant tokens. -/
lemma kinds_of_rest_nil {text : Text} {ts : List Token} {body : Parser Unit}
    (hrest : (body.run (.start Kind.isTrivia text 0 ts)).2.rest = []) :
    (ts.map Token.kind).filter (!·.isTrivia) =
      kindsIn (body.run (.start Kind.isTrivia text 0 ts)).2.grown.reverse := by
  obtain ⟨taken, htaken, hgrown, -⟩ := (body.forward (.start Kind.isTrivia text 0 ts)).moved
  rw [hrest, List.append_nil] at htaken
  have hwords : Sprout.wordsIn (body.run (.start Kind.isTrivia text 0 ts)).2.grown.reverse = taken := hgrown
  have htokens : (Words.ofTokens Kind.isTrivia ts).words.map Word.token = ts.filter fun t => !t.kind.isTrivia :=
    Words.tokens_ofTokens ts
  rw [show (Words.ofTokens Kind.isTrivia ts).words = _ from htaken] at htokens
  have hkinds := congrArg (List.map Token.kind) htokens
  rw [List.map_map] at hkinds
  rw [kindsIn, hwords, List.filter_map]
  exact hkinds.symm

/-- **Nothing is accepted silently**: if the tree of a text has no errors, then nothing in the text was skipped, the
text starts with a package clause, declarations follow, and the brackets are balanced. -/
theorem accepted_of_errors_nil (text : Text) (h : (parse text).errors = []) : Accepted (parse text) := by
  obtain ⟨hclean, hlexed⟩ := quiet_of_errors_nil h
  have hcovers := (covers_parse text).2
  obtain ⟨hrest, hfiled⟩ := filed_file_run text
  have hwords := kinds_of_rest_nil hrest
  have hleaves : (parse text).root.leaves.map Leaf.kind = (tokens text).map Token.kind := by
    rw [← hcovers.tokens, List.map_map]
    rfl
  rw [← hleaves] at hwords
  obtain ⟨c, is, hgrown, hclause, his⟩ := hfiled.items hclean
  have hsplit : (file.run (.start Kind.isTrivia text 0 (tokens text))).2.grown.reverse = c :: is.reverse := by
    rw [hgrown, List.reverse_append, List.reverse_singleton, List.singleton_append]
  refine ⟨?_, ?_, ?_, ?_, ?_⟩
  · exact fun n hn => (clean_parse h n hn).1.sound
  · intro l hl
    exact hlexed _ (hcovers.tokens ▸ List.mem_map_of_mem hl)
  · obtain ⟨hw, hw'⟩ := hclause
    rw [hwords, hsplit]
    simp [kindsIn, Sprout.wordsIn, Sprout.words, hw, hw']
  · have hkinds := kind_nodes (parse text).root
    obtain ⟨-, -⟩ := hclause
    rw [stemsIn_parse, hsplit] at hkinds
    obtain ⟨n, ns, hnodes, hn, hns⟩ := List.map_eq_cons_iff.1 hkinds
    replace hns : ns.map Node.kind = branchKinds (Sprout.stemsIn is.reverse) := hns
    refine ⟨n, ns, hnodes, hn, fun d hd => ?_⟩
    have hitems : ∀ x ∈ is.reverse, IsItem x := fun x hx => his x (List.mem_reverse.1 hx)
    exact isTopLevel_of_items hitems _ (hns ▸ List.mem_map_of_mem hd)
  · rw [← nest_filter, hwords]
    exact hfiled.leaves.nested hclean

/-- A file with one function. -/
theorem accepted_of_errors_nil_function : (parse "package p\n\nfunc f() { g(1) }\n".toList).errors = [] ∧
    Accepted (parse "package p\n\nfunc f() { g(1) }\n".toList) := by
  have herrors : (parse "package p\n\nfunc f() { g(1) }\n".toList).errors = [] := by decide +kernel
  exact ⟨herrors, accepted_of_errors_nil _ herrors⟩

end GoFront.Source
