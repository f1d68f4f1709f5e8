import GoFront.Proofs.Parse.Fault
import GoFront.Proofs.Parse.Template.Acceptance
import GoFront.Proofs.Parse.Template.Growth
import GoFront.Proofs.Tree.Rendering

/-!
# What grows from a template and its tree

The tree of a text renders what the grammar grows from the tokens of the text (`renders_parse`), all of whose words it
takes (`kinds_grownOf`). Its errors are the lexical ones, which are told in words of their own
(`prefix_of_isLexical`), and those that grew (`report_parse`).
-/

namespace GoFront

namespace Template

open GoFront.Parser Sprout

variable (d : Delimiters) (host : HostLanguage) (offset : Nat) (text : Text)

/-- The tree of a text renders what grows from the text. -/
lemma renders_parse : ∃ es gap, (parse d host offset text).root.children = es ++ gap ∧ Element.IsGap isTrivia gap ∧
    Renders isTrivia (attached (parse d host offset text).errors) (grownOf d host offset text) es := by
  have hlimit : 3 + 40 * nestingLimit + 35 ≤ lookLimit := by decide
  obtain ⟨es, gap, hchildren, hgap, hrenders, -⟩ := Parser.renders_tree (k := .template) rfl
    (row_grownOf d host offset text).1 fun e he => (proper_of_fits (b := topFrame ⟨offset, text.size⟩)
      (covers_tokens d host offset text) rfl rfl fits_document (by decide) hlimit e he).grammar.isLexical_eq_false
  rw [parse, grownOf]
  exact ⟨es, gap, hchildren, hgap, hrenders⟩

/-- The words that grow from a text are all that it has. -/
lemma kinds_grownOf : (wordsIn (grownOf d host offset text)).map Word.kind = significantKinds (tokens d host offset text) := by
  obtain ⟨taken, htaken, hgrown, -⟩ :=
    ((document d).forward (.start isTrivia text offset (tokens d host offset text))).moved
  rw [(row_grownOf d host offset text).1, List.append_nil] at htaken
  have hwords : wordsIn (grownOf d host offset text) = taken := hgrown
  rw [hwords, ← htaken]
  exact kinds_start text offset _

/-! ## Errors -/

/-- The errors of the tree are its lexical errors, which are those of its tokens, and those that grew. -/
lemma errors_parse : (parse d host offset text).errors.filter (·.problem.isLexical) =
      (parse d host offset text).root.element.faults [] ∧
    ((parse d host offset text).errors.filter (!·.problem.isLexical)).map SyntaxError.report =
      errorsIn (grownOf d host offset text) := by
  have hlimit : 3 + 40 * nestingLimit + 35 ≤ lookLimit := by decide
  exact errors_tree_of_fits .template isTrivia (b := topFrame ⟨offset, text.size⟩) (covers_tokens d host offset text) rfl
    rfl fits_document (by decide) hlimit

variable {d host offset text} {e : SyntaxError} (he : e ∈ (parse d host offset text).errors)

include he

/-- A lexical error of the tree is that of a token of the text. -/
lemma exists_token_of_isLexical (hlexical : e.problem.isLexical = true) :
    ∃ t : Token, t.Sane ∧ t.kind.isLexicalError = true ∧ e.problem = .lexical t.kind t.text := by
  have hmem : e ∈ (parse d host offset text).root.element.faults [] :=
    (errors_parse d host offset text).1 ▸ List.mem_filter.2 ⟨he, hlexical⟩
  have hall := Element.faults_eq_flatMap [] (parse d host offset text).root.element
  rw [List.map_nil] at hall
  rw [hall] at hmem
  obtain ⟨⟨l, q⟩, hl, hel⟩ := List.mem_flatMap.1 hmem
  have hleaf : l ∈ (parse d host offset text).root.leaves := by
    have hmap := List.mem_map_of_mem (f := Prod.fst) hl
    rwa [Element.map_fst_placed] at hmap
  refine ⟨l.token, sane_scan d host {} offset text _ ?_, ?_⟩
  · have hmap := List.mem_map_of_mem (f := Leaf.token) hleaf
    rwa [(parse?_eq_ok d host offset text).2.tokens] at hmap
  · unfold Token.faults at hel
    split at hel
    · next hk =>
      obtain rfl := List.mem_singleton.1 hel
      exact ⟨hk, rfl⟩
    · exact nomatch hel

/-- Lexical errors of the tree have other messages than those of the grammar. -/
lemma message_ne_of_isLexical (hlexical : e.problem.isLexical = true) {p : Problem} (hp : p.IsGrammar) :
    e.message ≠ p.message := by
  obtain ⟨t, hsane, hk, hproblem⟩ := exists_token_of_isLexical he hlexical
  rw [SyntaxError.message, hproblem]
  exact (hp.message_ne hk hsane.single).symm

/-- Lexical errors of the tree start with words of their own. -/
lemma prefix_of_isLexical (hlexical : e.problem.isLexical = true) :
    "unterminated ".toList <+: e.message.toList ∨ "unexpected character ".toList <+: e.message.toList := by
  obtain ⟨t, hsane, hk, hproblem⟩ := exists_token_of_isLexical he hlexical
  have hmessage : e.message = Problem.lexicalMessage t.kind t.text := congrArg Problem.message hproblem
  rw [hmessage]
  rcases Problem.lexicalMessage_cases hk hsane.single with ⟨s, -, hs⟩ | ⟨c, hc⟩
  · rw [hs]
    exact .inl (Problem.prefix_append (List.prefix_refl _))
  · rw [hc]
    exact .inr (Problem.prefix_append (List.prefix_refl _))

end Template

end GoFront
