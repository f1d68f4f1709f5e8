import GoFront.Proofs.Parse.Source.File
import GoFront.Proofs.Parse.Template.Effort
import GoFront.Proofs.Parse.Wording
import GoFront.Proofs.Token.Fault
import GoFront.Proofs.Tree.Anchor

/-!
# Lexical errors are reported once

A token that stands for a lexical error is reported by one error of the tree: over the stretch of the token, in the
words of its kind, and against the nearest statement, declaration or template action around it. The tokens of both
lexers are sane, and no grammar finds an error that reads the same, so this holds of every tree of a source file and of
every tree of a template.
-/

namespace GoFront

/-- Every token of a tree that stands for a lexical error is reported once. -/
def SyntaxTree.ReportsFaults (t : SyntaxTree) : Prop :=
  ∀ l ∈ t.root.leaves, l.kind.isLexicalError = true → t.ReportsOnce l

lemma Problem.IsGrammar.isLexical_eq_false {e : Problem} (h : e.IsGrammar) : e.isLexical = false := by
  cases e
  case lexical => exact h.elim
  all_goals rfl

namespace Parser

variable {k : Kind} {isTrivia : Kind → Bool} {body : Parser Unit} {text : Text} {offset : Nat} {ts : List Token}
  {b : Frame} {a c : Nat} (hts : Token.Covers offset text ts) (hspan : b.span = ⟨offset, text.size⟩)
  (hfloor : b.floor = 0) (hfits : ∀ {ws}, Fits b ws body anyway a c) (ha : a ≤ lookLimit)
  (hc : b.base + c ≤ lookLimit)

include hts hspan hfloor hfits ha hc

variable (k isTrivia) in
/-- The lexical errors of a tree are those of its tokens, and the others are those that the parser found. -/
lemma errors_tree_of_fits :
    (body.tree k isTrivia text offset ts).errors.filter (·.problem.isLexical) =
        (body.tree k isTrivia text offset ts).root.element.faults [] ∧
      ((body.tree k isTrivia text offset ts).errors.filter (!·.problem.isLexical)).map SyntaxError.report =
        Sprout.errorsIn (body.run (.start isTrivia text offset ts)).2.grown.reverse :=
  Sprout.lexicalErrors_tree fun e he =>
    (proper_of_fits hts hspan hfloor hfits ha hc e he).grammar.isLexical_eq_false

lemma reportsFaults_of_fits (hsane : ∀ t ∈ ts, t.Sane) : (body.tree k isTrivia text offset ts).ReportsFaults := by
  obtain ⟨-, hcovers⟩ := tree?_eq_ok_of_fits k isTrivia hts hspan hfloor hfits ha hc
  obtain ⟨hlexical, hother⟩ := errors_tree_of_fits k isTrivia hts hspan hfloor hfits ha hc
  intro l hl hkind
  have hsaneLeaf : l.token.Sane := hsane _ (hcovers.tokens ▸ List.mem_map_of_mem hl)
  have hfilled : ∀ t ∈ ts, t.kind.isLexicalError = true → t.text ≠ [] := fun t ht => (hsane t ht).filled
  refine SyntaxTree.reportsOnce hcovers hts.tile hlexical hl hkind (fun e he hproblem => ?_) hfilled
  -- An error that is not lexical was found by the grammar.
  have hfound : e.report ∈ Sprout.errorsIn (body.run (.start isTrivia text offset ts)).2.grown.reverse := by
    rw [← hother]
    exact List.mem_map_of_mem (List.mem_filter.2 ⟨he, by rw [hproblem]; rfl⟩)
  have hgrammar := (proper_of_fits hts hspan hfloor hfits ha hc _ hfound).grammar
  exact hgrammar.message_ne hkind hsaneLeaf.single

/-- A tree without errors: nothing is reported in what the parser grew, and no token stands for a lexical error. -/
lemma quiet_of_fits (herrors : (body.tree k isTrivia text offset ts).errors = []) :
    Sprout.reportsIn (body.run (.start isTrivia text offset ts)).2.grown.reverse = [] ∧
      ∀ t ∈ ts, t.kind.isLexicalError = false := by
  obtain ⟨-, hcovers⟩ := tree?_eq_ok_of_fits k isTrivia hts hspan hfloor hfits ha hc
  obtain ⟨hlexical, hother⟩ := errors_tree_of_fits k isTrivia hts hspan hfloor hfits ha hc
  rw [herrors] at hlexical hother
  have htokens : ∀ t ∈ ts, t.kind.isLexicalError = false := by
    intro t ht
    rw [← hcovers.tokens] at ht
    obtain ⟨l, hl, rfl⟩ := List.mem_map.1 ht
    obtain ⟨⟨l, p⟩, hp, rfl⟩ := List.mem_map.1 ((Element.map_fst_placed [] _).symm ▸ hl :
      l ∈ ((body.tree k isTrivia text offset ts).root.element.placed []).map Prod.fst)
    have hnil := Element.faults_eq_flatMap [] (body.tree k isTrivia text offset ts).root.element
    rw [List.map_nil, ← hlexical] at hnil
    have hfaults := List.flatMap_eq_nil_iff.1 hnil.symm (l, p) hp
    by_contra hkind
    rw [Bool.not_eq_false] at hkind
    simp [Token.faults, hkind] at hfaults
  refine ⟨Sprout.reportsIn_eq_nil _ |>.2 ⟨hother.symm, fun w hw => Token.reports_eq_nil.2 (htokens _ ?_)⟩, htokens⟩
  -- A word that was grown is a token of the text.
  obtain ⟨taken, htaken, hgrown, -⟩ := (body.forward (.start isTrivia text offset ts)).moved
  have hwords : Sprout.wordsIn (body.run (.start isTrivia text offset ts)).2.grown.reverse = taken := hgrown
  rw [hwords] at hw
  have hmem : w ∈ (Words.ofTokens isTrivia ts).words := by
    rw [show (Words.ofTokens isTrivia ts).words = _ from htaken]
    exact List.mem_append_left _ hw
  have htoken := List.mem_map_of_mem (f := Word.token) hmem
  rw [Words.tokens_ofTokens] at htoken
  exact List.mem_of_mem_filter htoken

end Parser

/-- **Lexical errors are reported once and in the right place**: in the tree of every source file, and in the tree of
every stretch of a document that is parsed as a template, whatever the delimiters and the host language. -/
theorem lexical_errors_reported_once :
    (∀ text, (Source.parse text).ReportsFaults) ∧
    ∀ (d : Delimiters) (host : HostLanguage) (before piece after : Text), ∃ t,
      Template.parseRange? d host (before ++ piece ++ after) before.size (before.size + piece.size) = .ok t ∧
      t.ReportsFaults := by
  refine ⟨fun text => ?_, fun d host before piece after => ?_⟩
  · have hlimit : 2 + 66 * Source.nestingLimit + 68 ≤ Parser.lookLimit := by decide
    exact Parser.reportsFaults_of_fits (b := Source.topFrame ⟨0, text.size⟩) (Source.covers_tokens text) rfl rfl
      Source.fits_file (by decide) hlimit (Source.sane_scan {} 0 text)
  · have hlimit : 3 + 40 * Template.nestingLimit + 35 ≤ Parser.lookLimit := by decide
    refine ⟨_, Template.parseRange?_eq_ok d host before piece after, ?_⟩
    exact Parser.reportsFaults_of_fits (b := Template.topFrame ⟨before.size, piece.size⟩)
      (Template.covers_tokens d host before.size piece) rfl rfl Template.fits_document (by decide) hlimit
      (Template.sane_scan d host {} before.size piece)

end GoFront
