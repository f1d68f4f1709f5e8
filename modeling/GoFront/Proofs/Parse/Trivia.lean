import GoFront.Proofs.Parse.Source.Substance.File
import GoFront.Proofs.Parse.Template.Outcome

/-!
# Blanks and comments at the edges of nodes

In every tree the first token of a node below the root is no blank and no comment, and neither is the last one, unless
following last parts down from the node leads to a node without tokens, which recovery put there. A source file without
errors has no such nodes, so in its tree a node covers no blanks and no comments at its ends.
-/

namespace GoFront

/-- **Blanks and comments stand between nodes, not at their edges**, in the tree of every source file and of every
stretch of a document that is read as a template; and if a source file has no errors, no node of its tree is without
tokens, and every node but the root covers what it does without blanks and comments at both ends. -/
theorem trivia_placed :
    (∀ text, ∃ t, Source.parse? text = .ok t ∧ (∀ n ∈ t.root.descendants, n ≠ t.root → n.Edged Kind.isTrivia) ∧
      (t.errors = [] → ∀ n ∈ t.root.descendants, n.leaves ≠ [] ∧ (n ≠ t.root → n.trimmedSpan = n.span))) ∧
    ∀ d host before piece after, ∃ t,
      Template.parseRange? d host (before ++ piece ++ after) before.size (before.size + piece.size) = .ok t ∧
        ∀ n ∈ t.root.descendants, n ≠ t.root → n.Edged Template.isTrivia := by
  refine ⟨fun text => ?_, fun d host before piece after => ?_⟩
  · obtain ⟨hparse, hcovers⟩ := Source.covers_parse text
    obtain ⟨es, gap, hchildren, hgap, hrenders⟩ := Source.renders_parse text
    have hedged := Node.edged_of_renders hchildren hgap hrenders
    refine ⟨_, hparse, hedged, fun herrors n hn => ?_⟩
    have hfull := Source.leaves_ne_nil_parse herrors
    refine ⟨hfull n hn, fun hne => ?_⟩
    have hends : ¬n.TrailsOff := Node.not_trailsOff fun m hm => hfull m (Node.descendants_subset hn hm)
    exact Node.trimmedSpan_eq_span hcovers.tiled hn (hfull n hn) (hedged n hn hne).first fun l hl =>
      ((hedged n hn hne).last l hl).resolve_right hends
  · obtain ⟨es, gap, hchildren, hgap, hrenders⟩ := Template.renders_parse d host before.size piece
    exact ⟨_, Template.parseRange?_eq_ok d host before piece after, Node.edged_of_renders hchildren hgap hrenders⟩

end GoFront
