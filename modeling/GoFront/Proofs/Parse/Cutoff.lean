import GoFront.Proofs.Parse.Source.Cutoff
import GoFront.Proofs.Parse.Template.Cutoff

/-!
# Where nesting is cut off

The parsers go down a fixed number of levels. A text that needs more of them has one error, however many more it needs:
what is nested too deep is skipped up to the closer that belongs to the last level entered, so that the closers behind it
meet the levels that they belong to.
-/

namespace GoFront

open GoFront.Parser

/-- The messages of a tree whose problems are those of nesting. -/
lemma messages_of_cutOff {t : SyntaxTree} {n levels : Nat} (h : t.errors.map SyntaxError.problem = cutOff n levels) :
    t.errors.map SyntaxError.message = if n ≤ levels then [] else ["nesting too deep"] := by
  have hmap : t.errors.map SyntaxError.message = (t.errors.map SyntaxError.problem).map Problem.message :=
    List.map_map.symm
  rw [hmap, h, cutOff]
  split <;> rfl

/-- **The cut-off is exact, and it costs one error**: a number in parentheses, a type behind stars and a body of braces
are read without errors up to the level where nesting is cut off, and with one error from there on, however deep they
are; so is a field in parentheses in a template, wherever it stands in a document and whatever the host language is. -/
theorem cut_off_exact (n : Nat) :
    (∃ t, Source.parse? (Source.parensText n) = .ok t ∧
      t.errors.map SyntaxError.message = if n ≤ 255 then [] else ["nesting too deep"]) ∧
    (∃ t, Source.parse? (Source.bracesText n) = .ok t ∧
      t.errors.map SyntaxError.message = if n ≤ 257 then [] else ["nesting too deep"]) ∧
    (∃ t, Source.parse? (Source.starsText n) = .ok t ∧
      t.errors.map SyntaxError.message = if n ≤ 255 then [] else ["nesting too deep"]) ∧
    ∀ host before after, ∃ t,
      Template.parseRange? .braces host (before ++ Template.parensAction n ++ after) before.size
        (before.size + (Template.parensAction n).size) = .ok t ∧
          t.errors.map SyntaxError.message = if n ≤ 256 then [] else ["nesting too deep"] := by
  have hlimit : cutOff (n + 1) Source.nestingLimit = cutOff n 255 := cutOff_succ n 255
  refine ⟨⟨_, (Source.covers_parse _).1, messages_of_cutOff ?_⟩, ⟨_, (Source.covers_parse _).1, messages_of_cutOff ?_⟩,
    ⟨_, (Source.covers_parse _).1, messages_of_cutOff ?_⟩, fun host before after =>
    ⟨_, Template.parseRange?_eq_ok .braces host before _ after, messages_of_cutOff ?_⟩⟩
  · rw [Source.problems_parensText, hlimit]
  · exact Source.problems_bracesText n
  · rw [Source.problems_starsText, hlimit]
  · exact Template.problems_parensAction before.size n

end GoFront
