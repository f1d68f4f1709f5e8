import GoFront.Proofs.Parse.Source.Expression
import GoFront.Proofs.Parse.Source.Statement
import GoFront.Proofs.Parse.Source.Type
import GoFront.Proofs.Parse.Total

/-!
# Every source file has a tree

The levels of the grammar are tied together by induction: each level needs up to 66 looks behind its last
word in addition to those of the level below. With 256 levels that stays far below the limit, so no
assertion fails in a whole file, and the tree that comes out of it covers the text.
-/

namespace GoFront.Source

open GoFront.Parser

variable {b : Frame} {ws : List Word}

/-- The productions of a level fit if those of the level below do. -/
lemma sound_succ {g : Nested} (hg : g.Sound b) : Nested.Sound { b with base := b.base + 66 }
    { operand := operandInner g
      type := typeInner g
      statement := statementInner g
      literalValue := literalValue g } where
  operand h := .lift (c := 66) (takes_operandInner hg h).within
  type h := .lift (c := 66) (takes_typeInner hg h).within
  statement := (fits_statementInner hg).lift
  literalValue h := .lift (c := 66) (takes_literalValue hg (ne_nil_of_kindAt h (by decide))).within

/-- On every level the productions fit. -/
lemma sound_nested (b : Frame) (levels : Nat) :
    (nested levels).Sound { b with base := b.base + 2 + 66 * levels } := by
  induction levels with
  | zero => exact sound_bottom b
  | succ levels ih => exact sound_succ ih

/-- What the productions of the top level are given. -/
def topFrame (R : Span) : Frame := { span := R, base := 2 + 66 * nestingLimit }

lemma sound_top (R : Span) : top.Sound (topFrame R) := by
  have h := sound_nested { span := R, base := 0 } nestingLimit
  rwa [Nat.zero_add] at h

/-! ## Files -/

variable {R : Span}

lemma fits_packageClause : Fits b ws packageClause anyway 3 4 := by
  refine .ite (.isAt _) (fun h => ?_) fun _ => (Fits.expected _).within
  refine .andThen (a := 0) (c := 3) (.node ?_) fun _ _ _ => ((Fits.eat _).andPure fun _ _ => trivial).within
  exact .take (ne_nil_of_kindAt h (by decide)) fun _ _ => fits_name.within

lemma takes_skipToDeclaration (h : ws ≠ []) : Fits b ws skipToDeclaration never 2 6 := by
  refine .node (.andExpected (.take h fun _ _ => ?_))
  refine .repeatWhile (c := 0) fun _ _ => .ite ((Asks.isAt _).or ((asks_startsDeclaration 0).or
    ((Asks.isAt _).and (asks_startsDeclaration 1)))) (fun _ => .pure rfl) fun hend => ?_
  exact .take (ne_nil_of_kindAt rfl hend.1) fun _ _ => .pure trivial

lemma takes_misplacedPackage (h : ws ≠ []) : Fits b ws misplacedPackage never 1 1 :=
  .node (.andError trivial (.take h fun _ _ => ((Fits.eat _).andPure fun _ _ => trivial).within))

lemma takes_topLevel (h : ws ≠ []) : Fits (topFrame R) ws topLevel never 3 64 := by
  have hdeclaration : Fits (topFrame R) ws declarationOrSkip never 3 63 := by
    refine .peek ?_
    split
    · exact (takes_declare h fun _ => fits_importSpec).within
    · exact (takes_functionDeclaration (sound_top R) h).within
    · next h => exact (takes_declaration (sound_top R) (.inr (.inr h))).within
    · next h => exact (takes_declaration (sound_top R) (.inl h)).within
    · next h => exact (takes_declaration (sound_top R) (.inr (.inl h))).within
    · exact (Fits.advance h).within
    · exact (takes_misplacedPackage h).within
    · exact (takes_skipToDeclaration h).within
  exact hdeclaration.andThen fun _ _ _ => (Fits.eat _).discard.weaken

lemma fits_file : Fits (topFrame R) ws file anyway 7 68 := by
  refine fits_packageClause.seq fun _ ws' _ => .within (a := 4) (c := 68) ?_
  refine .repeatWhile (c := 64) fun _ _ => .ite (.isAt _) (fun _ => .pure rfl) fun hend => ?_
  exact (takes_topLevel (ne_nil_of_kindAt rfl hend)).andThen fun _ _ _ => .pure trivial

/-- Parsing a source file does not fail, and its tree covers the text. -/
lemma covers_parse (text : Text) :
    parse? text = .ok (parse text) ∧ (parse text).Covers .sourceFile ⟨0, text.size⟩ (tokens text) := by
  have hlimit : 2 + 66 * nestingLimit + 68 ≤ lookLimit := by decide
  exact Parser.tree?_eq_ok_of_fits .sourceFile Kind.isTrivia (b := topFrame ⟨0, text.size⟩) (covers_tokens text) rfl
    rfl fits_file (by decide) hlimit

/-- Every source file has a tree: no assertion fails on the way to it, its root covers the whole text, its
tokens are those of the lexer and spell the text, its nodes are tiled by their parts, and its errors lie in
the text and belong to its nodes. -/
theorem parse_total (text : Text) :
    parse? text = .ok (parse text) ∧
      (parse text).Covers .sourceFile ⟨0, text.size⟩ (tokens text) ∧
      (tokens text).flatMap Token.text = text := by
  obtain ⟨htree, hcovers⟩ := covers_parse text
  exact ⟨htree, hcovers, (covers_tokens text).chars⟩

end GoFront.Source
