import Mathlib.Tactic.Common

/-!
# Statements about every place of a run

A run is a list: the tokens a lexer yields, the steps a builder takes. What holds at a place of it may depend on what
came before and on what comes behind; `Throughout` says that it holds at every place, and `throughout_cons` takes the
first place off, which is the step of an induction over the run.
-/

namespace GoFront

variable {α : Type} {P : List α → α → List α → Prop} {past xs : List α} {x : α}

/-- A statement about what came before, an item and what comes behind holds at every place of a run that follows a
past. -/
def Throughout (P : List α → α → List α → Prop) (past xs : List α) : Prop :=
  ∀ before x after, xs = before ++ x :: after → P (past ++ before) x after

lemma throughout_nil : Throughout P past [] := by
  rintro before x after h
  simp at h

lemma throughout_cons : Throughout P past (x :: xs) ↔ P past x xs ∧ Throughout P (past ++ [x]) xs := by
  constructor
  · intro h
    refine ⟨by simpa using h [] x xs rfl, fun before y after heq => ?_⟩
    subst heq
    simpa using h (x :: before) y after rfl
  · rintro ⟨hfirst, hrest⟩ (_ | ⟨z, before⟩) y after heq
    · obtain ⟨rfl, rfl⟩ := List.cons.inj heq
      simpa using hfirst
    · obtain ⟨rfl, rfl⟩ := List.cons.inj heq
      simpa using hrest before y after rfl

lemma Throughout.cons (h : P past x xs) (hrest : Throughout P (past ++ [x]) xs) : Throughout P past (x :: xs) :=
  throughout_cons.2 ⟨h, hrest⟩

end GoFront
