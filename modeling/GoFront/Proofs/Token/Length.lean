import GoFront.Token.Template
import Mathlib.Tactic.Common

/-!
# Tokens lie inside their text

The lexers count the characters of a token behind its first one and cut that many off the text. The counts never
go past the end of the text, so nothing is lost in the cutting: `Template.lexeme_le`.
-/

namespace GoFront

namespace Lexeme

variable {isMarker : Char → Bool} {k : Kind} {n : Nat} {cs : Text}

lemma run_le (p : Char → Bool) (cs : Text) : run p cs ≤ cs.length := (List.takeWhile_prefix p).length_le

lemma lt_length_of_drop {c : Char} {r : Text} (h : cs.drop n = c :: r) : n + r.length < cs.length := by
  have := congrArg List.length h
  simp only [List.length_drop, List.length_cons] at this
  omega

/-! ## Numbers -/

lemma exponent_le (isMarker : Char → Bool) (cs : Text) : exponent isMarker cs ≤ cs.length := by
  cases cs with
  | nil => exact Nat.le_refl 0
  | cons m cs =>
    simp only [exponent]
    split
    · cases cs with
      | nil => exact Nat.le_refl 1
      | cons s cs =>
        have hall := run_le isDigitPart (s :: cs)
        have hrest := run_le isDigitPart cs
        simp only [List.length_cons] at hall ⊢
        split <;> omega
    · exact Nat.zero_le _

lemma imaginary_le (h : n ≤ cs.length) : (imaginary k n cs).2 ≤ cs.length := by
  unfold imaginary
  split
  · next hi =>
    have := lt_length_of_drop hi
    dsimp only
    omega
  · exact h

lemma scaled_le (h : n ≤ cs.length) : (scaled isMarker k n cs).2 ≤ cs.length := by
  have he := exponent_le isMarker (cs.drop n)
  rw [List.length_drop] at he
  unfold scaled
  split
  · exact imaginary_le h
  · next hsome =>
    rw [hsome] at he
    exact imaginary_le (by omega)

lemma hexNumber_le (h : cs ≠ []) : (hexNumber cs).2 ≤ cs.length := by
  have hpos := List.length_pos_iff.2 h
  have hrun := run_le isHexPart (cs.drop 1)
  rw [List.length_drop] at hrun
  unfold hexNumber
  dsimp only
  split
  · next r hr =>
    have hpoint := lt_length_of_drop hr
    have hfraction := run_le isHexPart r
    exact scaled_le (by omega)
  · exact scaled_le (by omega)

lemma decimalNumber_le (cs : Text) : (decimalNumber cs).2 ≤ cs.length := by
  have hrun := run_le isDigitPart cs
  unfold decimalNumber
  dsimp only
  split
  · exact scaled_le hrun
  · next r _ hr =>
    have hpoint := lt_length_of_drop hr
    have hfraction := run_le isDigitPart r
    exact scaled_le (by omega)
  · exact scaled_le hrun

lemma number_le (first : Char) (cs : Text) : (number first cs).2 ≤ cs.length := by
  have hradix : ∀ c r, (imaginary .intNumber (1 + run isDigitPart r) (c :: r)).2 ≤ (c :: r).length := by
    intro c r
    have := run_le isDigitPart r
    exact imaginary_le (by simp only [List.length_cons]; omega)
  unfold number
  split
  · exact scaled_le (run_le _ _)
  · split
    · split
      iterate 2 exact hexNumber_le (List.cons_ne_nil _ _)
      iterate 4 exact hradix _ _
      exact decimalNumber_le _
    · exact decimalNumber_le _

/-! ## Literals and comments -/

lemma quoted_le (q : Char) (cs : Text) : (quoted q cs).2 ≤ cs.length := by
  fun_induction quoted q cs with
  | case5 | case7 =>
    rename_i ih
    simp only [List.length_cons, Nat.add_le_add_iff_right]
    exact ih
  | _ => simp

lemma raw_le (cs : Text) : (raw cs).2 ≤ cs.length := by
  unfold raw
  dsimp only
  split
  · exact run_le _ _
  · next hr =>
    have := lt_length_of_drop hr
    dsimp only
    omega

lemma blockComment_le (h : cs ≠ []) : (blockComment cs).2 ≤ cs.length := by
  have hpos := List.length_pos_iff.2 h
  unfold blockComment commentEnd?
  split
  · next hn =>
    obtain ⟨m, hm, rfl⟩ := Option.map_eq_some_iff.1 hn
    have := Text.add_length_le_of_find? hm
    simp only [List.length_drop, List.length_cons, List.length_nil] at this
    dsimp only
    omega
  · exact Nat.le_refl _

end Lexeme

namespace Template

lemma snd_ite_le {p : Prop} [Decidable p] {a b : Kind × Nat} {n : Nat} (ha : p → a.2 ≤ n) (hb : b.2 ≤ n) :
    (if p then a else b).2 ≤ n := by
  split
  · next h => exact ha h
  · exact hb

/-- An operator takes a second character only if there is one. -/
lemma operator_le (c : Char) (cs : Text) : (operator c cs.head?).2 ≤ cs.length := by
  have hsecond : ∀ {b : Char}, cs.head? = some b → 1 ≤ cs.length := by
    rintro b h
    obtain ⟨r, rfl⟩ := List.head?_eq_some_iff.1 h
    exact Nat.le_add_left 1 _
  have hzero : 0 ≤ cs.length := Nat.zero_le _
  refine snd_ite_le (fun _ => snd_ite_le hsecond hzero) (snd_ite_le ?_ (snd_ite_le (fun _ => snd_ite_le hsecond hzero)
    (snd_ite_le (fun _ => snd_ite_le hsecond hzero) (snd_ite_le (fun _ => ?_) (snd_ite_le ?_
      (snd_ite_le (fun _ => hzero) (snd_ite_le (fun _ => hzero) (snd_ite_le (fun _ => hzero) hzero))))))))
  · intro h
    exact hsecond (of_decide_eq_true (Bool.and_eq_true _ _ ▸ h).2)
  · dsimp only
    split
    · next h => exact hsecond h
    · exact hzero
  · intro h
    exact hsecond (of_decide_eq_true (Bool.and_eq_true _ _ ▸ h).2)

/-- A token of a directive lies inside the text. -/
lemma lexeme_le (c : Char) (cs : Text) : (lexeme c cs).2 ≤ cs.length := by
  have hrun := Lexeme.run_le Lexeme.isNamePart cs
  refine snd_ite_le (fun _ => Lexeme.run_le _ _) (snd_ite_le ?_ (snd_ite_le (fun _ => Lexeme.quoted_le _ _)
    (snd_ite_le (fun _ => Lexeme.quoted_le _ _) (snd_ite_le (fun _ => Lexeme.raw_le _)
      (snd_ite_le (fun _ => Lexeme.number_le _ _) (snd_ite_le ?_ ?_))))))
  · intro h
    refine Lexeme.blockComment_le ?_
    rintro rfl
    simp at h
  · intro _
    refine snd_ite_le (fun _ => Lexeme.number_le _ _) ?_
    cases cs with
    | nil => exact Nat.le_refl 0
    | cons d ds => exact Nat.succ_le_succ (Lexeme.number_le d ds)
  · exact snd_ite_le (fun _ => snd_ite_le (fun _ => hrun) (Nat.zero_le _))
      (snd_ite_le (fun _ => hrun) (snd_ite_le (fun _ => hrun) (operator_le c cs)))

end Template

end GoFront
