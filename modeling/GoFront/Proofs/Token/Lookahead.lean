import GoFront.Proofs.Token.Modes

/-!
# How far the lexer looks

A token depends on its own characters and on few behind it. If a text is cut off behind a token and one more
character, the token stays what it was: `Template.lexeme_append`. The exception is a number in front of two
points, which needs both of them: if the text is cut off between the points, the number takes the first one
(`Template.lexeme_cut`).
-/

namespace GoFront

namespace Text

lemma isPrefixOf_append {pat x : Text} (y : Text) (h : pat.length ≤ x.length) :
    pat.isPrefixOf (x ++ y) = pat.isPrefixOf x := by
  rw [Bool.eq_iff_iff, List.isPrefixOf_iff_prefix, List.isPrefixOf_iff_prefix]
  constructor
  · intro hp
    exact List.prefix_of_prefix_length_le hp (List.prefix_append x y) h
  · intro hp
    exact hp.trans (List.prefix_append x y)

/-- What does not start a text does not start a piece cut off from its front. -/
lemma isPrefixOf_eq_false {pat x y : Text} (h : pat.isPrefixOf (x ++ y) = false) : pat.isPrefixOf x = false := by
  rw [← Bool.not_eq_true, List.isPrefixOf_iff_prefix] at h ⊢
  exact fun hp => h (hp.trans (List.prefix_append x y))

/-- An occurrence is one. -/
lemma isPrefixOf_drop_of_find? {pat t : Text} {n : Nat} (h : find? pat t = some n) :
    pat.isPrefixOf (t.drop n) = true := by
  induction t generalizing n with
  | nil =>
    rw [find?] at h
    split at h
    · next he => simp [List.isEmpty_iff.1 he]
    · simp at h
  | cons c t ih =>
    rw [find?] at h
    split at h
    · next hp =>
      obtain rfl := Option.some.inj h
      simpa using hp
    · obtain ⟨m, hm, rfl⟩ := Option.map_eq_some_iff.1 h
      simpa using ih hm

/-- No occurrence comes before the first. -/
lemma find?_le {pat t : Text} {n q : Nat} (h : find? pat t = some n) (hq : pat.isPrefixOf (t.drop q) = true) :
    n ≤ q := by
  induction t generalizing n q with
  | nil =>
    rw [find?] at h
    split at h
    · obtain rfl := Option.some.inj h
      exact Nat.zero_le q
    · simp at h
  | cons c t ih =>
    rw [find?] at h
    split at h
    · obtain rfl := Option.some.inj h
      exact Nat.zero_le q
    · next hp =>
      obtain ⟨m, hm, rfl⟩ := Option.map_eq_some_iff.1 h
      cases q with
      | zero => exact absurd hq hp
      | succ q => exact Nat.succ_le_succ (ih hm (by simpa using hq))

/-- An occurrence with none before it is the first. -/
lemma find?_of_first {pat t : Text} {n : Nat} (hp : pat.isPrefixOf (t.drop n) = true)
    (hfirst : ∀ q, pat.isPrefixOf (t.drop q) = true → n ≤ q) : find? pat t = some n := by
  induction t generalizing n with
  | nil =>
    rw [List.drop_nil, List.isPrefixOf_iff_prefix, List.prefix_nil] at hp
    subst hp
    obtain rfl : n = 0 := Nat.le_zero.1 (hfirst 0 rfl)
    rfl
  | cons c t ih =>
    rw [find?]
    cases n with
    | zero => rw [if_pos (by simpa using hp)]
    | succ n =>
      have hno : ¬ pat.isPrefixOf (c :: t) = true := fun h => absurd (hfirst 0 h) (by omega)
      have hrest : find? pat t = some n := by
        refine ih (by simpa using hp) fun q hq => ?_
        exact Nat.le_of_succ_le_succ (hfirst (q + 1) (by simpa using hq))
      rw [if_neg hno, hrest]
      rfl

/-- The first occurrence is found in every piece that holds it. -/
lemma find?_append {pat x y : Text} {n : Nat} (h : find? pat (x ++ y) = some n)
    (hn : n + pat.length ≤ x.length) : find? pat x = some n := by
  induction x generalizing n with
  | nil =>
    have hpat : pat = [] := List.length_eq_zero_iff.1 (by simp only [List.length_nil] at hn; omega)
    have hzero : n = 0 := by simp only [List.length_nil] at hn; omega
    simp [find?, hpat, hzero]
  | cons c x ih =>
    simp only [List.cons_append, find?] at h ⊢
    have hle : pat.length ≤ (c :: x).length := by omega
    rw [← List.cons_append, isPrefixOf_append y hle] at h
    split at h
    · next hp => rwa [if_pos hp]
    · next hp =>
      obtain ⟨m, hm, rfl⟩ := Option.map_eq_some_iff.1 h
      rw [if_neg hp, ih hm (by simp only [List.length_cons] at hn; omega)]
      rfl

/-- What does not occur in a text does not occur in a piece cut off from its front. -/
lemma find?_eq_none {pat x y : Text} (h : find? pat (x ++ y) = none) : find? pat x = none := by
  induction x with
  | nil =>
    cases pat with
    | nil => cases y <;> simp [find?] at h
    | cons p pat => rfl
  | cons c x ih =>
    rw [List.cons_append, find?] at h
    split at h
    · simp at h
    · next hp =>
      rw [Bool.not_eq_true, ← List.cons_append] at hp
      rw [find?, isPrefixOf_eq_false hp, ih (Option.map_eq_none_iff.1 h)]
      rfl

/-- Inside a piece, the text goes on as the piece does. -/
lemma exists_drop_append {x : Text} {n : Nat} (y : Text) (h : n < x.length) :
    ∃ c r, x.drop n = c :: r ∧ (x ++ y).drop n = c :: (r ++ y) := by
  refine ⟨x[n], x.drop (n + 1), List.drop_eq_getElem_cons h, ?_⟩
  rw [List.drop_append_of_le_length (Nat.le_of_lt h), List.drop_eq_getElem_cons h, List.cons_append]

end Text

namespace Lexeme

variable {x y : Text} {k : Kind} {n : Nat} {isMarker : Char → Bool}

lemma run_append {p : Char → Bool} (h : run p (x ++ y) ≤ x.length) : run p x = run p (x ++ y) := by
  unfold run at h ⊢
  rw [List.takeWhile_append] at h ⊢
  split
  · next hall =>
    rw [if_pos hall, List.length_append] at h
    rw [List.length_append]
    omega
  · rfl

/-! ## Numbers -/

lemma exponent_append (h : exponent isMarker (x ++ y) ≤ x.length) :
    exponent isMarker x = exponent isMarker (x ++ y) := by
  cases x with
  | nil => exact (Nat.le_zero.1 h).symm
  | cons m x =>
    simp only [List.cons_append, exponent] at h ⊢
    split
    · next hm =>
      rw [if_pos hm] at h
      cases x with
      | nil =>
        -- the marker is the last character of the piece, and the exponent takes nothing behind it
        simp only [List.nil_append, List.length_singleton] at h ⊢
        rcases y with _ | ⟨s, y⟩
        · rfl
        · simp only at h ⊢
          split at h
          · omega
          · next hs =>
            rw [if_neg hs]
            omega
      | cons s x =>
        simp only [List.cons_append] at h ⊢
        split
        · next hs =>
          rw [if_pos hs] at h
          have hrun : run isDigitPart (x ++ y) ≤ x.length := by
            simp only [List.length_cons] at h
            omega
          rw [run_append hrun]
        · next hs =>
          rw [if_neg hs] at h
          have hrun : run isDigitPart (s :: x ++ y) ≤ (s :: x).length := by
            simp only [List.cons_append, List.length_cons] at h ⊢
            omega
          rw [run_append hrun, List.cons_append]
    · rfl

lemma le_imaginary (k : Kind) (n : Nat) (cs : Text) : n ≤ (imaginary k n cs).2 := by
  unfold imaginary
  split
  · exact Nat.le_succ n
  · exact Nat.le_refl n

lemma imaginary_of_unit {cs r : Text} (h : cs.drop n = 'i' :: r) : imaginary k n cs = (.imaginaryNumber, n + 1) := by
  simp [imaginary, h]

lemma imaginary_of_noUnit {cs : Text} (h : ∀ r, cs.drop n ≠ 'i' :: r) : imaginary k n cs = (k, n) := by
  unfold imaginary
  split
  · next r hr => exact absurd hr (h r)
  · rfl

lemma imaginary_append (h : (imaginary k n (x ++ y)).2 ≤ x.length) : imaginary k n x = imaginary k n (x ++ y) := by
  rcases Nat.lt_or_eq_of_le (Nat.le_trans (le_imaginary k n (x ++ y)) h) with hn | rfl
  · obtain ⟨c, r, hx, hxy⟩ := Text.exists_drop_append y hn
    by_cases hc : c = 'i'
    · subst hc
      rw [imaginary_of_unit hx, imaginary_of_unit hxy]
    · rw [imaginary_of_noUnit (by simp [hx, hc]), imaginary_of_noUnit (by simp [hxy, hc])]
  · rw [imaginary_of_noUnit (by simp)]
    by_cases hu : ∃ r, (x ++ y).drop x.length = 'i' :: r
    · obtain ⟨r, hr⟩ := hu
      rw [imaginary_of_unit hr] at h
      omega
    · rw [imaginary_of_noUnit (not_exists.1 hu)]

lemma le_scaled (isMarker : Char → Bool) (k : Kind) (n : Nat) (cs : Text) :
    n + exponent isMarker (cs.drop n) ≤ (scaled isMarker k n cs).2 := by
  unfold scaled
  split
  · next he =>
    rw [he]
    exact le_imaginary k n cs
  · next e he =>
    rw [he]
    exact le_imaginary _ _ cs

lemma scaled_append (h : (scaled isMarker k n (x ++ y)).2 ≤ x.length) :
    scaled isMarker k n x = scaled isMarker k n (x ++ y) := by
  have hle := le_scaled isMarker k n (x ++ y)
  have hn : n ≤ x.length := by omega
  rw [List.drop_append_of_le_length hn] at hle
  have he : exponent isMarker (x.drop n) = exponent isMarker (x.drop n ++ y) := by
    apply exponent_append
    rw [List.length_drop]
    omega
  unfold scaled at h ⊢
  rw [List.drop_append_of_le_length hn] at h ⊢
  rw [he]
  cases hz : exponent isMarker (x.drop n ++ y) with
  | zero =>
    rw [hz] at h
    exact imaginary_append h
  | succ e =>
    rw [hz] at h
    exact imaginary_append h

lemma hexNumber_of_point {cs r : Text} (hm : run isHexPart (cs.drop 1) = n) (h : cs.drop (1 + n) = '.' :: r) :
    hexNumber cs = scaled isBinaryMarker .floatNumber (1 + n + 1 + run isHexPart r) cs := by
  unfold hexNumber
  rw [hm]
  dsimp only
  split
  · next hr =>
    rw [h] at hr
    obtain ⟨-, rfl⟩ := List.cons.inj hr
    rfl
  · next hr => exact absurd h (hr r)

lemma hexNumber_of_noPoint {cs : Text} (hm : run isHexPart (cs.drop 1) = n) (h : ∀ r, cs.drop (1 + n) ≠ '.' :: r) :
    hexNumber cs = scaled isBinaryMarker .intNumber (1 + n) cs := by
  unfold hexNumber
  rw [hm]
  dsimp only
  split
  · next r hr => exact absurd hr (h r)
  · rfl

lemma le_hexNumber (cs : Text) : 1 + run isHexPart (cs.drop 1) ≤ (hexNumber cs).2 := by
  unfold hexNumber
  dsimp only
  split
  · next r _ =>
    have := le_scaled isBinaryMarker .floatNumber (1 + run isHexPart (cs.drop 1) + 1 + run isHexPart r) cs
    omega
  · exact Nat.le_of_add_right_le (le_scaled isBinaryMarker .intNumber _ cs)

lemma hexNumber_append (h : (hexNumber (x ++ y)).2 ≤ x.length) : hexNumber x = hexNumber (x ++ y) := by
  obtain ⟨m, hm⟩ : ∃ m, run isHexPart ((x ++ y).drop 1) = m := ⟨_, rfl⟩
  have hle : 1 + m ≤ x.length := by
    have := le_hexNumber (x ++ y)
    omega
  have hrun : run isHexPart (x.drop 1) = m := by
    rw [List.drop_append_of_le_length (by omega)] at hm
    rw [← hm]
    apply run_append
    rw [hm, List.length_drop]
    omega
  by_cases hp : ∃ r, (x ++ y).drop (1 + m) = '.' :: r
  · obtain ⟨r', hxy'⟩ := hp
    rw [hexNumber_of_point hm hxy'] at h ⊢
    have hlt := le_scaled isBinaryMarker .floatNumber (1 + m + 1 + run isHexPart r') (x ++ y)
    obtain ⟨c, r, hx, hxy⟩ := Text.exists_drop_append y (show 1 + m < x.length by omega)
    obtain ⟨rfl, rfl⟩ := List.cons.inj (hxy.symm.trans hxy')
    have hr : r.length + (1 + m) + 1 = x.length := by
      have := congrArg List.length hx
      simp only [List.length_drop, List.length_cons] at this
      omega
    rw [hexNumber_of_point hrun hx, run_append (show run isHexPart (r ++ y) ≤ r.length by omega)]
    exact scaled_append h
  · have hx : ∀ r, x.drop (1 + m) ≠ '.' :: r := by
      intro r hr
      rw [List.drop_append_of_le_length hle, hr] at hp
      exact hp ⟨r ++ y, rfl⟩
    rw [hexNumber_of_noPoint hm (not_exists.1 hp)] at h ⊢
    rw [hexNumber_of_noPoint hrun hx]
    exact scaled_append h

lemma decimalNumber_of_points {cs r : Text} (hm : run isDigitPart cs = n) (h : cs.drop n = '.' :: '.' :: r) :
    decimalNumber cs = scaled isDecimalMarker .intNumber n cs := by
  unfold decimalNumber
  rw [hm]
  dsimp only
  split
  · rfl
  · next hr => exact absurd (h ▸ hr) (by simp_all)
  · rfl

lemma decimalNumber_of_point {cs r : Text} (hm : run isDigitPart cs = n) (h : cs.drop n = '.' :: r)
    (hr : ∀ r', r ≠ '.' :: r') :
    decimalNumber cs = scaled isDecimalMarker .floatNumber (n + 1 + run isDigitPart r) cs := by
  unfold decimalNumber
  rw [hm]
  dsimp only
  split
  · next r' hr' =>
    rw [h] at hr'
    exact absurd (List.cons.inj hr').2 (hr r')
  · next hr' =>
    rw [h] at hr'
    obtain ⟨-, rfl⟩ := List.cons.inj hr'
    rfl
  · next hr' => exact absurd h (hr' r)

lemma decimalNumber_of_noPoint {cs : Text} (hm : run isDigitPart cs = n) (h : ∀ r, cs.drop n ≠ '.' :: r) :
    decimalNumber cs = scaled isDecimalMarker .intNumber n cs := by
  unfold decimalNumber
  rw [hm]
  dsimp only
  split
  · rfl
  · next r _ hr => exact absurd hr (h r)
  · rfl

lemma le_decimalNumber (cs : Text) : run isDigitPart cs ≤ (decimalNumber cs).2 := by
  unfold decimalNumber
  dsimp only
  split
  · exact Nat.le_of_add_right_le (le_scaled isDecimalMarker .intNumber _ cs)
  · next r _ _ =>
    have := le_scaled isDecimalMarker .floatNumber (run isDigitPart cs + 1 + run isDigitPart r) cs
    omega
  · exact Nat.le_of_add_right_le (le_scaled isDecimalMarker .intNumber _ cs)

/-- Digits that fill the piece take no point behind it. -/
lemma decimalNumber_append_of_digits (hm : run isDigitPart (x ++ y) = x.length)
    (h : (decimalNumber (x ++ y)).2 ≤ x.length) : decimalNumber x = decimalNumber (x ++ y) := by
  have hrun : run isDigitPart x = x.length := by
    rw [← hm]
    exact run_append hm.le
  rw [decimalNumber_of_noPoint hrun (by simp)]
  by_cases hp : ∃ r, (x ++ y).drop x.length = '.' :: r
  · obtain ⟨r, hr⟩ := hp
    by_cases hb : ∃ r', r = '.' :: r'
    · obtain ⟨r', rfl⟩ := hb
      rw [decimalNumber_of_points hm hr] at h ⊢
      exact scaled_append h
    · rw [decimalNumber_of_point hm hr (not_exists.1 hb)] at h
      have := le_scaled isDecimalMarker .floatNumber (x.length + 1 + run isDigitPart r) (x ++ y)
      omega
  · rw [decimalNumber_of_noPoint hm (not_exists.1 hp)] at h ⊢
    exact scaled_append h

/-- The point that is the last character of the piece is taken, whether it was the first of two points or not. -/
lemma decimalNumber_cut_of_point {m : Nat} (hm : run isDigitPart (x ++ y) = m) (hrun : run isDigitPart x = m)
    (hx : x.drop m = ['.']) (h : (decimalNumber (x ++ y)).2 ≤ x.length) : decimalNumber x = decimalNumber (x ++ y) ∨
    x.drop (decimalNumber (x ++ y)).2 = ['.'] ∧ (decimalNumber x).2 = x.length := by
  have hlen : m + 1 = x.length := by
    have := congrArg List.length hx
    simp only [List.length_drop, List.length_singleton] at this
    omega
  have hxy : (x ++ y).drop m = '.' :: y := by
    rw [List.drop_append_of_le_length (by omega), hx]
    rfl
  rcases y with _ | ⟨b, y⟩
  · simp
  by_cases hb : b = '.'
  · subst hb
    right
    have hlast : (scaled isDecimalMarker .intNumber m (x ++ '.' :: y)).2 = m := by
      simp [scaled, imaginary, exponent, hxy, isDecimalMarker]
    rw [decimalNumber_of_points hm hxy, hlast, decimalNumber_of_point hrun hx (by simp)]
    exact ⟨hx, by simp [scaled, imaginary, exponent, run, hlen]⟩
  · left
    rw [decimalNumber_of_point hm hxy (by simp [hb])] at h ⊢
    have hnone : run isDigitPart (b :: y) = 0 := by
      have := le_scaled isDecimalMarker .floatNumber (m + 1 + run isDigitPart (b :: y)) (x ++ b :: y)
      omega
    rw [hnone] at h ⊢
    rw [decimalNumber_of_point hrun hx (by simp)]
    exact scaled_append h

/-- A decimal number in front of two points needs both of them. If the second is cut off, it takes the first one. -/
lemma decimalNumber_cut (h : (decimalNumber (x ++ y)).2 ≤ x.length) : decimalNumber x = decimalNumber (x ++ y) ∨
    x.drop (decimalNumber (x ++ y)).2 = ['.'] ∧ (decimalNumber x).2 = x.length := by
  obtain ⟨m, hm⟩ : ∃ m, run isDigitPart (x ++ y) = m := ⟨_, rfl⟩
  have hle : m ≤ x.length := by
    have := le_decimalNumber (x ++ y)
    omega
  have hrun : run isDigitPart x = m := by
    rw [← hm]
    apply run_append
    omega
  rcases Nat.lt_or_eq_of_le hle with hlt | rfl
  · obtain ⟨c, r, hx, hxy⟩ := Text.exists_drop_append y hlt
    have hr : r.length + m + 1 = x.length := by
      have := congrArg List.length hx
      simp only [List.length_drop, List.length_cons] at this
      omega
    by_cases hc : c = '.'
    · subst hc
      rcases r with _ | ⟨b, r⟩
      · exact decimalNumber_cut_of_point hm hrun hx h
      left
      by_cases hb : b = '.'
      · subst hb
        rw [decimalNumber_of_points hm hxy] at h ⊢
        rw [decimalNumber_of_points hrun hx]
        exact scaled_append h
      · rw [decimalNumber_of_point hm hxy (by simp [hb])] at h ⊢
        have hle := le_scaled isDecimalMarker .floatNumber (m + 1 + run isDigitPart (b :: r ++ y)) (x ++ y)
        rw [decimalNumber_of_point hrun hx (by simp [hb]),
          run_append (show run isDigitPart (b :: r ++ y) ≤ (b :: r).length by omega)]
        exact scaled_append h
    · left
      rw [decimalNumber_of_noPoint hm (by simp [hxy, hc])] at h ⊢
      rw [decimalNumber_of_noPoint hrun (by simp [hx, hc])]
      exact scaled_append h
  · exact .inl (decimalNumber_append_of_digits hm h)

lemma number_zero_hex {c : Char} (hc : c ∈ ['x', 'X']) (cs : Text) : number '0' (c :: cs) = hexNumber (c :: cs) := by
  simp only [List.mem_cons, List.not_mem_nil, or_false] at hc
  rcases hc with rfl | rfl <;> rfl

lemma number_zero_radix {c : Char} (hc : c ∈ ['b', 'B', 'o', 'O']) (cs : Text) :
    number '0' (c :: cs) = imaginary .intNumber (1 + run isDigitPart cs) (c :: cs) := by
  simp only [List.mem_cons, List.not_mem_nil, or_false] at hc
  rcases hc with rfl | rfl | rfl | rfl <;> rfl

lemma number_zero {c : Char} (hhex : c ∉ ['x', 'X']) (hradix : c ∉ ['b', 'B', 'o', 'O']) (cs : Text) :
    number '0' (c :: cs) = decimalNumber (c :: cs) := by
  unfold number
  rw [if_neg (by decide), if_pos rfl]
  split <;> simp_all

lemma number_cut {first : Char} (h : (number first (x ++ y)).2 ≤ x.length) :
    number first x = number first (x ++ y) ∨
      x.drop (number first (x ++ y)).2 = ['.'] ∧ (number first x).2 = x.length := by
  by_cases hzero : first = '0'
  · subst hzero
    rcases x with _ | ⟨c, x⟩
    · rcases y with _ | ⟨c, y⟩
      · exact .inl rfl
      rw [List.nil_append] at h ⊢
      by_cases hhex : c ∈ ['x', 'X']
      · rw [number_zero_hex hhex] at h
        have hle := le_hexNumber (c :: y)
        rw [List.length_nil] at h
        omega
      by_cases hradix : c ∈ ['b', 'B', 'o', 'O']
      · rw [number_zero_radix hradix] at h
        have hle := le_imaginary .intNumber (1 + run isDigitPart y) (c :: y)
        rw [List.length_nil] at h
        omega
      · rw [number_zero hhex hradix] at h ⊢
        exact decimalNumber_cut (x := []) h
    rw [List.cons_append] at h ⊢
    by_cases hhex : c ∈ ['x', 'X']
    · rw [number_zero_hex hhex] at h ⊢
      rw [number_zero_hex hhex]
      exact .inl (hexNumber_append h)
    by_cases hradix : c ∈ ['b', 'B', 'o', 'O']
    · rw [number_zero_radix hradix] at h ⊢
      have hle := le_imaginary .intNumber (1 + run isDigitPart (x ++ y)) (c :: (x ++ y))
      rw [List.length_cons] at h
      rw [number_zero_radix hradix, run_append (show run isDigitPart (x ++ y) ≤ x.length by omega)]
      exact .inl (imaginary_append h)
    · rw [number_zero hhex hradix] at h ⊢
      rw [number_zero hhex hradix]
      exact decimalNumber_cut h
  · unfold number at h ⊢
    rw [if_neg hzero] at h ⊢
    rw [if_neg hzero]
    split
    · next hp =>
      rw [if_pos hp] at h
      have hle := le_scaled isDecimalMarker .floatNumber (run isDigitPart (x ++ y)) (x ++ y)
      rw [run_append (show run isDigitPart (x ++ y) ≤ x.length by omega)]
      exact .inl (scaled_append h)
    · next hp =>
      rw [if_neg hp] at h
      exact decimalNumber_cut h

/-! ## Literals and comments -/

lemma quoted_escape {q d : Char} (hd : d ≠ '\n') (cs : Text) :
    quoted q ('\\' :: d :: cs) = ((quoted q cs).1, (quoted q cs).2 + 2) := by
  rw [quoted.eq_def]
  simp [hd]

lemma quoted_other {q c : Char} (hn : c ≠ '\n') (hb : c ≠ '\\') (hq : c ≠ q) (cs : Text) :
    quoted q (c :: cs) = ((quoted q cs).1, (quoted q cs).2 + 1) := by
  rw [quoted.eq_def]
  simp [hn, hb, hq]

/-- A literal without characters behind its quote is not closed. -/
lemma quoted_eq_of_zero {q : Char} {cs : Text} (h : (quoted q cs).2 = 0) : quoted q cs = (false, 0) := by
  revert h
  fun_cases quoted q cs with
  | case1 => exact fun _ => rfl
  | case2 => exact fun _ => rfl
  | _ => simp

lemma quoted_append {q : Char} (h : (quoted q (x ++ y)).2 ≤ x.length) : quoted q x = quoted q (x ++ y) := by
  fun_induction quoted q x with
  | case1 => exact (quoted_eq_of_zero (Nat.le_zero.1 h)).symm
  | case2 =>
    rw [List.cons_append, quoted.eq_def]
    simp
  | case3 =>
    -- the backslash ends the piece, so it takes no character behind the piece with it
    rw [List.cons_append, List.nil_append, quoted.eq_def] at h ⊢
    simp only [List.length_singleton, Char.reduceEq, if_true, if_false] at h ⊢
    split at h
    · simp
    · split at h
      · next hd => simp [hd]
      · omega
  | case4 =>
    simp only [List.cons_append]
    rw [quoted.eq_def]
    simp
  | case5 d cs hd =>
    rename_i ih
    simp only [List.cons_append] at h ⊢
    rw [quoted_escape hd] at h ⊢
    rw [← ih (by simpa using h)]
  | case6 =>
    rw [List.cons_append, quoted.eq_def]
    simp [*]
  | case7 c cs hn hb hq r ih =>
    rw [List.cons_append, quoted_other hn hb hq] at h ⊢
    rw [← ih (by simpa using h)]

lemma raw_append (h : (raw (x ++ y)).2 ≤ x.length) : raw x = raw (x ++ y) := by
  unfold raw at h ⊢
  dsimp only at h ⊢
  rcases y with _ | ⟨b, y⟩
  · simp
  have hlt : run (· ≠ '`') (x ++ b :: y) < x.length := by
    split at h
    · next hend =>
      have := List.drop_eq_nil_iff.1 hend
      simp only [List.length_append, List.length_cons] at this
      omega
    · omega
  obtain ⟨c, r, hx, hxy⟩ := Text.exists_drop_append (b :: y) hlt
  rw [run_append (Nat.le_of_lt hlt), hx, hxy]

lemma blockComment_append (h : (blockComment (x ++ y)).2 ≤ x.length) : blockComment x = blockComment (x ++ y) := by
  rcases y with _ | ⟨b, y⟩
  · simp
  unfold blockComment commentEnd? at h ⊢
  cases hf : Text.find? ['*', '/'] ((x ++ b :: y).drop 1) with
  | none =>
    rw [hf] at h
    simp only [Option.map_none, List.length_append, List.length_cons] at h
    omega
  | some n =>
    rw [hf] at h
    simp only [Option.map_some] at h
    have hone : 1 ≤ x.length := by omega
    rw [List.drop_append_of_le_length hone] at hf
    have hle : n + ['*', '/'].length ≤ (x.drop 1).length := by
      simp only [List.length_drop, List.length_cons, List.length_nil]
      omega
    rw [Text.find?_append hf hle]
    rfl

end Lexeme

namespace Template

/-! ## Tokens of a directive -/

/-- A token of a directive stays what it is when the text is cut off behind it and one more character, unless it is a
number in front of two points, which takes the point that is left. -/
lemma lexeme_cut {c : Char} {cs y : Text} (h : (lexeme c (cs ++ y)).2 < cs.length) :
    lexeme c cs = lexeme c (cs ++ y) ∨ cs.drop (lexeme c (cs ++ y)).2 = ['.'] ∧ (lexeme c cs).2 = cs.length ∧
      (lexeme c cs).1 ∈ Lexeme.numberKinds ∧ (lexeme c (cs ++ y)).1 ∈ Lexeme.numberKinds := by
  rcases cs with _ | ⟨b, cs⟩
  · simp at h
  have hrun : ∀ p, Lexeme.run p (b :: cs ++ y) < (b :: cs).length →
      Lexeme.run p (b :: cs) = Lexeme.run p (b :: cs ++ y) := fun p hp => Lexeme.run_append (Nat.le_of_lt hp)
  have hhead : (b :: cs ++ y).head? = (b :: cs).head? := rfl
  unfold lexeme at h ⊢
  rw [hhead] at h ⊢
  by_cases hblank : isTrimSpace c
  · simp only [if_pos hblank] at h ⊢
    rw [hrun _ h]
    exact .inl rfl
  simp only [if_neg hblank] at h ⊢
  by_cases hcomment : c = '/' && (b :: cs).head? = some '*'
  · simp only [if_pos hcomment] at h ⊢
    exact .inl (Lexeme.blockComment_append h.le)
  simp only [if_neg hcomment] at h ⊢
  by_cases hstring : c = '"'
  · simp only [if_pos hstring] at h ⊢
    rw [Lexeme.quoted_append h.le]
    exact .inl rfl
  simp only [if_neg hstring] at h ⊢
  by_cases hrune : c = '\''
  · simp only [if_pos hrune] at h ⊢
    rw [Lexeme.quoted_append h.le]
    exact .inl rfl
  simp only [if_neg hrune] at h ⊢
  by_cases hraw : c = '`'
  · simp only [if_pos hraw] at h ⊢
    rw [Lexeme.raw_append h.le]
    exact .inl rfl
  simp only [if_neg hraw] at h ⊢
  by_cases hdigit : c.isDigit
  · simp only [if_pos hdigit] at h ⊢
    exact (Lexeme.number_cut h.le).imp_right fun hcut => ⟨hcut.1, hcut.2, Lexeme.number_mem _ _, Lexeme.number_mem _ _⟩
  simp only [if_neg hdigit] at h ⊢
  by_cases hsigned : (c = '+' || c = '-' || c = '.') && (b :: cs).head?.any Char.isDigit
  · simp only [if_pos hsigned] at h ⊢
    by_cases hpoint : c = '.'
    · simp only [if_pos hpoint] at h ⊢
      exact (Lexeme.number_cut h.le).imp_right fun hcut => ⟨hcut.1, hcut.2, Lexeme.number_mem _ _, Lexeme.number_mem _ _⟩
    · simp only [if_neg hpoint, List.cons_append] at h ⊢
      have hshort : (Lexeme.number b (cs ++ y)).2 < cs.length := by simpa using h
      rcases Lexeme.number_cut hshort.le with heq | ⟨hdrop, hall⟩
      · rw [heq]
        exact .inl rfl
      · exact .inr ⟨by simpa using hdrop, by simpa using hall, Lexeme.number_mem _ _, Lexeme.number_mem _ _⟩
  simp only [if_neg hsigned] at h ⊢
  left
  by_cases hpoint : c = '.'
  · simp only [if_pos hpoint] at h ⊢
    by_cases hname : (b :: cs).head?.any Lexeme.isNameStart
    · simp only [if_pos hname] at h ⊢
      rw [hrun _ h]
    · simp only [if_neg hname]
  simp only [if_neg hpoint] at h ⊢
  by_cases hvariable : c = '$'
  · simp only [if_pos hvariable] at h ⊢
    rw [hrun _ h]
  simp only [if_neg hvariable] at h ⊢
  by_cases hname : Lexeme.isNameStart c
  · simp only [if_pos hname] at h ⊢
    rw [hrun _ h, List.take_append_of_le_length (Nat.le_of_lt h)]
  · simp only [if_neg hname]

/-- A token of a directive stays what it is when the text is cut off behind it and one more character, which
is not the first of two points. -/
lemma lexeme_append {c : Char} {cs y : Text} (h : (lexeme c (cs ++ y)).2 < cs.length)
    (hdot : cs.drop (lexeme c (cs ++ y)).2 ≠ ['.']) : lexeme c cs = lexeme c (cs ++ y) :=
  (lexeme_cut h).resolve_right fun hcut => hdot hcut.1

end Template

end GoFront
