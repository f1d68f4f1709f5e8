import GoFront.Proofs.Token.Lookahead
import GoFront.Proofs.Token.Modes

/-!
# Markers and the text around them

Where a marker is found, and whether it trims, depends on the text up to the marker and one more character.
So a piece of a text is a token in the same way when the text is cut off further behind:
`Template.actionPiece_append` inside directives, `Template.textPiece_append` outside.
-/

namespace GoFront.Template

/-! ## Closing markers -/

lemma rightMarker?_append {d : Delimiters} {previous : Option Char} {x y : Text} {n : Nat} {trims : Bool}
    (h : rightMarker? d previous (x ++ y) = some (n, trims)) (hn : n ≤ x.length) :
    rightMarker? d previous x = some (n, trims) := by
  unfold rightMarker? at h ⊢
  split at h
  · next hp =>
    obtain ⟨rfl, rfl⟩ := Prod.mk.inj (Option.some.inj h)
    rw [Text.isPrefixOf_append y hn] at hp
    rw [if_pos hp]
  · next hp =>
    rw [Text.isPrefixOf_eq_false (Bool.not_eq_true _ ▸ hp)]
    rcases x with _ | ⟨c, x⟩
    · split at h
      · split at h
        · obtain ⟨rfl, -⟩ := Prod.mk.inj (Option.some.inj h)
          simp at hn
        · simp at h
      · simp at h
    · rw [List.cons_append] at h
      split at h
      · next hc =>
        obtain ⟨rfl, rfl⟩ := List.cons.inj hc
        split at h
        · next hr =>
          obtain ⟨rfl, rfl⟩ := Prod.mk.inj (Option.some.inj h)
          rw [Text.isPrefixOf_append y (by simpa using hn)] at hr
          simp [hr]
        · simp at h
      · simp at h

/-- A closing marker is one whatever follows it. -/
lemma rightMarker?_extend {d : Delimiters} {previous : Option Char} {x : Text} {n : Nat} {trims : Bool} (y : Text)
    (h : rightMarker? d previous x = some (n, trims)) : rightMarker? d previous (x ++ y) = some (n, trims) := by
  unfold rightMarker? at h ⊢
  split at h
  · next hp =>
    have hp' : d.right.isPrefixOf (x ++ y) = true := by
      rw [List.isPrefixOf_iff_prefix] at hp ⊢
      exact hp.trans (List.prefix_append x y)
    rwa [if_pos hp']
  · next hp =>
    split at h
    · next cs =>
      split at h
      · next hr =>
        rw [Bool.and_eq_true] at hr
        have hle : d.right.length ≤ cs.length := (List.isPrefixOf_iff_prefix.1 hr.1).length_le
        rw [← Text.isPrefixOf_append y (by rw [List.length_cons]; omega)] at hp
        rw [if_neg hp]
        simp only [List.cons_append, Text.isPrefixOf_append y hle, hr, Bool.and_self, if_true]
        exact h
      · simp at h
    · simp at h

lemma rightMarker?_eq_none {d : Delimiters} {previous : Option Char} {x y : Text}
    (h : rightMarker? d previous (x ++ y) = none) : rightMarker? d previous x = none := by
  unfold rightMarker? at h ⊢
  split at h
  · simp at h
  · next hp =>
    rw [Text.isPrefixOf_eq_false (Bool.not_eq_true _ ▸ hp)]
    rcases x with _ | ⟨c, x⟩
    · rfl
    · rw [List.cons_append] at h
      split at h
      · next hc =>
        obtain ⟨rfl, rfl⟩ := List.cons.inj hc
        split at h
        · simp at h
        · next hr =>
          have hr' : ¬ (d.right.isPrefixOf x && previous.any isTrimSpace) = true := by
            intro hx
            rw [Bool.and_eq_true, List.isPrefixOf_iff_prefix] at hx
            rw [Bool.and_eq_true, List.isPrefixOf_iff_prefix] at hr
            exact hr ⟨hx.1.trans (List.prefix_append x y), hx.2⟩
          simp [hr']
      · next hc =>
        simp only [Bool.false_eq_true, if_false]
        split
        · next hc' =>
          obtain ⟨rfl, rfl⟩ := List.cons.inj hc'
          exact absurd rfl (hc _)
        · rfl

/-- The characters of a closing marker. -/
def closingMarker (d : Delimiters) (trims : Bool) : Text := if trims then '-' :: d.right else d.right

lemma size_closingMarker (d : Delimiters) (trims : Bool) :
    (closingMarker d trims).size = d.right.size + 1 ↔ trims = true := by
  have hminus : '-'.utf8Size = 1 := rfl
  cases trims with
  | false => simp [closingMarker]
  | true => simp [closingMarker, Nat.add_comm, hminus]

lemma rightMarker?_eq_some {d : Delimiters} {previous : Option Char} {t : Text} {n : Nat} {trims : Bool}
    (h : rightMarker? d previous t = some (n, trims)) :
    n = (closingMarker d trims).length ∧ closingMarker d trims <+: t := by
  unfold rightMarker? at h
  split at h
  · next hp =>
    obtain ⟨rfl, rfl⟩ := Prod.mk.inj (Option.some.inj h)
    exact ⟨rfl, List.isPrefixOf_iff_prefix.1 hp⟩
  · split at h
    · next cs _ =>
      split at h
      · next hp =>
        obtain ⟨rfl, rfl⟩ := Prod.mk.inj (Option.some.inj h)
        rw [Bool.and_eq_true, List.isPrefixOf_iff_prefix] at hp
        exact ⟨rfl, List.prefix_cons_inj '-' |>.2 hp.1⟩
      · simp at h
    · simp at h

/-- A token of a directive is a closing marker, or none that could be taken for one. -/
lemma actionPiece_cases (d : Delimiters) (previous : Option Char) (c : Char) (cs : Text) :
    (∃ n trims, rightMarker? d previous (c :: cs) = some (n, trims) ∧
      actionPiece d previous c cs = ⟨.rightDelimiter, n, false, trims⟩) ∨
    (rightMarker? d previous (c :: cs) = none ∧ (actionPiece d previous c cs).kind ∉ foreignKinds ∧
      actionPiece d previous c cs = ⟨(lexeme c cs).1, (lexeme c cs).2 + 1, true, false⟩) := by
  cases h : rightMarker? d previous (c :: cs) with
  | some p => exact .inl ⟨p.1, p.2, rfl, by simp [actionPiece, h]⟩
  | none =>
    have he : actionPiece d previous c cs = ⟨(lexeme c cs).1, (lexeme c cs).2 + 1, true, false⟩ := by
      simp [actionPiece, h]
    refine .inr ⟨rfl, ?_, he⟩
    rw [he]
    exact lexeme_notMem c cs

/-- A token of a directive stays what it is when the text is cut off right behind it, if it is a closing marker,
or else behind one more character, which is not the first of two points. -/
lemma actionPiece_append {d : Delimiters} {previous : Option Char} {c : Char} {cs y : Text}
    (hle : (actionPiece d previous c (cs ++ y)).length ≤ (c :: cs).length)
    (h : (actionPiece d previous c (cs ++ y)).kind ≠ .rightDelimiter →
      (c :: cs).drop (actionPiece d previous c (cs ++ y)).length ≠ [] ∧
      (c :: cs).drop (actionPiece d previous c (cs ++ y)).length ≠ ['.']) :
    actionPiece d previous c cs = actionPiece d previous c (cs ++ y) := by
  rcases actionPiece_cases d previous c (cs ++ y) with ⟨n, trims, hm, he⟩ | ⟨hm, hk, he⟩
  · rw [he] at hle ⊢
    rw [actionPiece, rightMarker?_append (x := c :: cs) hm hle]
  · obtain ⟨hne, hdot⟩ := h (fun hr => hk (hr ▸ by decide))
    rw [he] at hne hdot ⊢
    simp only [List.drop_succ_cons, ne_eq, List.drop_eq_nil_iff, not_le] at hne hdot
    rw [actionPiece, rightMarker?_eq_none (x := c :: cs) hm, lexeme_append hne hdot]

/-! ## Opening markers -/

lemma leftMarker?_eq_some {d : Delimiters} {t : Text} {n : Nat} {trims : Bool}
    (h : leftMarker? d t = some (n, trims)) :
    d.left.isPrefixOf t = true ∧ d.left.length ≤ n ∧ n ≤ d.left.length + 1 := by
  unfold leftMarker? at h
  split at h
  · next hp =>
    refine ⟨hp, ?_⟩
    split at h
    · split at h
      · obtain ⟨rfl, -⟩ := Prod.mk.inj (Option.some.inj h)
        exact ⟨Nat.le_succ _, Nat.le_refl _⟩
      · obtain ⟨rfl, -⟩ := Prod.mk.inj (Option.some.inj h)
        exact ⟨Nat.le_refl _, Nat.le_succ _⟩
    · obtain ⟨rfl, -⟩ := Prod.mk.inj (Option.some.inj h)
      exact ⟨Nat.le_refl _, Nat.le_succ _⟩
  · simp at h

lemma leftMarker?_eq_none_iff {d : Delimiters} {t : Text} : leftMarker? d t = none ↔ d.left.isPrefixOf t = false := by
  unfold leftMarker?
  cases d.left.isPrefixOf t with
  | false => simp
  | true =>
    simp only [if_true, Bool.true_eq_false, iff_false]
    split <;> simp

lemma leftMarker?_of_sign {d : Delimiters} {t r : Text} {c : Char} (hp : d.left.isPrefixOf t = true)
    (h : t.drop d.left.length = '-' :: c :: r) :
    leftMarker? d t = some (if isTrimSpace c then (d.left.length + 1, true) else (d.left.length, false)) := by
  unfold leftMarker?
  rw [if_pos hp]
  split
  · next hc =>
    rw [h] at hc
    obtain ⟨-, hc⟩ := List.cons.inj hc
    obtain ⟨rfl, -⟩ := List.cons.inj hc
    rfl
  · next hc => exact absurd h (hc c r)

lemma leftMarker?_of_noSign {d : Delimiters} {t : Text} (hp : d.left.isPrefixOf t = true)
    (h : ∀ c r, t.drop d.left.length ≠ '-' :: c :: r) : leftMarker? d t = some (d.left.length, false) := by
  unfold leftMarker?
  rw [if_pos hp]
  split
  · next c r hc => exact absurd hc (h c r)
  · rfl

/-- An opening marker stays what it is when the text is cut off behind it and one more character. -/
lemma leftMarker?_append {d : Delimiters} {x y : Text} {n : Nat} {trims : Bool}
    (h : leftMarker? d (x ++ y) = some (n, trims)) (hn : n < x.length) : leftMarker? d x = some (n, trims) := by
  obtain ⟨hp, hle, -⟩ := leftMarker?_eq_some h
  have hlt : d.left.length < x.length := by omega
  have hp' : d.left.isPrefixOf x = true := Text.isPrefixOf_append y (Nat.le_of_lt hlt) ▸ hp
  obtain ⟨c, r, hx, hxy⟩ := Text.exists_drop_append y hlt
  by_cases hc : c = '-'
  · subst hc
    rcases r with _ | ⟨e, r⟩
    · -- a minus sign at the end of the piece does not trim, here or there
      rw [leftMarker?_of_noSign hp' (by simp [hx])]
      rcases y with _ | ⟨e, y⟩
      · rwa [List.append_nil, leftMarker?_of_noSign hp' (by simp [hx])] at h
      · rw [leftMarker?_of_sign hp hxy] at h
        by_cases he : isTrimSpace e
        · rw [if_pos he] at h
          obtain ⟨rfl, -⟩ := Prod.mk.inj (Option.some.inj h)
          have := congrArg List.length hx
          simp only [List.length_drop, List.length_singleton] at this
          omega
        · rwa [if_neg he] at h
    · rw [leftMarker?_of_sign hp hxy] at h
      rw [leftMarker?_of_sign hp' hx]
      exact h
  · rw [leftMarker?_of_noSign hp (by simp [hxy, hc])] at h
    rw [leftMarker?_of_noSign hp' (by simp [hx, hc])]
    exact h

section Visible

variable {left opener : Text} (ho : opener ≠ [])

lemma visibleMarker?_of_visible {t : Text} {n : Nat} (hf : Text.find? left t = some n)
    (hc : Text.find? opener (t.take (n + opener.length - 1)) = none) :
    visibleMarker? left opener ho t = some n := by
  rw [visibleMarker?, hf]
  dsimp only
  split
  · rfl
  · next hc' => simp [hc] at hc'

lemma visibleMarker?_of_hidden {t : Text} {n c m : Nat} (hf : Text.find? left t = some n)
    (hc : Text.find? opener (t.take (n + opener.length - 1)) = some c)
    (hm : c + HostLanguage.commentLength opener (t.drop c) = m) :
    visibleMarker? left opener ho t = (visibleMarker? left opener ho (t.drop m)).map (· + m) := by
  rw [visibleMarker?, hf]
  dsimp only
  split
  · next hc' => simp [hc] at hc'
  · next c' hc' =>
    obtain rfl : c = c' := by simpa [hc] using hc'
    rw [hm]

/-- The marker found is one. -/
lemma isPrefixOf_drop_of_visibleMarker? {t : Text} {n : Nat} (h : visibleMarker? left opener ho t = some n) :
    left.isPrefixOf (t.drop n) = true := by
  fun_induction visibleMarker? left opener ho t generalizing n with
  | case1 => simp at h
  | case2 t m hf _ =>
    obtain rfl := Option.some.inj h
    exact Text.isPrefixOf_drop_of_find? hf
  | case3 t m hf c hc len =>
    rename_i ih
    obtain ⟨k, hk, rfl⟩ := Option.map_eq_some_iff.1 h
    have := ih hk
    rwa [List.drop_drop, Nat.add_comm] at this

/-- A comment in front of a marker is closed. -/
lemma commentLength_of_visibleMarker? {t : Text} {c n : Nat} (hleft : left ≠ [])
    (h : visibleMarker? left opener ho (t.drop (c + HostLanguage.commentLength opener (t.drop c))) = some n) :
    ∃ k, Text.find? HostLanguage.commentCloser ((t.drop c).drop opener.length) = some k := by
  cases hk : Text.find? HostLanguage.commentCloser ((t.drop c).drop opener.length) with
  | some k => exact ⟨k, rfl⟩
  | none =>
    have hend : t.drop (c + HostLanguage.commentLength opener (t.drop c)) = [] := by
      rw [HostLanguage.commentLength, hk]
      simp only [List.length_drop, List.drop_eq_nil_iff]
      omega
    have := isPrefixOf_drop_of_visibleMarker? ho h
    rw [hend, List.drop_nil, List.isPrefixOf_iff_prefix, List.prefix_nil] at this
    exact absurd this hleft

/-- The marker found in a text is found in every piece that holds it. -/
lemma visibleMarker?_append {x y : Text} {n : Nat} (hleft : left ≠ [])
    (h : visibleMarker? left opener ho (x ++ y) = some n) (hn : n + left.length ≤ x.length) :
    visibleMarker? left opener ho x = some n := by
  generalize ht : x ++ y = t at h
  fun_induction visibleMarker? left opener ho t generalizing x n with
  | case1 => simp at h
  | case2 t m hf hc =>
    obtain rfl := Option.some.inj h
    subst ht
    rw [List.take_append] at hc
    exact visibleMarker?_of_visible ho (Text.find?_append hf hn) (Text.find?_eq_none hc)
  | case3 t m hf c hc len =>
    rename_i ih
    have hfirst : m ≤ n := by
      rw [← visibleMarker?_of_hidden ho hf hc rfl] at h
      exact Text.find?_le hf (isPrefixOf_drop_of_visibleMarker? ho h)
    obtain ⟨k, hk, rfl⟩ := Option.map_eq_some_iff.1 h
    obtain ⟨j, hj⟩ := commentLength_of_visibleMarker? ho hleft hk
    subst ht
    -- the comment lies in the piece, from its opening to its closing
    have hlen : len = c + (opener.length + j + HostLanguage.commentCloser.length) := by
      simp only [len, HostLanguage.commentLength, hj]
    have hopener : Text.find? opener (x.take (m + opener.length - 1)) = some c := by
      have hle := Text.add_length_le_of_find? hc
      rw [List.length_take] at hle
      rw [List.take_append] at hc
      apply Text.find?_append hc
      rw [List.length_take]
      omega
    have hcomment : c + HostLanguage.commentLength opener (x.drop c) = len := by
      rw [List.drop_append_of_le_length (by omega), List.drop_append_of_le_length (by rw [List.length_drop]; omega)] at hj
      have hj' := Text.find?_append hj (by rw [List.length_drop, List.length_drop]; omega)
      rw [hlen, HostLanguage.commentLength, hj']
    have hdrop : x.drop len ++ y = (x ++ y).drop len := (List.drop_append_of_le_length (by omega)).symm
    rw [visibleMarker?_of_hidden ho (Text.find?_append hf (by omega)) hopener hcomment,
      ih (by rw [List.length_drop]; omega) hdrop hk]
    rfl

/-- Only blanks stand between the marker found and the last character before it that is none, so no other
marker starts there. -/
lemma visibleMarker?_le {t : Text} {n q : Nat} (hleft : left ≠ []) (h : visibleMarker? left opener ho t = some n)
    (hblank : ∀ c ∈ (t.take n).drop q, isTrimSpace c = true) (hq : left.isPrefixOf (t.drop q) = true) : n ≤ q := by
  fun_induction visibleMarker? left opener ho t generalizing n q with
  | case1 => simp at h
  | case2 t m hf hc =>
    obtain rfl := Option.some.inj h
    exact Text.find?_le hf hq
  | case3 t m hf c hc len =>
    rename_i ih
    obtain ⟨k, hk, rfl⟩ := Option.map_eq_some_iff.1 h
    obtain ⟨j, hj⟩ := commentLength_of_visibleMarker? ho hleft hk
    by_cases hqlen : len ≤ q
    · have := ih (q := q - len) hk ?_ ?_
      · omega
      · intro b hb
        apply hblank
        rw [List.drop_take] at hb ⊢
        rw [List.drop_drop] at hb
        rwa [Nat.add_sub_cancel' hqlen, show k - (q - len) = k + len - q by omega] at hb
      · rwa [List.drop_drop, Nat.add_sub_cancel' hqlen]
    · -- the last character of the comment is no blank
      exfalso
      have hlen : len = c + (opener.length + j + HostLanguage.commentCloser.length) := by
        simp only [len, HostLanguage.commentLength, hj]
      have hcloser := Text.isPrefixOf_drop_of_find? hj
      rw [List.drop_drop, List.drop_drop, List.isPrefixOf_iff_prefix] at hcloser
      obtain ⟨r, hr⟩ := hcloser
      have hlast : t[len - 1]? = some '>' := by
        have : (t.drop (c + (opener.length + j)))[2]? = some '>' := by rw [← hr]; rfl
        rw [List.getElem?_drop] at this
        rw [← this, hlen]
        congr 1
      have hmem : '>' ∈ (t.take (k + len)).drop q := by
        apply List.mem_of_getElem? (i := len - 1 - q)
        rw [List.getElem?_drop, List.getElem?_take_of_lt (by omega), ← hlast]
        congr 1
        omega
      exact absurd (hblank _ hmem) (by decide)

/-- From the blanks in front of it on, the marker found is found again: a comment does not start with a blank. -/
lemma visibleMarker?_drop {t : Text} {n q : Nat} (hleft : left ≠ [])
    (hopener : ∀ c ∈ opener.head?, isTrimSpace c = false) (h : visibleMarker? left opener ho t = some n) (hq : q ≤ n)
    (hblank : ∀ c ∈ (t.take n).drop q, isTrimSpace c = true) :
    visibleMarker? left opener ho (t.drop q) = some (n - q) := by
  refine visibleMarker?_of_visible ho (Text.find?_of_first ?_ ?_) ?_
  · rw [List.drop_drop, Nat.add_sub_cancel' hq]
    exact isPrefixOf_drop_of_visibleMarker? ho h
  · intro i hi
    rw [List.drop_drop] at hi
    have hlater : ∀ c ∈ (t.take n).drop (q + i), isTrimSpace c = true := by
      intro c hc
      rw [← List.drop_drop] at hc
      exact hblank c (List.mem_of_mem_drop hc)
    have := visibleMarker?_le ho hleft h hlater hi
    omega
  · cases hc : Text.find? opener ((t.drop q).take (n - q + opener.length - 1)) with
    | none => rfl
    | some c =>
      -- the first character of the comment would be one of the blanks
      obtain ⟨o, os, rfl⟩ := List.exists_cons_of_ne_nil ho
      have hle := Text.add_length_le_of_find? hc
      obtain ⟨r, hr⟩ := List.isPrefixOf_iff_prefix.1 (Text.isPrefixOf_drop_of_find? hc)
      simp only [List.length_take, List.length_drop, List.length_cons] at hle
      have hchar : t[q + c]? = some o := by
        have := congrArg List.head? hr
        rw [List.head?_drop, List.getElem?_take_of_lt (by simp only [List.length_cons]; omega),
          List.getElem?_drop] at this
        exact this.symm
      have hmem : o ∈ (t.take n).drop q := by
        apply List.mem_of_getElem? (i := c)
        rw [List.getElem?_drop, List.getElem?_take_of_lt (by omega), hchar]
      exact absurd (hopener o rfl) (by simp [hblank o hmem])

end Visible

section Find

variable {left t : Text} {host : HostLanguage} {n : Nat} (hleft : left ≠ [])

include hleft in
lemma findMarker?_append {x y : Text} (h : findMarker? left host (x ++ y) = some n)
    (hn : n + left.length ≤ x.length) : findMarker? left host x = some n := by
  cases host with
  | html => exact visibleMarker?_append _ hleft h hn
  | text => exact Text.find?_append h hn

lemma isPrefixOf_drop_of_findMarker? (h : findMarker? left host t = some n) : left.isPrefixOf (t.drop n) = true := by
  cases host with
  | html => exact isPrefixOf_drop_of_visibleMarker? _ h
  | text => exact Text.isPrefixOf_drop_of_find? h

include hleft in
lemma findMarker?_le {q : Nat} (h : findMarker? left host t = some n)
    (hblank : ∀ c ∈ (t.take n).drop q, isTrimSpace c = true) (hq : left.isPrefixOf (t.drop q) = true) : n ≤ q := by
  cases host with
  | html => exact visibleMarker?_le _ hleft h hblank hq
  | text => exact Text.find?_le h hq

include hleft in
lemma findMarker?_drop {q : Nat} (h : findMarker? left host t = some n) (hq : q ≤ n)
    (hblank : ∀ c ∈ (t.take n).drop q, isTrimSpace c = true) : findMarker? left host (t.drop q) = some (n - q) := by
  cases host with
  | html => exact visibleMarker?_drop _ hleft (by simp [HostLanguage.commentOpener]; decide) h hq hblank
  | text =>
    refine Text.find?_of_first ?_ fun i hi => ?_
    · rw [List.drop_drop, Nat.add_sub_cancel' hq]
      exact Text.isPrefixOf_drop_of_find? h
    · rw [List.drop_drop] at hi
      have := Text.find?_le h hi
      omega

end Find

/-! ## Pieces -/

/-- The blanks behind a closing marker that trims are a token. -/
lemma textPiece_of_blank {d : Delimiters} {host : HostLanguage} {c : Char} (hc : isTrimSpace c = true) (cs : Text) :
    textPiece d host true (c :: cs) =
      { kind := .whitespace, length := Lexeme.run isTrimSpace (c :: cs), inAction := false } := by
  simp [textPiece, hc]

/-- Without blanks it makes no difference whether a closing marker trims. -/
lemma textPiece_of_noBlank {d : Delimiters} {host : HostLanguage} {trimAfter : Bool} {c : Char}
    (h : ¬ (trimAfter = true ∧ isTrimSpace c = true)) (cs : Text) :
    textPiece d host trimAfter (c :: cs) = textPiece d host false (c :: cs) := by
  have hcond : (trimAfter && (c :: cs).head?.any isTrimSpace) = false := by
    rw [← Bool.not_eq_true, Bool.and_eq_true]
    simpa using h
  rw [textPiece, textPiece, hcond]
  simp

lemma textPiece_of_marker {d : Delimiters} {host : HostLanguage} {t : Text} {n : Nat} {trims : Bool}
    (h : leftMarker? d t = some (n, trims)) :
    textPiece d host false t = { kind := .leftDelimiter, length := n, inAction := true } := by
  simp [textPiece, h]

/-- A text is what stands before the blanks at its end, and these blanks. -/
lemma kept_append_blanks (t : Text) :
    (t.reverse.dropWhile isTrimSpace).reverse ++ (t.reverse.takeWhile isTrimSpace).reverse = t := by
  rw [← List.reverse_append, List.takeWhile_append_dropWhile, List.reverse_reverse]

/-- The blanks at the end of a text, counted from behind. -/
lemma isTrimSpace_of_mem_drop {t : Text} {c : Char}
    (h : c ∈ t.drop (t.reverse.dropWhile isTrimSpace).length) : isTrimSpace c = true := by
  have hdrop : t.drop (t.reverse.dropWhile isTrimSpace).length = (t.reverse.takeWhile isTrimSpace).reverse := by
    nth_rewrite 2 [← kept_append_blanks t]
    exact List.drop_left' (List.length_reverse ..)
  rw [hdrop, List.mem_reverse] at h
  exact List.all_eq_true.1 List.all_takeWhile c h

/-- Without the blanks at its end, a text does not end with a blank. -/
lemma not_isTrimSpace_of_mem_getLast? {t : Text} {c : Char}
    (h : c ∈ (t.take (t.reverse.dropWhile isTrimSpace).length).getLast?) : isTrimSpace c = false := by
  have htake : t.take (t.reverse.dropWhile isTrimSpace).length = (t.reverse.dropWhile isTrimSpace).reverse := by
    nth_rewrite 2 [← kept_append_blanks t]
    exact List.take_left' (List.length_reverse ..)
  rw [htake, List.getLast?_reverse] at h
  simpa [Option.mem_def.1 h] using List.head?_dropWhile_not isTrimSpace t.reverse

/-- Without a marker the lexer stays outside directives. -/
lemma inAction_textPiece {d : Delimiters} {t : Text} (hnone : leftMarker? d t = none) (host : HostLanguage)
    (trimAfter : Bool) : (textPiece d host trimAfter t).inAction = false := by
  unfold textPiece
  split
  · rfl
  · rw [hnone]
    dsimp only
    split
    · rfl
    · split
      · split <;> rfl
      · rfl

/-- No token outside directives trims what follows it. -/
lemma trims_textPiece (d : Delimiters) (host : HostLanguage) (trimAfter : Bool) (t : Text) :
    (textPiece d host trimAfter t).trims = false := by
  unfold textPiece
  split
  · rfl
  · split
    · rfl
    · split
      · rfl
      · split
        · dsimp only
          split <;> rfl
        · rfl

/-- A token of blanks starts with one. -/
lemma isTrimSpace_of_textPiece {d : Delimiters} {host : HostLanguage} {trimAfter : Bool} {c : Char} {cs : Text}
    (h : (textPiece d host trimAfter (c :: cs)).kind = .whitespace) : isTrimSpace c = true := by
  by_cases hblank : trimAfter = true ∧ isTrimSpace c = true
  · exact hblank.2
  · rw [textPiece_of_noBlank hblank] at h
    cases hleft : leftMarker? d (c :: cs) with
    | some p =>
      rw [textPiece_of_marker hleft] at h
      simp at h
    | none =>
      simp only [textPiece, Bool.false_and, Bool.false_eq_true, if_false, hleft] at h
      split at h
      · simp at h
      · next n hn =>
        split at h
        · split at h
          · next hkept =>
            -- all that comes before the next marker are blanks
            have hpos : n ≠ 0 := by
              rintro rfl
              rw [leftMarker?_eq_none_iff] at hleft
              have := isPrefixOf_drop_of_findMarker? hn
              rw [List.drop_zero, hleft] at this
              simp at this
            apply isTrimSpace_of_mem_drop (t := (c :: cs).take n)
            rw [hkept, List.drop_zero]
            obtain ⟨k, rfl⟩ := Nat.exists_eq_succ_of_ne_zero hpos
            exact List.mem_cons_self
          · simp at h
        · simp at h

/-- Host text ends before the next marker, and only blanks lie between. -/
lemma le_of_textPiece {d : Delimiters} {host : HostLanguage} {t : Text} {n q : Nat}
    (hnone : leftMarker? d t = none) (hn : findMarker? d.left host t = some n)
    (hmarker : d.left.isPrefixOf (t.drop q) = true) (hq : (textPiece d host false t).length ≤ q) : n ≤ q := by
  unfold textPiece at hq
  simp only [Bool.false_and, Bool.false_eq_true, if_false, hnone, hn] at hq
  split at hq
  · split at hq
    · exact hq
    · refine findMarker?_le d.left_ne_nil hn ?_ hmarker
      intro c hc
      apply isTrimSpace_of_mem_drop (t := t.take n)
      exact List.mem_of_mem_drop (i := q - ((t.take n).reverse.dropWhile isTrimSpace).length) (by
        rwa [List.drop_drop, Nat.add_sub_cancel' hq])
  · exact hq

/-- A piece of host text depends on what follows it up to the next marker and one more character. -/
lemma textPiece_append {d : Delimiters} {host : HostLanguage} {x y : Text} {q m : Nat} {trims : Bool}
    (hnone : leftMarker? d (x ++ y) = none) (hmarker : leftMarker? d ((x ++ y).drop q) = some (m, trims))
    (hin : q + m < x.length) (hq : (textPiece d host false (x ++ y)).length ≤ q) :
    textPiece d host false x = textPiece d host false (x ++ y) := by
  have hnone' : leftMarker? d x = none := by
    rw [leftMarker?_eq_none_iff] at hnone ⊢
    exact Text.isPrefixOf_eq_false hnone
  obtain ⟨hstarts, hm, -⟩ := leftMarker?_eq_some hmarker
  cases hfind : findMarker? d.left host (x ++ y) with
  | none =>
    simp only [textPiece, Bool.false_and, Bool.false_eq_true, if_false, hnone, hfind, List.length_append] at hq
    omega
  | some n =>
    have hle : n ≤ q := le_of_textPiece hnone hfind hstarts hq
    obtain ⟨m', trims', hmarker'⟩ : ∃ m' trims', leftMarker? d ((x ++ y).drop n) = some (m', trims') := by
      cases h : leftMarker? d ((x ++ y).drop n) with
      | none =>
        rw [leftMarker?_eq_none_iff, isPrefixOf_drop_of_findMarker? hfind] at h
        exact absurd h (by simp)
      | some p => exact ⟨p.1, p.2, rfl⟩
    obtain ⟨-, hm', hm''⟩ := leftMarker?_eq_some hmarker'
    have hin' : n + m' < x.length := by
      rcases Nat.eq_or_lt_of_le hle with rfl | hlt
      · rw [hmarker] at hmarker'
        obtain ⟨rfl, -⟩ := Prod.mk.inj (Option.some.inj hmarker')
        exact hin
      · omega
    have hdrop : (x ++ y).drop n = x.drop n ++ y := List.drop_append_of_le_length (by omega)
    have hmarkerx : leftMarker? d (x.drop n) = some (m', trims') := by
      rw [hdrop] at hmarker'
      exact leftMarker?_append hmarker' (by rw [List.length_drop]; omega)
    have hfindx : findMarker? d.left host x = some n := findMarker?_append d.left_ne_nil hfind (by omega)
    have htake : (x ++ y).take n = x.take n := List.take_append_of_le_length (by omega)
    simp only [textPiece, Bool.false_and, Bool.false_eq_true, if_false, hnone, hnone', hfind, hfindx, hmarker',
      hmarkerx, htake]

end GoFront.Template
