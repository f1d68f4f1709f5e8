import GoFront.Proofs.Document.Agreement
import GoFront.Proofs.Parse.Template.Nesting

/-!
# The count of blocks that cuts a directive out

The tokens of a directive are found by counting blocks on the tokens. The same count on their kinds, blanks left out, says
where the directive ends and what is open if it runs into the end (`behind_extent`). It comes out the same on the tokens of
the directive alone (`behind_taken`), and even if a number takes the closing marker, no block is open (`Recut.behind`).
-/

namespace GoFront

namespace Template

open GoFront.Parser

variable {d : Delimiters} {m : Bool} {bs : List Kind} {ts us : List Token} {js ks : List Kind}

/-! ## Counting -/

/-- As many blocks are open behind an opening marker by either count. -/
lemma depthAfter_length (bs : List Kind) (ts : List Token) :
    depthAfter bs.length ts = (enter bs (ahead (significantKinds ts) 0)).length := by
  have hkeyword : actionKeyword? ts = (significantKinds ts).head? := by
    rw [significantKinds, List.head?_filter]
    rfl
  rw [depthAfter, hkeyword, enter]
  rcases significantKinds ts with _ | ⟨k, ks⟩
  · rfl
  · rw [show ahead (k :: ks) 0 = k from rfl, List.head?_cons]
    dsimp only
    split
    · rfl
    · split
      · rw [List.length_tail]
      · rfl

/-- A token that is no blank has a word. -/
lemma significantKinds_of_kind {t : Token} {k : Kind} (h : t.kind = k) (hk : k ≠ .whitespace) (ts : List Token) :
    significantKinds (t :: ts) = k :: significantKinds ts := by
  rw [significantKinds_cons, h, if_neg hk]

/-- Blanks do not count. -/
lemma behind_significantKinds_cons (t : Token) (hleft : t.kind ≠ .leftDelimiter) (hright : t.kind ≠ .rightDelimiter) :
    behind m bs (significantKinds (t :: ts)) = behind m bs (significantKinds ts) := by
  rw [significantKinds_cons]
  split
  · rfl
  · exact behind_other hleft hright _

/-- Where a directive ends by the count on tokens it ends by the count on kinds, and if it runs into the end, the same is
open there. -/
lemma behind_extent (m : Bool) (bs : List Kind) (ts : List Token) :
    ((extent d bs.length m ts).fault = none ∧
      behind m bs (significantKinds ts) = .ok (significantKinds (extent d bs.length m ts).rest)) ∨
    ∃ inside opened, (extent d bs.length m ts).fault = some (if inside then .unclosedAction else .missingEnd d) ∧
      behind m bs (significantKinds ts) = .error (inside, opened) := by
  induction ts generalizing m bs with
  | nil => exact .inr ⟨m, bs, rfl, rfl⟩
  | cons t ts ih =>
    rw [extent]
    split
    · next hleft =>
      rw [significantKinds_of_kind hleft (by decide), behind_left, depthAfter_length]
      exact ih true _
    · next hleft =>
      split
      · next hright =>
        rw [significantKinds_of_kind hright (by decide), behind_right]
        split
        · next hzero =>
          obtain rfl : bs = [] := List.length_eq_zero_iff.1 hzero
          rw [resume, if_pos rfl]
          left
          rcases ts with _ | ⟨next, ts⟩
          · exact ⟨rfl, rfl⟩
          · rw [closeAt]
            split
            · next hblank =>
              obtain ⟨-, hblank⟩ := Bool.and_eq_true_iff.1 hblank
              rw [significantKinds_cons, if_pos (of_decide_eq_true hblank)]
              exact ⟨rfl, rfl⟩
            · exact ⟨rfl, rfl⟩
        · next hzero =>
          rw [resume_of_ne_nil (fun h => hzero (List.length_eq_zero_iff.2 h)) _]
          exact ih false bs
      · next hright =>
        rw [behind_significantKinds_cons t hleft hright]
        exact ih m bs

/-- A directive takes at least one word. -/
lemma length_lt_of_behind (h : behind m bs ks = .ok js) : js.length < ks.length := by
  fun_induction behind m bs ks with
  | case1 => cases h
  | case2 _ _ _ ih => exact Nat.lt_succ_of_lt (ih h)
  | case3 =>
    cases h
    exact Nat.lt_succ_self _
  | case4 _ _ _ _ _ ih => exact Nat.lt_succ_of_lt (ih h)
  | case5 _ _ _ _ _ _ ih => exact Nat.lt_succ_of_lt (ih h)

/-- What follows a directive has no part in the count. -/
lemma behind_of_append (h : behind m bs (js ++ ks) = .ok ks) : behind m bs js = .ok [] := by
  fun_induction behind m bs js with
  | case1 => exact absurd (length_lt_of_behind h) (Nat.lt_irrefl _)
  | case2 m bs js ih =>
    rw [List.cons_append, behind_left] at h
    -- the keyword behind the marker belongs to the directive, too
    rcases js with _ | ⟨j, js⟩
    · exact absurd (length_lt_of_behind h) (Nat.lt_irrefl _)
    · exact ih h
  | case3 m js =>
    rw [List.cons_append, behind_right, resume, if_pos rfl] at h
    have hnil : js = [] := by simpa using Except.ok.inj h
    rw [hnil]
  | case4 m bs js hbs _ ih =>
    rw [List.cons_append, behind_right, resume_of_ne_nil hbs] at h
    exact ih h
  | case5 m bs j js hleft hright ih =>
    rw [List.cons_append, behind_other hleft hright] at h
    exact ih h

/-- The count on the tokens of a directive that is closed. -/
lemma behind_taken (h : (extent d 0 false ts).fault = none) :
    behind false [] (significantKinds (extent d 0 false ts).taken) = .ok [] := by
  rcases behind_extent (d := d) false [] ts with ⟨-, hbehind⟩ | ⟨inside, opened, hfault, -⟩
  · have happend : behind false [] (significantKinds (extent d 0 false ts).taken ++
        significantKinds (extent d 0 false ts).rest) = .ok (significantKinds (extent d 0 false ts).rest) := by
      rw [← significantKinds_append, taken_append_rest_extent]
      exact hbehind
    exact behind_of_append happend
  · rw [show (extent d 0 false ts).fault = _ from hfault] at h
    exact nomatch h

/-- Behind an opening marker, the end is reached inside a directive or inside a block. -/
lemma opened_ne_nil {opened : List Kind} (h : behind m bs ks = .error (false, opened)) (hopen : m = true ∨ bs ≠ []) :
    opened ≠ [] := by
  fun_induction behind m bs ks with
  | case1 =>
    cases h
    exact hopen.resolve_left Bool.false_ne_true
  | case2 _ _ _ ih => exact ih h (.inl rfl)
  | case3 => cases h
  | case4 _ _ _ hbs _ ih => exact ih h (.inr hbs)
  | case5 _ _ _ _ _ _ ih => exact ih h hopen

/-! ## A number that takes the closing marker -/

/-- A number is a word that opens and closes nothing. -/
lemma plain_of_mem_numberKinds {k : Kind} (hk : k ∈ Lexeme.numberKinds) :
    k ≠ .whitespace ∧ k ∉ foreignKinds ∧ IsPlain k := by
  have hall : ∀ k ∈ Lexeme.numberKinds, k ≠ .whitespace ∧ k ∉ foreignKinds ∧ opensBlock k = false ∧ k ≠ .elseKeyword ∧
      k ≠ .endKeyword := by decide
  exact hall k hk

/-- Only the last two tokens can make room for a number. -/
lemma Recut.eq_or_exists (h : Recut d ts us) : us = ts ∨ ∃ front n r n', ts = front ++ [n, r] ∧ us = front ++ [n'] ∧
    n.kind ∈ Lexeme.numberKinds ∧ n'.kind ∈ Lexeme.numberKinds ∧ r.kind = .rightDelimiter := by
  induction h with
  | same => exact .inl rfl
  | @number n r n' _ hn hn' hr => exact .inr ⟨[], n, r, n', rfl, rfl, hn, hn', hr⟩
  | @cons t ts us _ ih =>
    rcases ih with rfl | ⟨front, n, r, n', rfl, rfl, h⟩
    · exact .inl rfl
    · exact .inr ⟨t :: front, n, r, n', rfl, rfl, h⟩

/-- The opening marker that leads in is not taken. -/
lemma Recut.leadsIn (h : Recut d ts us) (hts : LeadsIn ts) : LeadsIn us := by
  rcases h.eq_or_exists with rfl | ⟨front, n, r, n', rfl, rfl, hn, -, -⟩
  · exact hts
  obtain ⟨gap, l, more, heq, hgap, hblank, hl⟩ := hts
  obtain ⟨hplain, hforeign, -⟩ := plain_of_mem_numberKinds hn
  have heq' : front ++ [n, r] = (gap ++ [l]) ++ more := by rw [heq, List.append_assoc, List.singleton_append]
  rcases List.append_eq_append_iff.1 heq' with ⟨z, hz, hmore⟩ | ⟨z, rfl, -⟩
  · -- the number is neither a blank nor the marker
    rcases z with _ | ⟨u, z⟩
    · rw [List.append_nil] at hz
      rw [← hz, List.append_assoc]
      exact ⟨gap, l, [n'], rfl, hgap, hblank, hl⟩
    · obtain rfl : n = u := (List.cons.inj hmore).1
      have hmem : n ∈ gap ++ [l] := hz ▸ by simp
      rcases List.mem_append.1 hmem with hmem | hmem
      · exact absurd (hblank n hmem) hplain
      · rw [List.mem_singleton.1 hmem, hl] at hforeign
        exact absurd (by decide) hforeign
  · exact ⟨gap, l, z ++ [n'], by simp, hgap, hblank, hl⟩

/-- With a number in place of a number and the closing marker, the end is reached where the directive would be closed. -/
lemma behind_concat {k k' : Kind} (hk : k ∈ Lexeme.numberKinds) (hk' : k' ∈ Lexeme.numberKinds)
    (h : behind m bs (js ++ [k, .rightDelimiter]) = .ok []) : ∃ inside, behind m bs (js ++ [k']) = .error (inside, []) := by
  obtain ⟨-, hforeign, hplain⟩ := plain_of_mem_numberKinds hk
  obtain ⟨-, hforeign', hplain'⟩ := plain_of_mem_numberKinds hk'
  induction js generalizing m bs with
  | nil =>
    have hcount : behind m bs ([k] ++ [.rightDelimiter]) = resume bs [] :=
      (behind_inner (by simpa using hforeign) _).trans (behind_right [])
    have hcount' : behind m bs ([k'] ++ []) = .error (m, bs) := behind_inner (by simpa using hforeign') []
    replace h : resume bs [] = .ok [] := hcount.symm.trans h
    obtain rfl : bs = [] := by
      by_contra hbs
      rw [resume_of_ne_nil hbs] at h
      exact nomatch h
    exact ⟨m, hcount'⟩
  | cons j js ih =>
    have henter : enter bs (ahead (js ++ [k']) 0) = enter bs (ahead (js ++ [k, .rightDelimiter]) 0) := by
      cases js with
      | nil => exact (enter_of_isPlain hplain').trans (enter_of_isPlain hplain).symm
      | cons => rfl
    rw [List.cons_append, behind] at h ⊢
    rw [henter]
    split at h
    · next hleft =>
      rw [if_pos hleft]
      exact ih h
    · next hleft =>
      rw [if_neg hleft]
      split at h
      · next hright =>
        rw [if_pos hright]
        split at h
        · exact absurd (Except.ok.inj h) (by simp)
        · next hbs =>
          rw [if_neg hbs]
          exact ih h
      · next hright =>
        rw [if_neg hright]
        exact ih h

lemma significantKinds_append_of_kind {t : Token} {k : Kind} (h : t.kind = k) (hk : k ≠ .whitespace) (ts us : List Token) :
    significantKinds (ts ++ t :: us) = significantKinds ts ++ k :: significantKinds us := by
  rw [significantKinds_append, significantKinds_of_kind h hk]

/-- If a number takes the closing marker of a directive, the directive runs into the end, but no block is open there. -/
lemma Recut.behind (h : Recut d ts us) (hts : behind m bs (significantKinds ts) = .ok []) :
    Template.behind m bs (significantKinds us) = .ok [] ∨
      ∃ inside, Template.behind m bs (significantKinds us) = .error (inside, []) := by
  rcases h.eq_or_exists with rfl | ⟨front, n, r, n', rfl, rfl, hn, hn', hr⟩
  · exact .inl hts
  · right
    rw [significantKinds_append_of_kind rfl (plain_of_mem_numberKinds hn).1, significantKinds_of_kind hr (by decide)] at hts
    rw [significantKinds_append_of_kind rfl (plain_of_mem_numberKinds hn').1]
    exact behind_concat hn hn' hts

/-- The first word of a directive is its opening marker. -/
lemma LeadsIn.significantKinds_eq (h : LeadsIn ts) : ∃ ks, significantKinds ts = .leftDelimiter :: ks := by
  obtain ⟨gap, l, more, rfl, -, hblank, hl⟩ := h
  have hgap : significantKinds gap = [] := by
    rw [significantKinds, List.filter_eq_nil_iff]
    intro k hk
    obtain ⟨g, hg, rfl⟩ := List.mem_map.1 hk
    simp [hblank g hg]
  exact ⟨_, by rw [significantKinds_append_of_kind hl (by decide), hgap, List.nil_append]⟩

end Template

end GoFront
