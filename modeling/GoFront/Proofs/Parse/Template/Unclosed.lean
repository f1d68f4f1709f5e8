import GoFront.Proofs.Parse.Template.Nesting

/-!
# Directives that are not closed

That a directive is not closed is told at most once, and only of a directive with which the document ends (`Shuts`). So it
is told only of documents that end inside a directive by the count of the markers (`endsInside`).
-/

namespace GoFront

namespace Template

open GoFront.Parser Sprout

variable {d : Delimiters} {bs : List Kind} {m : Bool} {xs : List Sprout} {ws : List Word}

/-! ## Counting the markers -/

/-- Whether the input ends inside a directive, if `m` tells whether it starts in one. -/
def endsInside : Bool → List Kind → Bool
  | m, [] => m
  | m, k :: ks => endsInside (if k = .leftDelimiter then true else if k = .rightDelimiter then false else m) ks

lemma endsInside_append (js ks : List Kind) : endsInside m (js ++ ks) = endsInside (endsInside m js) ks := by
  induction js generalizing m with
  | nil => rfl
  | cons j js ih => exact ih

lemma endsInside_inner {js : List Kind} (h : ∀ j ∈ js, j ∉ foreignKinds) : endsInside m js = m := by
  induction js with
  | nil => rfl
  | cons j js ih =>
    obtain ⟨hj, hjs⟩ := List.forall_mem_cons.1 h
    have hleft : j ≠ .leftDelimiter := fun heq => hj (heq ▸ by decide)
    have hright : j ≠ .rightDelimiter := fun heq => hj (heq ▸ by decide)
    rw [endsInside, if_neg hleft, if_neg hright, ih hjs]

/-- A directive that runs into the end ends where counting says. -/
lemma endsInside_of_behind {ks : List Kind} {inside : Bool} {opened : List Kind}
    (h : behind m bs ks = .error (inside, opened)) : endsInside m ks = inside := by
  fun_induction behind m bs ks with
  | case1 =>
    cases h
    rfl
  | case2 _ _ _ ih => exact ih h
  | case3 => cases h
  | case4 _ _ _ _ _ ih => exact ih h
  | case5 _ _ _ _ hleft hright ih =>
    rw [endsInside, if_neg hleft, if_neg hright]
    exact ih h

/-- A directive that is closed ends outside. -/
lemma endsInside_of_closed {ks : List Kind} (h : behind m bs ks = .ok []) : endsInside m ks = false := by
  fun_induction behind m bs ks with
  | case1 => cases h
  | case2 _ _ _ ih => exact ih h
  | case3 =>
    cases h
    rfl
  | case4 _ _ _ _ _ ih => exact ih h
  | case5 _ _ _ _ hleft hright ih =>
    rw [endsInside, if_neg hleft, if_neg hright]
    exact ih h

/-- The errors among those in some sprouts that a directive is not closed. -/
def unclosedIn (xs : List Sprout) : List (Problem × Span) := (errorsIn xs).filter (·.1 = .unclosedAction)

lemma unclosedIn_append (xs ys : List Sprout) : unclosedIn (xs ++ ys) = unclosedIn xs ++ unclosedIn ys := by
  rw [unclosedIn, errorsIn_append, List.filter_append]
  rfl

/-- Sprouts in front of the words `ws` tell what can be wrong with a template, but at most once that a directive is not
closed, and only if they end inside one and nothing follows. -/
structure Shuts (d : Delimiters) (xs : List Sprout) (ws : List Word) : Prop where
  arises : ∀ e ∈ errorsIn xs, e.1.Arises d
  once : unclosedIn xs = [] ∨
    ∃ r, unclosedIn xs = [(.unclosedAction, r)] ∧ wordsIn xs ≠ [] ∧ ws = [] ∧
      ∀ m, endsInside m (kindsOf (wordsIn xs)) = true

namespace Shuts

variable {ys : List Sprout}

lemma nil : Shuts d [] ws := ⟨by simp [errorsIn], .inl rfl⟩

lemma word {w : Word} : Shuts d [.word w] ws := ⟨by simp [errorsIn, errors], .inl rfl⟩

lemma node {k : Kind} (h : Shuts d xs ws) : Shuts d [.node k xs] ws := by
  have hwords : wordsIn [.node k xs] = wordsIn xs := by simp [wordsIn, words]
  have herrors : errorsIn [.node k xs] = errorsIn xs := by simp [errorsIn, errors]
  obtain ⟨harises, honce⟩ := h
  refine ⟨herrors ▸ harises, ?_⟩
  rwa [unclosedIn, herrors, hwords]

/-- An error that something else is wrong. -/
lemma error {p : Problem} {r : Span} (hp : p.Arises d) (hne : p ≠ .unclosedAction) : Shuts d [.error p r] ws :=
  ⟨by simpa [errorsIn, errors] using hp, .inl (by simp [unclosedIn, errorsIn, errors, hne])⟩

lemma append (h : Shuts d xs (wordsIn ys ++ ws)) (k : Shuts d ys ws) : Shuts d (xs ++ ys) ws := by
  refine ⟨?_, ?_⟩
  · rw [errorsIn_append]
    exact List.forall_mem_append.2 ⟨h.arises, k.arises⟩
  rw [unclosedIn_append, wordsIn_append]
  rcases h.once with hxs | ⟨r, hxs, hne, hnil, hinside⟩
  · rw [hxs, List.nil_append]
    refine k.once.imp_right ?_
    rintro ⟨r, k, hne, hnil, hinside⟩
    refine ⟨r, k, List.append_ne_nil_of_right_ne_nil _ hne, hnil, fun m => ?_⟩
    rw [kindsOf, List.map_append, endsInside_append]
    exact hinside _
  · obtain ⟨hys, rfl⟩ := List.append_eq_nil_iff.1 hnil
    have hnone : unclosedIn ys = [] := by
      refine k.once.resolve_right ?_
      rintro ⟨-, -, hne, -⟩
      exact hne hys
    rw [hxs, hnone, hys, List.append_nil, List.append_nil]
    exact .inr ⟨r, rfl, hne, rfl, hinside⟩

lemma append_error {p : Problem} {r : Span} (h : Shuts d xs ws) (hp : p.Arises d) (hne : p ≠ .unclosedAction) :
    Shuts d (xs ++ [.error p r]) ws :=
  append h (.error hp hne)

lemma row {P : Sprout → List Word → Prop} (h : Row P xs ws) (hP : ∀ {x ws}, P x ws → Shuts d [x] ws) :
    Shuts d xs ws := by
  induction h with
  | nil => exact .nil
  | cons hx _ ih => exact (hP hx).append ih

end Shuts

lemma Action.shuts (h : Action xs ws) : Shuts d xs ws := by
  refine ⟨fun e he => ?_, ?_⟩
  · rcases h.errors_inner e he with hinner | heq
    · generalize e.1 = p at hinner
      cases p with
      | expected => exact hinner
      | nestingTooDeep => exact hinner
      | missingValue => exact hinner
      | _ => exact Bool.noConfusion hinner
    · rw [heq]
      exact trivial
  cases h with
  | @intro w us cs ws hw hus hcs =>
    have hinner : unclosedIn (.word w :: us) = [] := by
      rw [unclosedIn, List.filter_eq_nil_iff]
      intro e he heq
      obtain ⟨u, hu, heu⟩ := mem_errorsIn.1 he
      rcases List.mem_cons.1 hu with rfl | hu
      · exact nomatch heu
      · have hpart := (hus u hu).inner.2 e heu
        rw [of_decide_eq_true heq] at hpart
        exact Bool.noConfusion hpart
    have hkinds : ∀ j ∈ kindsOf (wordsIn us), j ∉ foreignKinds := by
      intro j hj
      obtain ⟨v, hv, rfl⟩ := List.mem_map.1 hj
      obtain ⟨u, hu, hvu⟩ := mem_wordsIn.1 hv
      exact (hus u hu).inner.1 v hvu
    rw [← List.cons_append, unclosedIn_append, hinner, List.nil_append]
    cases hcs with
    | marker => exact .inl rfl
    | @unclosed r =>
      refine .inr ⟨r, rfl, by simp [wordsIn, words], rfl, fun m => ?_⟩
      have hwords : kindsOf (wordsIn (.word w :: us ++ [Sprout.error .unclosedAction r])) =
          .leftDelimiter :: kindsOf (wordsIn us) := by
        simp [kindsOf, wordsIn, words, show w.kind = .leftDelimiter from hw]
      rw [hwords, endsInside, if_pos rfl, endsInside_inner hkinds]
    | lost => exact .inl rfl

section

variable {block : Bool → Sprout → List Word → Prop} {inLoop : Bool} {x : Sprout}
  (hblock : ∀ {inLoop x ws}, block inLoop x ws → Shuts d [x] ws)

include hblock

lemma Item.shuts (h : Item d block inLoop x ws) : Shuts d [x] ws := by
  cases h with
  | text => exact .word
  | simple _ hxs => exact hxs.shuts.node
  | @jump k keyword xs _ hk hxs =>
    have hkeyword : keyword = "break" ∨ keyword = "continue" := by
      simp only [List.mem_cons, Prod.mk.injEq, List.not_mem_nil, or_false] at hk
      exact hk.imp And.right And.right
    split
    · rw [List.append_nil]
      exact hxs.shuts.node
    · have harises : (Problem.outsideLoop d keyword).Arises d := ⟨rfl, hkeyword⟩
      exact (hxs.shuts.append_error harises Problem.noConfusion).node
  | block h => exact hblock h

lemma IsList.shuts (h : IsList d block inLoop x ws) : Shuts d [x] ws := by
  obtain ⟨hxs, -⟩ := h
  exact (Shuts.row hxs fun h => h.shuts hblock).node

lemma IsElse.shuts (h : IsElse d block inLoop x ws) : Shuts d [x] ws := by
  cases h with
  | @intro xs es l ws hxs _ hes hl =>
    have hopen : Shuts d xs (wordsIn [l] ++ ws) := by
      simpa [wordsIn] using hxs.shuts (d := d)
    have hfault : Shuts d (xs ++ es) (wordsIn [l] ++ ws) := by
      rcases hes with rfl | ⟨p, r, rfl, rfl | ⟨_, rfl⟩⟩
      · rwa [List.append_nil]
      · exact hopen.append_error rfl Problem.noConfusion
      · exact hopen.append_error rfl Problem.noConfusion
    have hall := hfault.append (hl.shuts hblock)
    rw [List.append_assoc] at hall
    exact hall.node

lemma BlockNode.shuts (h : BlockNode d block inLoop x ws) : Shuts d [x] ws := by
  cases h with
  | @intro b xs es l y ws hb hxs hkey hl hes hnamed hcontrol hy =>
    have hy' : Shuts d [y] ws := by
      cases hy with
      | closed hxs => exact hxs.shuts.node
      | missing => exact .error rfl Problem.noConfusion
    have hsingle : ∀ z : Sprout, wordsIn [z] = z.words := fun z => by simp [wordsIn]
    have hopen := hxs.shuts (d := d)
    have hlist := hl.shuts hblock
    have helse : Shuts d es (y.words ++ ws) := Shuts.row hes fun h => h.shuts hblock
    rw [← hsingle] at hopen helse hlist
    rw [← hsingle y] at hopen
    have hall := ((hopen.append hlist).append helse).append hy'
    simp only [List.append_assoc] at hall
    exact hall.node

end

lemma shuts_isBlock {levels : Nat} {inLoop : Bool} {x : Sprout} (h : IsBlock d levels inLoop x ws) : Shuts d [x] ws := by
  induction levels generalizing inLoop x ws with
  | zero =>
    obtain ⟨-⟩ := h
    refine ⟨?_, .inl ?_⟩
    · simp [errorsIn, errors, errorsIn_map_word, Problem.Arises, Problem.isInner]
    · simp [unclosedIn, errorsIn, errors, errorsIn_map_word]
  | succ levels ih => exact BlockNode.shuts ih h

/-- In a document it is told at most once that a directive is not closed, and only if the document ends inside one. -/
lemma shuts_of_row (h : Row (TopItem d) xs ws) : Shuts d xs ws := by
  refine Shuts.row h fun hx => ?_
  cases hx with
  | item h => exact h.shuts shuts_isBlock
  | stray h =>
    cases h with
    | @intro _ _ label _ _ _ hxs _ =>
      have harises : (Problem.stray d label).Arises d := rfl
      exact (hxs.shuts.append_error harises Problem.noConfusion).node

end Template

end GoFront
