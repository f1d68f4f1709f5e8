import GoFront.Proofs.Parse.Template.Outcome
import GoFront.Proofs.Parse.Template.Unclosed
import GoFront.Proofs.Parse.Template.Wording

/-!
# What the markers of a template say about its tree

The count of the markers and blocks of a template decides what its tree says. A template that ends inside a block misses an
`end` (`missing_of_behind`); one that ends inside a directive has an error, and only there it is told that a directive is
not closed (`errors_ne_nil`, `unclosed_eq_nil`). A template that is one directive by the count is one in its tree, unless an
`else` is misplaced (`single_of_behind`).
-/

namespace GoFront

/-- A root with one node, and nothing but blanks around it. -/
def SyntaxTree.IsSingle (t : SyntaxTree) : Prop :=
  ∃ front n back, t.root.children = front ++ Node.element n :: back ∧
    ∀ e ∈ front ++ back, ∃ i u, e = .token i u ∧ u.kind = .whitespace

namespace Template

open GoFront.Parser Sprout

variable {d : Delimiters} {host : HostLanguage} {offset : Nat} {text : Text}

/-! ## Errors -/

/-- An error of the tree that is not lexical grew. -/
lemma report_mem_grownOf {e : SyntaxError} (he : e ∈ (parse d host offset text).errors)
    (hlexical : e.problem.isLexical = false) : e.report ∈ errorsIn (grownOf d host offset text) := by
  rw [← (errors_parse d host offset text).2]
  exact List.mem_map_of_mem (List.mem_filter.2 ⟨he, by rw [hlexical]; rfl⟩)

/-- What grew is an error of the tree. -/
lemma exists_error {x : Problem × Span} (hx : x ∈ errorsIn (grownOf d host offset text)) :
    ∃ e ∈ (parse d host offset text).errors, e.report = x := by
  rw [← (errors_parse d host offset text).2] at hx
  obtain ⟨e, he, rfl⟩ := List.mem_map.1 hx
  exact ⟨e, (List.mem_filter.1 he).1, rfl⟩

variable (d host offset text) in
lemma shuts_grownOf : Shuts d (grownOf d host offset text) [] := shuts_of_row (row_grownOf d host offset text).2

/-- An error of the tree that starts like no lexical one grew, and tells what can be wrong with a template. -/
lemma arises_of_prefix {p : List Char} (hp : ∀ q ∈ ["unterminated ".toList, "unexpected character ".toList],
    ¬ p <+: q ∧ ¬ q <+: p) {e : SyntaxError} (he : e ∈ (parse d host offset text).errors)
    (h : p <+: e.message.toList) : e.report ∈ errorsIn (grownOf d host offset text) ∧ e.problem.Arises d := by
  have hlexical : e.problem.isLexical = false := by
    rw [← Bool.not_eq_true]
    intro hlexical
    rcases prefix_of_isLexical he hlexical with hq | hq
    · exact (List.prefix_or_prefix_of_prefix h hq).elim (hp _ (by simp)).1 (hp _ (by simp)).2
    · exact (List.prefix_or_prefix_of_prefix h hq).elim (hp _ (by simp)).1 (hp _ (by simp)).2
  have hgrown := report_mem_grownOf he hlexical
  exact ⟨hgrown, (shuts_grownOf d host offset text).arises _ hgrown⟩

/-- The tree tells that an `end` is missing exactly if that has grown. -/
lemma exists_missing_iff : (∃ e ∈ (parse d host offset text).errors,
      ("missing " ++ d.around "end" ++ " for ").toList <+: e.message.toList) ↔
    MissesEnd (grownOf d host offset text) := by
  constructor
  · rintro ⟨e, he, h⟩
    have hmissing : "missing ".toList <+: e.message.toList :=
      (Problem.prefix_append (Problem.prefix_append (List.prefix_refl _))).trans h
    obtain ⟨hgrown, harises⟩ := arises_of_prefix (by decide) he hmissing
    exact ⟨_, hgrown, Problem.isMissingEnd_of_prefix harises h⟩
  · rintro ⟨x, hx, hmissing⟩
    have harises := (shuts_grownOf d host offset text).arises _ hx
    obtain ⟨e, he, rfl⟩ := exists_error hx
    refine ⟨e, he, ?_⟩
    rw [SyntaxError.message]
    change e.problem.isMissingEnd = true at hmissing
    change e.problem.Arises d at harises
    generalize e.problem = p at hmissing harises
    cases p with
    | missingEnd d' k =>
      obtain rfl : d' = d := harises
      exact Problem.prefix_append (List.prefix_refl _)
    | _ => exact Bool.noConfusion hmissing

/-- The errors of the tree that tell that a directive is not closed are those that grew. -/
lemma map_report_unclosed : ((parse d host offset text).errors.filter (·.message = "unclosed action")).map
    SyntaxError.report = unclosedIn (grownOf d host offset text) := by
  have hfilter : (parse d host offset text).errors.filter (·.message = "unclosed action") =
      ((parse d host offset text).errors.filter (!·.problem.isLexical)).filter (·.problem = .unclosedAction) := by
    rw [List.filter_filter]
    refine List.filter_congr fun e he => ?_
    rw [Bool.eq_iff_iff, Bool.and_eq_true, decide_eq_true_eq, decide_eq_true_eq]
    constructor
    · intro h
      obtain ⟨-, harises⟩ := arises_of_prefix (p := "unclosed action".toList) (by decide) he (h ▸ List.prefix_refl _)
      have hproblem := Problem.eq_unclosedAction_of_message harises h
      exact ⟨hproblem, by rw [hproblem]; rfl⟩
    · rintro ⟨h, -⟩
      rw [SyntaxError.message, h]
      rfl
  rw [hfilter, unclosedIn, ← (errors_parse d host offset text).2, List.filter_map]
  rfl

/-- Unless the opening marker starts that way, all errors that start in these words tell that a directive is not
closed. -/
lemma exists_unclosed_iff (hleft : ¬ "unclosed action".toList <+: d.left) : (∃ e ∈ (parse d host offset text).errors,
      "unclosed action".toList <+: e.message.toList) ↔ unclosedIn (grownOf d host offset text) ≠ [] := by
  rw [← map_report_unclosed, Ne, List.map_eq_nil_iff, List.filter_eq_nil_iff]
  push Not
  refine exists_congr fun e => and_congr_right fun he => ?_
  rw [decide_eq_true_eq]
  constructor
  · intro h
    obtain ⟨-, harises⟩ := arises_of_prefix (by decide) he h
    rw [SyntaxError.message, Problem.eq_unclosedAction_of_prefix harises hleft h]
    rfl
  · intro h
    rw [h]

/-! ## The end of the template -/

/-- It is not told that a directive is not closed if the template ends outside directives. -/
lemma unclosed_eq_nil (h : endsInside false (significantKinds (tokens d host offset text)) = false) :
    unclosedIn (grownOf d host offset text) = [] := by
  refine (shuts_grownOf d host offset text).once.resolve_right ?_
  rintro ⟨r, -, -, -, hinside⟩
  rw [← kinds_grownOf, hinside] at h
  exact Bool.noConfusion h

/-- One token, blank or not, counts as the lexer goes on. -/
lemma endsInside_cons {mode after : Bool} {t : Token} (h : Turns mode t.kind after) (ts : List Token) :
    endsInside mode (significantKinds (t :: ts)) = endsInside after (significantKinds ts) := by
  rw [significantKinds_cons]
  generalize t.kind = k at h
  cases h with
  | host hk => rcases hk with rfl | rfl <;> rfl
  | opens => rfl
  | closes => rfl
  | inner hk =>
    have hleft : k ≠ .leftDelimiter := fun h => hk (h ▸ by decide)
    have hright : k ≠ .rightDelimiter := fun h => hk (h ▸ by decide)
    split
    · rfl
    · rw [endsInside, if_neg hleft, if_neg hright]

/-- Host text and closing markers leave the lexer outside directives. -/
lemma endsInside_of_alternates {mode : Bool} {ds : List Drawn} (h : Alternates mode ds) {k : Kind}
    (hlast : k ∈ (significantKinds (ds.map Drawn.token)).getLast?) (hk : k = .text ∨ k = .rightDelimiter) :
    endsInside mode (significantKinds (ds.map Drawn.token)) = false := by
  induction ds generalizing mode with
  | nil => exact nomatch hlast
  | cons t ds ih =>
    obtain ⟨hturn, hrest⟩ := h
    rw [List.map_cons, endsInside_cons hturn]
    rw [List.map_cons, significantKinds_cons] at hlast
    rcases hks : significantKinds (ds.map Drawn.token) with _ | ⟨j, ks⟩
    · -- the token is the last word
      rw [hks] at hlast
      split at hlast
      · exact nomatch hlast
      · obtain rfl : t.token.kind = k := by simpa using hlast
        generalize t.token.kind = k, t.inAction = after at hturn hk
        cases hturn with
        | host => rfl
        | opens => exact absurd hk (by decide)
        | closes => rfl
        | inner hno => rcases hk with rfl | rfl <;> exact absurd (by decide) hno
    · rw [← hks]
      refine ih hrest ?_
      rw [hks] at hlast ⊢
      split at hlast
      · exact hlast
      · rwa [List.getLast?_cons_cons] at hlast

/-- The words of a template end outside directives. -/
lemma endsInside_of_templateWord (h : significantKinds (tokens d host offset text) ∈ templateWord) :
    endsInside false (significantKinds (tokens d host offset text)) = false := by
  obtain ⟨us, heq, hus⟩ := Language.mem_kstar.1 h
  rcases List.eq_nil_or_concat us with rfl | ⟨us, u, rfl⟩
  · rw [heq]
    rfl
  · obtain ⟨v, k, rfl, hk⟩ := endsOutside_itemWord nestingLimit false u (hus u (by simp))
    refine endsInside_of_alternates (alternates_scan d host {} offset text) (k := k) ?_ hk
    change k ∈ (significantKinds (tokens d host offset text)).getLast?
    rw [heq]
    simp

/-- A template that ends inside a directive has an error. -/
lemma errors_ne_nil (h : endsInside false (significantKinds (tokens d host offset text)) = true) :
    (parse d host offset text).errors ≠ [] := by
  intro hnil
  have htrivia : ∀ k, isTrivia k = true → k.isLexicalError = false := by
    intro k hk
    rw [eq_of_beq hk]
    rfl
  obtain ⟨hclean, hplain⟩ := (errors_tree_eq_nil htrivia).1 hnil
  have hkinds := kinds_start text offset (tokens d host offset text)
  have houtside := outside_tokens d host offset text fun k hk => by
    rw [← hkinds] at hk
    obtain ⟨w, hw, rfl⟩ := List.mem_map.1 hk
    exact hplain w hw
  rw [← hkinds] at houtside
  have hword := (reads_document _ houtside).1 ⟨_, hclean, rfl, rfl⟩
  rw [hkinds] at hword
  rw [endsInside_of_templateWord hword] at h
  exact Bool.noConfusion h

/-! ## One directive -/

/-- A template that starts with a directive that its end closes ... -/
lemma single_of_behind (hleft : ahead (significantKinds (tokens d host offset text)) 0 = .leftDelimiter)
    (helse : misplacesElse [] (significantKinds (tokens d host offset text)) = false)
    (hend : ∀ ks, behind false [] (significantKinds (tokens d host offset text)) = .ok ks → ks = []) :
    (parse d host offset text).IsSingle ∧
      ((∀ inside opened, behind false [] (significantKinds (tokens d host offset text)) = .error (inside, opened) →
        opened = []) → ¬ MissesEnd (grownOf d host offset text)) := by
  rw [← kinds_grownOf] at hleft helse hend
  obtain ⟨k, cs, hgrown, hmissing⟩ := eq_singleton_of_row (row_grownOf d host offset text).2
    ((kindAt_eq_ahead _ _).trans hleft) helse hend
  refine ⟨?_, fun hopened => hmissing (by rwa [← kinds_grownOf] at hopened)⟩
  obtain ⟨es, gap, hchildren, hgap, hrenders⟩ := renders_parse d host offset text
  rw [hgrown] at hrenders
  obtain ⟨front, n, rfl, hfront, -⟩ := hrenders.eq_concat
  refine ⟨front, n, gap, by simpa using hchildren, fun e he => ?_⟩
  obtain ⟨i, u, rfl, hu⟩ := (List.mem_append.1 he).elim (hfront e) (hgap e)
  exact ⟨i, u, rfl, by simpa [isTrivia] using hu⟩

/-- A template that starts with a directive and ends inside a block misses an `end`. -/
lemma missing_of_behind (hleft : ahead (significantKinds (tokens d host offset text)) 0 = .leftDelimiter)
    {inside : Bool} {opened : List Kind}
    (hbehind : behind false [] (significantKinds (tokens d host offset text)) = .error (inside, opened))
    (hopened : opened ≠ []) : MissesEnd (grownOf d host offset text) := by
  rw [← kinds_grownOf] at hleft hbehind
  exact missesEnd_of_row (row_grownOf d host offset text).2 ((kindAt_eq_ahead _ _).trans hleft) hbehind hopened

end Template

end GoFront
