import GoFront.Proofs.Parse.Template.Form
import GoFront.Proofs.Parse.Wording

/-!
# The wording of errors of the template grammar

The errors of the template grammar are told apart by their messages, up to the markers, which may read like anything.
A loop control without a loop is told in words that start with the marker itself; still they never read as if an `end`
were missing, and as if a directive were not closed only if the marker starts that way.
-/

namespace GoFront

namespace Problem

/-- A text that starts with `t` does not start like no text that starts with `t`. -/
lemma not_start_of_start {p q : List Char} {s t : String} (ht : p <+: t.toList) (hs : q <+: s.toList)
    (h : ¬ p <+: q ∧ ¬ q <+: p) : ¬ t.toList <+: s.toList := fun hts =>
  (List.prefix_or_prefix_of_prefix (ht.trans hts) hs).elim h.1 h.2

/-- What is wrong with what stands in a directive is not told in the words for a missing `end`. -/
lemma not_missing_start {e : Problem} (he : e.isInner = true ∨ e = .unclosedAction) (d : Delimiters) :
    ¬ ("missing " ++ d.around "end").toList <+: e.message.toList := by
  have hmissing : "missing ".toList <+: ("missing " ++ d.around "end").toList := prefix_append (List.prefix_refl _)
  cases e with
  | expected what got =>
    exact not_start_of_start hmissing (prefix_append (prefix_append (prefix_append (List.prefix_refl _)))) (by decide)
  | nestingTooDeep => exact not_start_of_start hmissing (List.prefix_refl _) (by decide)
  | missingValue subject =>
    have hsubject : subject ∈ ["command", "if", "range", "with"] := by simpa [isInner] using he
    have hnone : ∀ s ∈ ["command", "if", "range", "with"],
        ¬ "end".toList <:+: (Problem.missingValue s).message.toList := by decide
    refine fun h => hnone subject hsubject (List.IsInfix.trans ?_ h.isInfix)
    rw [Delimiters.around, String.toList_append, String.toList_append, String.toList_append]
    exact ⟨"missing ".toList ++ (String.ofList d.left).toList, (String.ofList d.right).toList, by simp⟩
  | unclosedAction => exact not_start_of_start hmissing (List.prefix_refl _) (by decide)
  | _ => simp [isInner] at he

/-- Nor is it told in the words for an `else` or `end` without a block. -/
lemma message_ne_stray {e : Problem} (he : e.isInner = true ∨ e = .unclosedAction) (d : Delimiters) (keyword : String) :
    e.message ≠ (Problem.stray d keyword).message := by
  have hstray : "unexpected ".toList <+: (Problem.stray d keyword).message.toList := prefix_append (List.prefix_refl _)
  cases e with
  | expected what got =>
    exact ne_of_prefix (prefix_append (prefix_append (prefix_append (List.prefix_refl _)))) hstray (by decide)
  | nestingTooDeep => exact ne_of_prefix (List.prefix_refl _) hstray (by decide)
  | missingValue subject => exact ne_of_prefix (prefix_append (List.prefix_refl _)) hstray (by decide)
  | unclosedAction => exact ne_of_prefix (List.prefix_refl _) hstray (by decide)
  | _ => simp [isInner] at he

/-- What is wrong with an `else` branch as a whole is told in other words. -/
lemma elseFault_ne_stray {e : Problem} {d : Delimiters} (he : e = .elseBehindElse d ∨ ∃ k, e = .chainedElse d k)
    {keyword : String} (hkeyword : keyword.toList.length ≤ 4) : e.message ≠ (Problem.stray d keyword).message := by
  rcases he with rfl | ⟨k, rfl⟩
  · exact ne_of_prefix (p := "expected ".toList) (q := "unexpected ".toList)
      (prefix_append (prefix_append (prefix_append (List.prefix_refl _)))) (prefix_append (List.prefix_refl _)) (by decide)
  · intro heq
    have haround : ∀ s : String, (d.around s).toList.length = d.left.length + s.toList.length + d.right.length := by
      simp [Delimiters.around, Nat.add_assoc]
    have hlength : ("unexpected chained " ++ d.around "else" ++ " in " ++ d.around k).toList.length =
        ("unexpected " ++ d.around keyword).toList.length := congrArg (fun s : String => s.toList.length) heq
    have hchained : "unexpected chained ".toList.length = 19 := by decide
    have hstray : "unexpected ".toList.length = 11 := by decide
    have helse : "else".toList.length = 4 := by decide
    rw [String.toList_append, String.toList_append, String.toList_append, String.toList_append, List.length_append,
      List.length_append, List.length_append, List.length_append, haround, haround, haround, hchained, hstray, helse]
      at hlength
    omega

/-- In front of a text that repeats `p`, what follows the text starts with a character of `p`. -/
lemma mem_of_prefix {p t q r : List Char} {c : Char} (hp : p ≠ []) (h : p ++ (t ++ q) <+: t ++ c :: r) : c ∈ p := by
  induction t generalizing p with
  | nil =>
    obtain ⟨b, p, rfl⟩ := List.exists_cons_of_ne_nil hp
    rw [(List.cons_prefix_cons.1 h).1]
    exact List.mem_cons_self
  | cons a t ih =>
    obtain ⟨b, p, rfl⟩ := List.exists_cons_of_ne_nil hp
    obtain ⟨rfl, h⟩ := List.cons_prefix_cons.1 h
    have hmem : c ∈ p ++ [b] := ih (List.append_ne_nil_of_right_ne_nil p (List.cons_ne_nil b [])) (by simpa using h)
    simpa [or_comm] using hmem

variable {d : Delimiters} {e : Problem}

lemma toList_around (keyword : String) : (d.around keyword).toList = d.left ++ (keyword.toList ++ d.right) := by
  rw [Delimiters.around, String.toList_append, String.toList_append, String.toList_ofList, String.toList_ofList,
    List.append_assoc]

/-- The words for a loop control without a loop. -/
lemma toList_outsideLoop (keyword : String) : (Problem.outsideLoop d keyword).message.toList =
    d.left ++ (keyword.toList ++ (d.right ++ (" outside ".toList ++ (d.left ++ ("range".toList ++ d.right))))) := by
  rw [show (Problem.outsideLoop d keyword).message = d.around keyword ++ " outside " ++ d.around "range" from rfl,
    String.toList_append, String.toList_append, toList_around, toList_around]
  simp only [List.append_assoc]

/-- Only an `end` that is missing is told in the words for that. -/
lemma isMissingEnd_of_prefix (he : e.Arises d)
    (h : ("missing " ++ d.around "end" ++ " for ").toList <+: e.message.toList) : e.isMissingEnd = true := by
  have hshort : ("missing " ++ d.around "end").toList <+: e.message.toList := by
    refine List.IsPrefix.trans ?_ h
    exact prefix_append (List.prefix_refl _)
  have hmissing : "missing ".toList <+: ("missing " ++ d.around "end").toList := prefix_append (List.prefix_refl _)
  cases e with
  | missingEnd => rfl
  | elseBehindElse =>
    exact absurd hshort (not_start_of_start (q := "expected ".toList) hmissing
      (prefix_append (prefix_append (prefix_append (List.prefix_refl _)))) (by decide))
  | chainedElse =>
    exact absurd hshort (not_start_of_start (q := "unexpected chained ".toList) hmissing
      (prefix_append (prefix_append (prefix_append (List.prefix_refl _)))) (by decide))
  | stray =>
    exact absurd hshort (not_start_of_start (q := "unexpected ".toList) hmissing (prefix_append (List.prefix_refl _))
      (by decide))
  | outsideLoop _ keyword =>
    obtain ⟨rfl, hkeyword⟩ := he
    rw [String.toList_append, toList_around, toList_outsideLoop] at hshort
    -- the letter behind the marker would have to be one of those in front of it
    have hletter : ∀ {c : Char} {r : List Char}, keyword.toList = c :: r → c ∈ "missing ".toList := fun hc =>
      mem_of_prefix (List.cons_ne_nil _ _) (by rwa [hc] at hshort)
    rcases hkeyword with rfl | rfl
    · exact absurd (hletter (show "break".toList = 'b' :: "reak".toList from rfl)) (by decide)
    · exact absurd (hletter (show "continue".toList = 'c' :: "ontinue".toList from rfl)) (by decide)
  | unclosedAction => exact absurd hshort (not_missing_start (.inr rfl) d)
  | expected => exact absurd hshort (not_missing_start (.inl he) d)
  | nestingTooDeep => exact absurd hshort (not_missing_start (.inl he) d)
  | missingValue => exact absurd hshort (not_missing_start (.inl he) d)
  | _ => exact Bool.noConfusion (show false = true from he)

/-- Apart from the words for a loop control without a loop, only those for a directive that is not closed start that
way. -/
lemma eq_unclosedAction_or_outsideLoop (he : e.Arises d) (h : "unclosed action".toList <+: e.message.toList) :
    e = .unclosedAction ∨ ∃ keyword, (keyword = "break" ∨ keyword = "continue") ∧ e = .outsideLoop d keyword := by
  have hno : ∀ {q : List Char}, q <+: e.message.toList →
      ¬ "unclosed action".toList <+: q ∧ ¬ q <+: "unclosed action".toList → False :=
    fun hq hne => (List.prefix_or_prefix_of_prefix h hq).elim hne.1 hne.2
  cases e with
  | unclosedAction => exact .inl rfl
  | outsideLoop _ keyword =>
    obtain ⟨rfl, hkeyword⟩ := he
    exact .inr ⟨keyword, hkeyword, rfl⟩
  | expected =>
    exact (hno (q := "expected ".toList) (prefix_append (prefix_append (prefix_append (List.prefix_refl _))))
      (by decide)).elim
  | nestingTooDeep => exact (hno (q := "nesting too deep".toList) (List.prefix_refl _) (by decide)).elim
  | missingValue => exact (hno (q := "missing value for ".toList) (prefix_append (List.prefix_refl _)) (by decide)).elim
  | missingEnd =>
    exact (hno (q := "missing ".toList) (prefix_append (prefix_append (prefix_append (List.prefix_refl _))))
      (by decide)).elim
  | elseBehindElse =>
    exact (hno (q := "expected ".toList) (prefix_append (prefix_append (prefix_append (List.prefix_refl _))))
      (by decide)).elim
  | chainedElse =>
    exact (hno (q := "unexpected chained ".toList) (prefix_append (prefix_append (prefix_append (List.prefix_refl _))))
      (by decide)).elim
  | stray => exact (hno (q := "unexpected ".toList) (prefix_append (List.prefix_refl _)) (by decide)).elim
  | _ => exact Bool.noConfusion (show false = true from he)

/-- Only a directive that is not closed is told in words that start with the words for that, unless the opening marker
starts that way. -/
lemma eq_unclosedAction_of_prefix (he : e.Arises d) (hleft : ¬ "unclosed action".toList <+: d.left)
    (h : "unclosed action".toList <+: e.message.toList) : e = .unclosedAction := by
  rcases eq_unclosedAction_or_outsideLoop he h with rfl | ⟨keyword, hkeyword, rfl⟩
  · rfl
  exfalso
  rw [toList_outsideLoop] at h
  -- the words would go on behind the marker as the keyword does
  obtain ⟨u, hu⟩ := (List.prefix_or_prefix_of_prefix h (List.prefix_append _ _)).resolve_left hleft
  rw [← hu, List.prefix_append_right_inj] at h
  have hdrop : u = "unclosed action".toList.drop d.left.length := by rw [← hu, List.drop_left]
  have hlength : d.left.length < 15 := by
    by_contra hlong
    refine hleft ?_
    have hnil : u = [] := by rw [hdrop]; exact List.drop_eq_nil_of_le (by simpa using Nat.le_of_not_lt hlong)
    rw [← hu, hnil, List.append_nil]
  have hcompatible := List.prefix_or_prefix_of_prefix h (List.prefix_append keyword.toList _)
  rw [hdrop] at hcompatible
  have hnone : ∀ n < 15, ∀ k ∈ ["break", "continue"], ¬ ("unclosed action".toList.drop n <+: k.toList ∨
      k.toList <+: "unclosed action".toList.drop n) := by decide
  exact hnone _ hlength keyword (by simpa using hkeyword) hcompatible

/-- Only a directive that is not closed is told in the words for that. -/
lemma eq_unclosedAction_of_message (he : e.Arises d) (h : e.message = "unclosed action") : e = .unclosedAction := by
  rcases eq_unclosedAction_or_outsideLoop he (h ▸ List.prefix_refl _) with rfl | ⟨keyword, hkeyword, rfl⟩
  · rfl
  exfalso
  have hlength := congrArg (fun s : String => s.toList.length) h
  rw [toList_outsideLoop] at hlength
  have hwords : "unclosed action".toList.length = 15 ∧ " outside ".toList.length = 9 ∧ "range".toList.length = 5 := by
    decide
  have hlong : 5 ≤ keyword.toList.length := by
    rcases hkeyword with rfl | rfl <;> decide
  simp only [List.length_append, hwords.1, hwords.2.1, hwords.2.2] at hlength
  omega

end Problem

end GoFront
