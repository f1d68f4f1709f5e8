import GoFront.Proofs.Parse.Effort
import Mathlib.Data.List.Infix

/-!
# The wording of lexical errors

No message of a grammar reads like that of a lexical error (`Problem.IsGrammar.message_ne`). Most of them start
differently. A message that starts with a marker of a template may start in any way, but it names a keyword behind the
marker, and two letters of that do not occur together in the message of a lexical error: a single quoted character has
no room for both.
-/

namespace GoFront

/-! ## A quoted character -/

namespace Text

/-- The digits of hexadecimal numbers. -/
def hexDigits : Text := ['0', '1', '2', '3', '4', '5', '6', '7', '8', '9', 'a', 'b', 'c', 'd', 'e', 'f']

lemma digitChar_mem {n : Nat} (h : n < 16) : Nat.digitChar n ∈ hexDigits := by
  have hall : ∀ n < 16, Nat.digitChar n ∈ hexDigits := by decide
  exact hall n h

lemma toDigits_subset (n : Nat) : Nat.toDigits 16 n ⊆ hexDigits := by
  induction n using Nat.strong_induction_on with
  | _ n ih =>
    by_cases hn : n < 16
    · rw [Nat.toDigits_of_lt_base hn]
      exact List.cons_subset.2 ⟨digitChar_mem hn, List.nil_subset _⟩
    · rw [Nat.toDigits_of_base_le (by decide) (Nat.le_of_not_lt hn)]
      refine List.append_subset.2 ⟨ih _ (Nat.div_lt_self (by omega) (by decide)), ?_⟩
      exact List.cons_subset.2 ⟨digitChar_mem (Nat.mod_lt n (by decide)), List.nil_subset _⟩

/-- A character is written as itself, as a backslash and another one, or by its number. -/
lemma escape_cases (c : Char) :
    (∃ x, escape c = [x]) ∨ (∃ x, escape c = ['\\', x]) ∨ escape c ⊆ ['\\', 'u', '{', '}'] ++ hexDigits := by
  unfold escape
  split
  · exact .inr (.inl ⟨_, rfl⟩)
  iterate 5
    split
    · exact .inr (.inl ⟨_, rfl⟩)
  split
  · refine .inr (.inr (List.append_subset.2 ⟨List.append_subset.2 ⟨by decide, ?_⟩, by decide⟩))
    exact List.Subset.trans (toDigits_subset _) (List.subset_append_right _ _)
  · exact .inl ⟨_, rfl⟩

/-- A letter that occurs in no number is the only one in a quoted character. -/
lemma eq_of_mem_quote {c x y : Char} (hx : x ∈ quote [c]) (hy : y ∈ quote [c])
    (hfar : x ∉ ['"', '\\', 'u', '{', '}'] ++ hexDigits) (hquote : y ∉ ['"', '\\']) : x = y := by
  have hmem : ∀ z, z ∈ quote [c] → z = '"' ∨ z ∈ escape c := by
    intro z hz
    simp only [quote, List.flatMap_singleton, List.mem_cons, List.mem_append, List.not_mem_nil, or_false] at hz
    tauto
  simp only [List.cons_append, List.nil_append, List.mem_cons, not_or] at hfar
  simp only [List.mem_cons, List.not_mem_nil, or_false, not_or] at hquote
  have hx' := (hmem x hx).resolve_left hfar.1
  have hy' := (hmem y hy).resolve_left hquote.1
  rcases escape_cases c with ⟨z, hz⟩ | ⟨z, hz⟩ | hsub
  · rw [hz, List.mem_singleton] at hx' hy'
    rw [hx', hy']
  · simp only [hz, List.mem_cons, List.not_mem_nil, or_false] at hx' hy'
    rw [hx'.resolve_left hfar.2.1, hy'.resolve_left hquote.2]
  · have := hsub hx'
    simp only [List.cons_append, List.nil_append, List.mem_cons] at this
    tauto

end Text

/-! ## Messages -/

namespace Problem

/-- The message of a lexical error: an unterminated token, or one quoted character. -/
lemma lexicalMessage_cases {k : Kind} {text : Text} (hk : k.isLexicalError = true)
    (hsingle : k = .badCharacter → ∃ c, text = [c]) :
    (∃ s ∈ ["string literal", "raw string literal", "rune literal", "block comment"],
      lexicalMessage k text = "unterminated " ++ s) ∨
    ∃ c, lexicalMessage k text = "unexpected character " ++ String.ofList (Text.quote [c]) := by
  cases k
  case unterminatedString => exact .inl ⟨"string literal", by simp, rfl⟩
  case unterminatedRawString => exact .inl ⟨"raw string literal", by simp, rfl⟩
  case unterminatedRune => exact .inl ⟨"rune literal", by simp, rfl⟩
  case unterminatedComment => exact .inl ⟨"block comment", by simp, rfl⟩
  case badCharacter =>
    obtain ⟨c, rfl⟩ := hsingle rfl
    exact .inr ⟨c, rfl⟩
  all_goals exact nomatch hk

/-- Messages that start differently. -/
lemma ne_of_prefix {p q : List Char} {s t : String} (hs : p <+: s.toList) (ht : q <+: t.toList)
    (h : ¬ p <+: q ∧ ¬ q <+: p) : s ≠ t := by
  rintro rfl
  exact (List.prefix_or_prefix_of_prefix hs ht).elim h.1 h.2

lemma prefix_append {p : List Char} {s t : String} (h : p <+: s.toList) : p <+: (s ++ t).toList := by
  rw [String.toList_append]
  exact h.trans (List.prefix_append _ _)

lemma mem_append {x : Char} {s t : String} (h : x ∈ s.toList ∨ x ∈ t.toList) : x ∈ (s ++ t).toList := by
  rw [String.toList_append]
  exact List.mem_append.2 h

/-- A text with two letters in it that a quoted character has not both of. -/
lemma ne_quoted_of_mem {x y c : Char} {s front : String} (hx : x ∈ s.toList) (hy : y ∈ s.toList) (hne : x ≠ y)
    (hfront : x ∉ front.toList ∧ y ∉ front.toList) (hfar : x ∉ ['"', '\\', 'u', '{', '}'] ++ Text.hexDigits)
    (hquote : y ∉ ['"', '\\']) : s ≠ front ++ String.ofList (Text.quote [c]) := by
  rintro rfl
  simp only [String.toList_append, String.toList_ofList, List.mem_append] at hx hy
  exact hne (Text.eq_of_mem_quote (hx.resolve_left hfront.1) (hy.resolve_left hfront.2) hfar hquote)

variable {k : Kind} {text : Text} (hk : k.isLexicalError = true) (hsingle : k = .badCharacter → ∃ c, text = [c])

include hk hsingle

/-- A message that starts like no lexical error. -/
lemma ne_lexicalMessage_of_prefix {p : List Char} {s : String} (hs : p <+: s.toList)
    (h : ∀ q ∈ ["unterminated ".toList, "unexpected character ".toList], ¬ p <+: q ∧ ¬ q <+: p) :
    s ≠ lexicalMessage k text := by
  rcases lexicalMessage_cases hk hsingle with ⟨t, -, ht⟩ | ⟨c, hc⟩
  · rw [ht]
    exact ne_of_prefix hs (prefix_append (List.prefix_refl _)) (h _ (by simp))
  · rw [hc]
    exact ne_of_prefix hs (prefix_append (List.prefix_refl _)) (h _ (by simp))

/-- A stray directive. -/
lemma stray_ne_lexicalMessage {d : Delimiters} {keyword : String} {x y : Char} (hx : x ∈ keyword.toList)
    (hy : y ∈ keyword.toList) (hne : x ≠ y) (hfront : x ∉ "character ".toList ∧ y ∉ "character ".toList)
    (hfar : x ∉ ['"', '\\', 'u', '{', '}'] ++ Text.hexDigits) (hquote : y ∉ ['"', '\\']) :
    "unexpected " ++ d.around keyword ≠ lexicalMessage k text := by
  rcases lexicalMessage_cases hk hsingle with ⟨t, -, ht⟩ | ⟨c, hc⟩
  · rw [ht]
    exact ne_of_prefix (prefix_append (List.prefix_refl _)) (prefix_append (List.prefix_refl _)) (by decide)
  · rw [hc, show "unexpected character " = "unexpected " ++ "character " from rfl, String.append_assoc]
    intro heq
    have hrest : d.around keyword = "character " ++ String.ofList (Text.quote [c]) := by
      have hlist := congrArg String.toList heq
      simp only [String.toList_append] at hlist
      rw [← String.toList_inj, String.toList_append]
      exact List.append_cancel_left hlist
    have hin : ∀ z ∈ keyword.toList, z ∈ (d.around keyword).toList :=
      fun z hz => mem_append (.inl (mem_append (.inr hz)))
    exact ne_quoted_of_mem (hin x hx) (hin y hy) hne hfront hfar hquote hrest

/-- A loop control without a loop. -/
lemma outsideLoop_ne_lexicalMessage {before after : String} :
    before ++ " outside " ++ after ≠ lexicalMessage k text := by
  have hin : ∀ z ∈ " outside ".toList, z ∈ (before ++ " outside " ++ after).toList :=
    fun z hz => mem_append (.inl (mem_append (.inr hz)))
  have ho := hin 'o' (by decide)
  have hs := hin 's' (by decide)
  rcases lexicalMessage_cases hk hsingle with ⟨t, ht, hmessage⟩ | ⟨c, hmessage⟩
  · intro heq
    rw [heq, hmessage] at ho hs
    have hnot : ∀ t ∈ ["string literal", "raw string literal", "rune literal", "block comment"],
        ¬ ('o' ∈ ("unterminated " ++ t).toList ∧ 's' ∈ ("unterminated " ++ t).toList) := by decide
    exact hnot t ht ⟨ho, hs⟩
  · rw [hmessage]
    exact ne_quoted_of_mem ho hs (by decide) (by decide) (by decide) (by decide)

/-- No message of a grammar reads like that of a lexical error. -/
lemma IsGrammar.message_ne {e : Problem} (he : e.IsGrammar) : e.message ≠ lexicalMessage k text := by
  have hfirst : ∀ {s : String} (x : Char), [x] <+: s.toList → x ≠ 'u' → s ≠ lexicalMessage k text :=
    fun x hs hx => ne_lexicalMessage_of_prefix hk hsingle hs (by simp [hx])
  cases e with
  | expected what got => exact hfirst 'e' (prefix_append (prefix_append (prefix_append (by decide)))) (by decide)
  | missingOperand operator => exact hfirst 'm' (prefix_append (by decide)) (by decide)
  | missingCondition => exact hfirst 'm' (by decide) (by decide)
  | misplacedPackage =>
    exact ne_lexicalMessage_of_prefix (p := "unexpected p".toList) hk hsingle (by decide) (by decide)
  | nestingTooDeep => exact hfirst 'n' (by decide) (by decide)
  | lexical _ _ => exact he.elim
  | missingValue subject => exact hfirst 'm' (prefix_append (by decide)) (by decide)
  | unclosedAction =>
    exact ne_lexicalMessage_of_prefix (p := "unc".toList) hk hsingle (by decide) (by decide)
  | missingEnd d keyword => exact hfirst 'm' (prefix_append (prefix_append (prefix_append (by decide)))) (by decide)
  | elseBehindElse d => exact hfirst 'e' (prefix_append (prefix_append (prefix_append (by decide)))) (by decide)
  | chainedElse d keyword =>
    exact ne_lexicalMessage_of_prefix (p := "unexpected chai".toList) hk hsingle
      (prefix_append (prefix_append (prefix_append (by decide)))) (by decide)
  | stray d keyword =>
    rcases he with rfl | rfl
    · exact stray_ne_lexicalMessage (x := 'n') (y := 'd') hk hsingle (by decide) (by decide) (by decide) (by decide)
        (by decide) (by decide)
    · exact stray_ne_lexicalMessage (x := 'l') (y := 's') hk hsingle (by decide) (by decide) (by decide) (by decide)
        (by decide) (by decide)
  | outsideLoop d keyword => exact outsideLoop_ne_lexicalMessage hk hsingle
  | other _ => exact he.elim

end Problem

end GoFront
