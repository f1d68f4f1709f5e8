import GoFront.Parse.Weave
import Mathlib.Tactic.Common

/-!
# What a woven tree reports

Weaving reports the errors in the sprouts and those that tokens bring with them, in the order in which
errors and words are met. Blanks and comments bring none, so where they are woven in does not matter.
-/

namespace GoFront

/-- What an error says, and where. -/
def SyntaxError.report (e : SyntaxError) : Problem × Span := (e.problem, e.span)

/-- The error a token brings with it, if it stands for one. -/
def Token.reports (t : Token) : List (Problem × Span) :=
  if t.kind.isLexicalError then [(.lexical t.kind t.text, t.span)] else []

lemma Token.reports_eq_nil {t : Token} : t.reports = [] ↔ t.kind.isLexicalError = false := by
  unfold reports
  split <;> simp_all

namespace Sprout

mutual

/-- The errors in a sprout and those of its words, in order. -/
def reports : Sprout → List (Problem × Span)
  | .word w => w.token.reports
  | .error p r => [(p, r)]
  | .node _ cs => reportsIn cs

/-- The errors in sprouts that follow one another and those of their words. -/
def reportsIn : List Sprout → List (Problem × Span)
  | [] => []
  | s :: ss => reports s ++ reportsIn ss

end

@[simp] lemma reportsIn_append (ss ts : List Sprout) : reportsIn (ss ++ ts) = reportsIn ss ++ reportsIn ts := by
  induction ss with
  | nil => simp [reportsIn]
  | cons s ss ih => simp [reportsIn, ih]

mutual

/-- Nothing is reported if there is no error and no word brings one. -/
lemma reports_eq_nil : (s : Sprout) → (s.reports = [] ↔ s.errors = [] ∧ ∀ w ∈ s.words, w.token.reports = [])
  | .word w => by simp [reports, errors, words]
  | .error p r => by simp [reports, errors]
  | .node _ cs => reportsIn_eq_nil cs

lemma reportsIn_eq_nil :
    (ss : List Sprout) → (reportsIn ss = [] ↔ errorsIn ss = [] ∧ ∀ w ∈ wordsIn ss, w.token.reports = [])
  | [] => by simp [reportsIn, errorsIn, wordsIn]
  | s :: ss => by
    simp only [reportsIn, errorsIn, wordsIn, List.append_eq_nil_iff, List.mem_append, or_imp, forall_and,
      reports_eq_nil s, reportsIn_eq_nil ss]
    tauto

end

end Sprout

/-! ## Weaving -/

namespace Loom

variable {opened : List OpenNode}

/-- What has been reported so far, in order. -/
def reports (l : Loom) : List (Problem × Span) := l.errors.reverse.map SyntaxError.report

lemma reports_placeToken (t : Token) (l : Loom) :
    (l.placeToken opened t).2.reports = l.reports ++ t.reports := by
  unfold placeToken Token.reports
  split <;> simp [reports, withError, SyntaxError.report]

lemma reports_place (ts : List Token) (l : Loom) :
    (place opened ts l).2.reports = l.reports ++ ts.flatMap Token.reports := by
  induction ts generalizing l with
  | nil => simp [place]
  | cons t ts ih =>
    change (place opened ts (l.placeToken opened t).2).2.reports = _
    rw [ih, reports_placeToken, List.flatMap_cons, List.append_assoc]

lemma words_tail_place (opened : List OpenNode) (ts : List Token) (l : Loom) :
    (place opened ts l).2.words = l.words ∧ (place opened ts l).2.tail = l.tail := by
  induction ts generalizing l with
  | nil => exact ⟨rfl, rfl⟩
  | cons t ts ih =>
    obtain ⟨hwords, htail⟩ := ih (l.placeToken opened t).2
    have hplace : (l.placeToken opened t).2.words = l.words ∧ (l.placeToken opened t).2.tail = l.tail := by
      unfold placeToken
      split <;> exact ⟨rfl, rfl⟩
    exact ⟨hwords.trans hplace.1, htail.trans hplace.2⟩

/-- The words of a loom are those tokens, and `P` holds of what is between them and behind them. -/
structure Feeds (P : Token → Prop) (l : Loom) (ts : List Token) : Prop where
  tokens : l.words.map Word.token = ts
  gaps : ∀ w ∈ l.words, ∀ t ∈ w.gap, P t
  tail : ∀ t ∈ l.tail, P t

variable {P : Token → Prop} {l : Loom} {ts : List Token}

/-- Only the words and what is behind them matter. -/
lemma Feeds.place (h : l.Feeds P ts) (opened : List OpenNode) (us : List Token) :
    (Loom.place opened us l).2.Feeds P ts := by
  obtain ⟨hwords, htail⟩ := words_tail_place opened us l
  refine ⟨?_, ?_, ?_⟩
  · rw [hwords]
    exact h.tokens
  · rw [hwords]
    exact h.gaps
  · rw [htail]
    exact h.tail

/-- Before the next word, or behind the last one, some tokens are placed of which `P` holds. -/
lemma Feeds.placeGap (h : l.Feeds P ts) (opened : List OpenNode) :
    (l.placeGap opened).2.Feeds P ts ∧ ∃ us l', l.placeGap opened = Loom.place opened us l' ∧ l'.errors = l.errors ∧
      ∀ t ∈ us, P t := by
  unfold Loom.placeGap
  split
  · have hl : ({ l with tail := [] } : Loom).Feeds P ts := ⟨h.tokens, h.gaps, by simp⟩
    exact ⟨hl.place opened l.tail, _, _, rfl, rfl, h.tail⟩
  · next w ws hw =>
    have hl : ({ l with words := { w with gap := [] } :: ws } : Loom).Feeds P ts := by
      refine ⟨by rw [← h.tokens, hw]; rfl, ?_, h.tail⟩
      refine List.forall_mem_cons.2 ⟨by simp, fun v hv => h.gaps v (hw ▸ List.mem_cons_of_mem w hv)⟩
    exact ⟨hl.place opened w.gap, _, _, rfl, rfl, h.gaps w (hw ▸ List.mem_cons_self ..)⟩

/-- The next word is placed, behind some tokens of which `P` holds. -/
lemma Feeds.placeWord {t : Token} (h : l.Feeds P (t :: ts)) (opened : List OpenNode) :
    (l.placeWord opened).2.Feeds P ts ∧ ∃ us l', l.placeWord opened = Loom.place opened (us ++ [t]) l' ∧
      l'.errors = l.errors ∧ ∀ t ∈ us, P t := by
  unfold Loom.placeWord
  split
  · next hw =>
    have htokens := h.tokens
    rw [hw] at htokens
    exact nomatch htokens
  · next w ws hw =>
    have htokens := h.tokens
    rw [hw, List.map_cons] at htokens
    obtain ⟨rfl, rfl⟩ := List.cons_eq_cons.1 htokens
    have hl : ({ l with words := ws } : Loom).Feeds P (ws.map Word.token) :=
      ⟨rfl, fun v hv => h.gaps v (hw ▸ List.mem_cons_of_mem w hv), h.tail⟩
    exact ⟨hl.place opened _, w.gap, _, rfl, rfl, h.gaps w (hw ▸ List.mem_cons_self ..)⟩

/-- The tokens between words bring no errors. -/
abbrev Quiet (t : Token) : Prop := t.reports = []

lemma Feeds.reports_placeGap (h : l.Feeds Quiet ts) : (l.placeGap opened).2.reports = l.reports := by
  obtain ⟨-, us, l', hplace, herrors, hquiet⟩ := h.placeGap opened
  rw [hplace, reports_place, List.flatMap_eq_nil_iff.2 hquiet, List.append_nil, reports, herrors]
  rfl

lemma Feeds.reports_placeWord {t : Token} (h : l.Feeds Quiet (t :: ts)) :
    (l.placeWord opened).2.reports = l.reports ++ t.reports := by
  obtain ⟨-, us, l', hplace, herrors, hquiet⟩ := h.placeWord opened
  rw [hplace, reports_place, List.flatMap_append, List.flatMap_eq_nil_iff.2 hquiet, List.nil_append,
    List.flatMap_singleton, reports, herrors]
  rfl

lemma Feeds.reports_placeRest (h : l.Feeds Quiet ts) (opened : List OpenNode) :
    (l.placeRest opened).2.reports = l.reports ++ ts.flatMap Token.reports := by
  have hwords : ∀ ws : List Word, (∀ w ∈ ws, ∀ t ∈ w.gap, t.reports = []) →
      (ws.flatMap fun w => w.gap ++ [w.token]).flatMap Token.reports =
        (ws.map Word.token).flatMap Token.reports := by
    intro ws hws
    induction ws with
    | nil => rfl
    | cons w ws ih =>
      have hgap := List.flatMap_eq_nil_iff.2 (hws w (List.mem_cons_self ..))
      rw [List.flatMap_cons, List.flatMap_append, List.flatMap_append, hgap, List.nil_append,
        List.flatMap_singleton, ih fun v hv => hws v (List.mem_cons_of_mem w hv)]
      rfl
  rw [Loom.placeRest, reports_place, Words.toTokens, List.flatMap_append,
    List.flatMap_eq_nil_iff.2 h.tail, List.append_nil, hwords _ h.gaps, h.tokens]
  rfl

end Loom

namespace Sprout

open Loom

mutual

/-- Weaving a sprout reports what is in the sprout. -/
lemma reports_weave (opened : List OpenNode) : (s : Sprout) → {l : Loom} → {rest : List Token} →
    l.Feeds Quiet (s.words.map Word.token ++ rest) →
    (s.weave opened l).2.Feeds Quiet rest ∧ (s.weave opened l).2.reports = l.reports ++ s.reports
  | .word w, _, _, h => ⟨(h.placeWord opened).1, h.reports_placeWord⟩
  | .error p r, l, _, h => by
    refine ⟨⟨h.tokens, h.gaps, h.tail⟩, ?_⟩
    simp [weave, reports, Loom.reports, Loom.withError, SyntaxError.report]
  | .node k cs, l, _, h => by
    have hgap := (h.placeGap opened).1
    obtain ⟨hin, hreports'⟩ := reports_weaveIn (((l.placeGap opened).2.nodes, k) :: opened) cs
      (l := { (l.placeGap opened).2 with nodes := (l.placeGap opened).2.nodes + 1 })
      ⟨hgap.tokens, hgap.gaps, hgap.tail⟩
    refine ⟨hin, hreports'.trans ?_⟩
    have hsame : (l.placeGap opened).2.reports = l.reports := h.reports_placeGap
    rw [← hsame]
    rfl

lemma reports_weaveIn (opened : List OpenNode) : (ss : List Sprout) → {l : Loom} → {rest : List Token} →
    l.Feeds Quiet ((wordsIn ss).map Word.token ++ rest) →
    (weaveIn opened ss l).2.Feeds Quiet rest ∧ (weaveIn opened ss l).2.reports = l.reports ++ reportsIn ss
  | [], _, _, h => ⟨h, by simp [weaveIn, reportsIn]⟩
  | s :: ss, l, rest, h => by
    rw [wordsIn, List.map_append, List.append_assoc] at h
    obtain ⟨hfeeds, hreports⟩ := reports_weave opened s h
    obtain ⟨hfeeds', hreports'⟩ := reports_weaveIn opened ss hfeeds
    refine ⟨hfeeds', hreports'.trans ?_⟩
    rw [hreports, reportsIn, List.append_assoc]

end

/-- A tree reports what is in the sprouts, and what the words bring that are not in them. -/
lemma reports_tree {k : Kind} {sprouts : List Sprout} {text : Text} {offset : Nat} {ws : Words}
    {rest : List Token} (htokens : ws.words.map Word.token = (wordsIn sprouts).map Word.token ++ rest)
    (hgaps : ∀ w ∈ ws.words, ∀ t ∈ w.gap, t.reports = []) (htail : ∀ t ∈ ws.tail, t.reports = []) :
    (tree k sprouts text offset ws).errors.map SyntaxError.report =
      reportsIn sprouts ++ rest.flatMap Token.reports := by
  let start : Loom := { words := ws.words, tail := ws.tail, position := offset, nodes := 1 }
  have hstart : start.Feeds Quiet ((wordsIn sprouts).map Word.token ++ rest) := ⟨htokens, hgaps, htail⟩
  obtain ⟨hfeeds, hreports⟩ := reports_weaveIn [(0, k)] sprouts hstart
  have hrest := hfeeds.reports_placeRest [(0, k)]
  rw [hreports] at hrest
  exact hrest

end Sprout

/-! ## Words -/

namespace Words

variable {isTrivia : Kind → Bool}

/-- The words of a text are its significant tokens. -/
lemma tokens_group (fresh : Bool) (gap ts : List Token) :
    (group isTrivia fresh gap ts).words.map Word.token = ts.filter fun t => !isTrivia t.kind := by
  induction ts generalizing fresh gap with
  | nil => rfl
  | cons t ts ih =>
    by_cases h : isTrivia t.kind
    · simp [group, h, ih]
    · simp [group, h, ih]

lemma tokens_ofTokens (ts : List Token) :
    (ofTokens isTrivia ts).words.map Word.token = ts.filter fun t => !isTrivia t.kind :=
  tokens_group true [] ts

lemma kinds_ofTokens (ts : List Token) :
    (ofTokens isTrivia ts).words.map Word.kind = (ts.map Token.kind).filter fun k => !isTrivia k := by
  have hkinds : (ofTokens isTrivia ts).words.map Word.kind = ((ofTokens isTrivia ts).words.map Word.token).map Token.kind :=
    List.map_map.symm
  rw [hkinds, tokens_ofTokens, List.filter_map]
  rfl

/-- Between words and behind them there are blanks and comments only. -/
lemma trivia_group (fresh : Bool) (gap ts : List Token) (hgap : ∀ t ∈ gap, isTrivia t.kind = true) :
    (∀ w ∈ (group isTrivia fresh gap ts).words, ∀ t ∈ w.gap, isTrivia t.kind = true) ∧
      ∀ t ∈ (group isTrivia fresh gap ts).tail, isTrivia t.kind = true := by
  induction ts generalizing fresh gap with
  | nil => simpa [group] using hgap
  | cons t ts ih =>
    by_cases h : isTrivia t.kind
    · have hgap' : ∀ u ∈ t :: gap, isTrivia u.kind = true := by simpa [h] using hgap
      simpa [group, h] using ih (fresh || breaksLine t) (t :: gap) hgap'
    · have hnil := ih t.text.hasNewline [] (by simp)
      simpa [group, h] using ⟨⟨hgap, hnil.1⟩, hnil.2⟩

lemma trivia_ofTokens (ts : List Token) :
    (∀ w ∈ (ofTokens isTrivia ts).words, ∀ t ∈ w.gap, isTrivia t.kind = true) ∧
      ∀ t ∈ (ofTokens isTrivia ts).tail, isTrivia t.kind = true :=
  trivia_group true [] ts (by simp)

end Words

namespace Parser

variable {k : Kind} {body : Parser Unit} {isTrivia : Kind → Bool} {text : Text} {offset : Nat}
  {ts : List Token} (htrivia : ∀ k, isTrivia k = true → k.isLexicalError = false)

include htrivia

/-- The tree of a parser reports what the parser grew and what the words bring that it did not take. -/
lemma reports_tree {t : State} (ht : (body.run (.start isTrivia text offset ts)).2 = t) :
    (body.tree k isTrivia text offset ts).errors.map SyntaxError.report =
      Sprout.reportsIn t.grown.reverse ++ (t.rest.map Word.token).flatMap Token.reports := by
  obtain ⟨taken, hrest, hgrown, -⟩ := (body.forward (.start isTrivia text offset ts)).moved
  rw [ht] at hrest hgrown
  have hwords : Sprout.wordsIn t.grown.reverse = taken := hgrown
  have hgaps : ∀ w ∈ (Words.ofTokens isTrivia ts).words, ∀ u ∈ w.gap, isTrivia u.kind = true :=
    (Words.trivia_ofTokens ts).1
  have htail : ∀ u ∈ (Words.ofTokens isTrivia ts).tail, isTrivia u.kind = true := (Words.trivia_ofTokens ts).2
  have htree : body.tree k isTrivia text offset ts =
      Sprout.tree k t.grown.reverse text offset (Words.ofTokens isTrivia ts) := by rw [← ht]; rfl
  rw [htree]
  refine Sprout.reports_tree ?_ (fun w hw u hu => Token.reports_eq_nil.2 (htrivia _ (hgaps w hw u hu)))
    fun u hu => Token.reports_eq_nil.2 (htrivia _ (htail u hu))
  rw [hwords, ← List.map_append]
  exact congrArg (List.map Word.token) hrest

/-- The tree of a parser reports no error exactly if the parser found none and no word brings one. -/
lemma errors_tree_eq_nil : (body.tree k isTrivia text offset ts).errors = [] ↔
    (body.run (.start isTrivia text offset ts)).2.grownErrors = [] ∧
      ∀ w ∈ (Words.ofTokens isTrivia ts).words, w.kind.isLexicalError = false := by
  obtain ⟨taken, hrest, hgrown, -⟩ := (body.forward (.start isTrivia text offset ts)).moved
  have hwords : Sprout.wordsIn (body.run (.start isTrivia text offset ts)).2.grown.reverse = taken := hgrown
  rw [← List.map_eq_nil_iff (f := SyntaxError.report), reports_tree htrivia rfl, List.append_eq_nil_iff,
    Sprout.reportsIn_eq_nil, hwords, show (Words.ofTokens isTrivia ts).words = _ from hrest,
    List.flatMap_eq_nil_iff, and_assoc]
  simp only [List.mem_append, or_imp, forall_and, List.mem_map, forall_exists_index, and_imp,
    forall_apply_eq_imp_iff₂, Token.reports_eq_nil]
  rfl

end Parser

end GoFront
