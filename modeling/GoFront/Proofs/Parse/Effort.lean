import GoFront.Parse.Basic
import GoFront.Proofs.Token.Tiling
import GoFront.Proofs.Tree.Cover
import Mathlib.Logic.Function.Iterate
import Mathlib.Tactic.Common

/-!
# Parsers that come to their end

No assertion of a parser fails if the parser keeps taking words, looks at the words ahead only so often
before it takes the next one, and ends every stretch behind its start. `Parser.Fits` says so of one
parser on one input: either no word is taken, and there are at most `a` further looks; or one is taken,
and at most `b.base + c` looks follow the last of them. The two bounds are kept apart because the second
one grows with every level that a grammar nests, and the first one does not.

The rules of this file follow the operations that grammars are written with. A loop fits if each of its
rounds does and every round but the last takes a word. The side conditions of the rules, which compare
numbers of looks or tell two kinds apart, are left to `omega` and `decide` where a rule is used.
-/

namespace GoFront

/-- What a grammar can find wrong: not what a token brings with it, and a stray directive is an `end` or an `else`. -/
def Problem.IsGrammar : Problem → Prop
  | .lexical _ _ | .other _ => False
  | .stray _ keyword => keyword = "end" ∨ keyword = "else"
  | _ => True

namespace Parser

variable {α β σ : Type}

/-- The kind of the word `n` places ahead in an input. -/
def kindAt (ws : List Word) (n : Nat) : Kind := (ws[n]?.map Word.kind).getD .endOfInput

/-- There is a word where one has a kind. -/
lemma ne_nil_of_kindAt {ws : List Word} {k : Kind} (h : kindAt ws 0 = k) (hk : k ≠ .endOfInput) :
    ws ≠ [] := by
  rintro rfl
  exact hk h.symm

/-! ## Sound states -/

/-- Words that follow one another between two offsets. -/
def Ordered (stop : Nat) : Nat → List Word → Prop
  | start, [] => start ≤ stop
  | start, w :: ws => start ≤ w.token.start ∧ Ordered stop w.token.stop ws

namespace Ordered

lemma le_stop {start stop : Nat} {ws : List Word} (h : Ordered stop start ws) : start ≤ stop := by
  induction ws generalizing start with
  | nil => exact h
  | cons w ws ih => exact Nat.le_trans h.1 (Nat.le_trans (Nat.le_add_right _ _) (ih h.2))

/-- The words behind those that were taken are still in order. -/
lemma drop {start stop : Nat} {taken ws : List Word} (h : Ordered stop start (taken ++ ws)) :
    start ≤ (taken.getLast?.map fun w => w.token.stop).getD start ∧
      Ordered stop ((taken.getLast?.map fun w => w.token.stop).getD start) ws := by
  induction taken generalizing start with
  | nil => exact ⟨Nat.le_refl _, h⟩
  | cons w taken ih =>
    obtain ⟨hle, hord⟩ := ih h.2
    have hstart : start ≤ w.token.stop := Nat.le_trans h.1 (Nat.le_add_right _ _)
    have hlast : (((w :: taken).getLast?.map fun w => w.token.stop).getD start) =
        (taken.getLast?.map fun w => w.token.stop).getD w.token.stop := by
      cases taken with
      | nil => rfl
      | cons v vs => simp [List.getLast?_cons]
    rw [hlast]
    exact ⟨Nat.le_trans hstart hle, hord⟩

end Ordered

/-- An error that lies inside a stretch and that a grammar can find. -/
structure Proper (R : Span) (e : Problem × Span) : Prop where
  inside : R.covers e.2
  grammar : e.1.IsGrammar

namespace State

/-- Nothing has gone wrong: no assertion has failed, the words ahead are in order behind the last one
taken, and the errors lie inside the stretch that is parsed. -/
structure Sound (s : State) : Prop where
  calm : s.panic = none
  start : s.span.start ≤ s.previousStop
  ordered : Ordered s.span.stop s.previousStop s.rest
  proper : ∀ x ∈ s.grown, ∀ e ∈ x.errors, Proper s.span e

end State

/-- Moving forward keeps the words ahead in order. -/
lemma Reaches.ordered {s t : State} (h : Reaches s t) (hs : s.Sound) :
    s.previousStop ≤ t.previousStop ∧ Ordered t.span.stop t.previousStop t.rest := by
  obtain ⟨hspan, ⟨taken, hrest, -, hprev⟩, -⟩ := h
  have hord := hs.ordered
  rw [hrest] at hord
  have hlast : t.previousStop = (taken.getLast?.map fun w => w.token.stop).getD s.previousStop := by
    simp only [State.previousStop, hprev, hspan]
    cases taken.getLast? <;> rfl
  rw [hlast, hspan]
  exact hord.drop

namespace State

lemma Sound.of_reaches {s t : State} (hs : s.Sound) (h : Reaches s t) (calm : t.panic = none)
    (proper : ∀ x ∈ t.grown, ∀ e ∈ x.errors, Proper s.span e) : t.Sound where
  calm := calm
  start := by
    rw [h.span]
    exact Nat.le_trans hs.start (h.ordered hs).1
  ordered := (h.ordered hs).2
  proper := by
    rw [h.span]
    exact proper

/-- The state after a number of looks. -/
def glance (s : State) (n : Nat) : State := looked^[n] s

@[simp] lemma glance_zero (s : State) : s.glance 0 = s := rfl

lemma glance_glance (s : State) (m n : Nat) : (s.glance m).glance n = s.glance (m + n) := by
  rw [glance, glance, glance, ← Function.iterate_add_apply, Nat.add_comm]

@[simp] lemma looked_glance (s : State) (n : Nat) : (s.glance n).looked = s.glance (n + 1) :=
  (Function.iterate_succ_apply' looked n s).symm

/-- Looks leave everything as it is but their own number, and what they break. -/
lemma glance_eq (s : State) (n : Nat) :
    ∃ p, s.glance n = { s with looks := s.looks + n, panic := p } ∧
      (s.looks + n ≤ lookLimit + 1 → p = s.panic) := by
  induction n with
  | zero => exact ⟨s.panic, rfl, fun _ => rfl⟩
  | succ n ih =>
    obtain ⟨p, hp, hcalm⟩ := ih
    refine ⟨_, by rw [← looked_glance, hp]; rfl, fun h => ?_⟩
    dsimp only
    rw [if_pos (by omega)]
    exact hcalm (by omega)

end State

/-- Taking a word that is there. -/
lemma State.advance_of_cons {s : State} {w : Word} {ws : List Word} (h : s.rest = w :: ws) :
    s.advance.rest = ws ∧ s.advance.looks = 0 ∧ s.advance.panic = s.panic ∧
      s.advance.grown = .word w :: s.grown ∧ s.advance.previous = some w := by
  unfold State.advance
  split
  · next hnil => simp [hnil] at h
  · next v vs hcons =>
    obtain ⟨rfl, rfl⟩ : v = w ∧ vs = ws := by simpa [hcons] using h
    exact ⟨rfl, rfl, rfl, rfl, rfl⟩

/-! ## Questions -/

/-- On an input a parser answers a question: it looks at the words ahead at most `n` times and does
nothing else. `Y` is known if the answer is yes, `N` if it is no. -/
def Asks (ws : List Word) (q : Parser Bool) (Y N : Prop) (n : Nat) : Prop :=
  ∀ s : State, s.rest = ws → ∃ k ≤ n, (q.run s).2 = s.glance k ∧
    ((q.run s).1 = true → Y) ∧ ((q.run s).1 = false → N)

namespace Asks

variable {ws : List Word} {p q : Parser Bool} {Y N Y' N' : Prop} {m n : Nat}

@[simp] lemma rest_glance (s : State) (n : Nat) : (s.glance n).rest = s.rest := by
  obtain ⟨p, hp, -⟩ := s.glance_eq n
  rw [hp]

lemma mono (h : Asks ws q Y N m) (hY : Y → Y') (hN : N → N') (hn : autoParam (m ≤ n) Nat.dfold._auto_1) :
    Asks ws q Y' N' n := by
  intro s hs
  obtain ⟨k, hk, hrun, hyes, hno⟩ := h s hs
  exact ⟨k, Nat.le_trans hk hn, hrun, fun h => hY (hyes h), fun h => hN (hno h)⟩

/-- Nothing need be known of the answer. -/
lemma weaken (h : Asks ws q Y N m) (hn : autoParam (m ≤ n) Nat.dfold._auto_1) : Asks ws q True True n :=
  h.mono (fun _ => trivial) (fun _ => trivial) hn

lemma pure (v : Bool) : Asks ws (Pure.pure v) (v = true) (v = false) 0 :=
  fun _ _ => ⟨0, Nat.le_refl 0, rfl, id, id⟩

lemma nthIs (i : Nat) (k : Kind) : Asks ws (Parser.nthIs i k) (kindAt ws i = k) (kindAt ws i ≠ k) 1 := by
  rintro s rfl
  refine ⟨1, Nat.le_refl 1, rfl, fun h => ?_, fun h => ?_⟩
  · exact eq_of_beq h
  · exact ne_of_beq_false h

lemma isAt (k : Kind) : Asks ws (Parser.isAt k) (kindAt ws 0 = k) (kindAt ws 0 ≠ k) 1 := nthIs 0 k

lemma isAtAny (ks : KindSet) : Asks ws (Parser.isAtAny ks) (ks.contains (kindAt ws 0) = true)
    (ks.contains (kindAt ws 0) = false) 1 := by
  rintro s rfl
  exact ⟨1, Nat.le_refl 1, rfl, id, id⟩

/-- A look at the next word that depends on its kind only. -/
lemma peek (f : Kind → Bool) : Asks ws (f <$> Parser.peek) (f (kindAt ws 0) = true)
    (f (kindAt ws 0) = false) 1 := by
  rintro s rfl
  exact ⟨1, Nat.le_refl 1, rfl, id, id⟩

lemma look (f : State → Bool) : Asks ws (Parser.look f) True True 0 :=
  fun _ _ => ⟨0, Nat.le_refl 0, rfl, fun _ => trivial, fun _ => trivial⟩

lemma not (h : Asks ws q Y N n) : Asks ws (Bool.not <$> q) N Y n := by
  intro s hs
  obtain ⟨k, hk, hrun, hyes, hno⟩ := h s hs
  exact ⟨k, hk, hrun, fun h => hno ((Bool.not_eq_true' _).mp h),
    fun h => hyes ((Bool.not_eq_false' _).mp h)⟩

/-- The second question is only asked if the first is answered with yes. -/
lemma and (hp : Asks ws p Y N m) (hq : Asks ws q Y' N' n) :
    Asks ws (p <&&> q) (Y ∧ Y') (N ∨ N') (m + n) := by
  intro s hs
  obtain ⟨k, hk, hrun, hyes, hno⟩ := hp s hs
  cases hv : (p.run s).1 with
  | true =>
    obtain ⟨l, hl, hrun', hyes', hno'⟩ := hq (s.glance k) (by rw [rest_glance, hs])
    have heq : (p <&&> q).run s = q.run (s.glance k) := by
      change Parser.run (match (p.run s).1 with | true => q | false => _) (p.run s).2 = _
      rw [hv, hrun]
    rw [heq, hrun', State.glance_glance]
    exact ⟨k + l, by omega, rfl, fun h => ⟨hyes hv, hyes' h⟩, fun h => .inr (hno' h)⟩
  | false =>
    have heq : (p <&&> q).run s = (false, s.glance k) := by
      change Parser.run (match (p.run s).1 with | true => q | false => _) (p.run s).2 = _
      rw [hv, hrun]
      rfl
    rw [heq]
    exact ⟨k, by omega, rfl, by simp, fun _ => .inl (hno hv)⟩

/-- The second question is only asked if the first is answered with no. -/
lemma or (hp : Asks ws p Y N m) (hq : Asks ws q Y' N' n) :
    Asks ws (p <||> q) (Y ∨ Y') (N ∧ N') (m + n) := by
  intro s hs
  obtain ⟨k, hk, hrun, hyes, hno⟩ := hp s hs
  cases hv : (p.run s).1 with
  | false =>
    obtain ⟨l, hl, hrun', hyes', hno'⟩ := hq (s.glance k) (by rw [rest_glance, hs])
    have heq : (p <||> q).run s = q.run (s.glance k) := by
      change Parser.run (match (p.run s).1 with | true => _ | false => q) (p.run s).2 = _
      rw [hv, hrun]
    rw [heq, hrun', State.glance_glance]
    exact ⟨k + l, by omega, rfl, fun h => .inr (hyes' h), fun h => ⟨hno hv, hno' h⟩⟩
  | true =>
    have heq : (p <||> q).run s = (true, s.glance k) := by
      change Parser.run (match (p.run s).1 with | true => _ | false => q) (p.run s).2 = _
      rw [hv, hrun]
      rfl
    rw [heq]
    exact ⟨k, by omega, rfl, fun _ => .inl (hyes hv), by simp⟩

/-- A question whose second half depends on the kind of a word ahead. -/
lemma nth (i : Nat) {f : Kind → Parser Bool} (h : Asks ws (f (kindAt ws i)) Y N n) :
    Asks ws (Parser.nth i >>= f) Y N (n + 1) := by
  rintro s rfl
  obtain ⟨k, hk, hrun, hyes, hno⟩ := h s.looked rfl
  refine ⟨k + 1, by omega, ?_, hyes, hno⟩
  rw [run_bind]
  change ((f (kindAt s.rest i)).run s.looked).2 = _
  rw [hrun, Nat.add_comm, ← State.glance_glance]
  rfl

lemma isAdjacent (k : Kind) : Asks ws (Parser.isAdjacent k) (kindAt ws 0 = k) True 1 :=
  ((isAt k).and (look _)).mono And.left fun _ => trivial

end Asks

/-! ## Parsers that fit -/

/-- What a parser is given. -/
structure Frame where
  /-- The stretch that is parsed. -/
  span : Span
  /-- An offset that the last word taken does not end before. -/
  floor : Nat := 0
  /-- The number of looks that may follow the last word taken one level further down. -/
  base : Nat

/-- Whatever the answer is. -/
abbrev anyway : α → Prop := fun _ => True

/-- Not with any answer. -/
abbrev never : α → Prop := fun _ => False

/-- On the input `ws` a parser keeps a state sound. Either it takes no word; then it looks at most `a`
times, and `S` holds of its answer. Or it takes a word; then at most `b.base + c` looks follow the last
one it takes. -/
def Fits (b : Frame) (ws : List Word) (p : Parser α) (S : α → Prop) (a c : Nat) : Prop :=
  ∀ s : State, s.Sound → s.span = b.span → s.rest = ws → b.floor ≤ s.previousStop →
    s.looks + a ≤ lookLimit → b.base + c ≤ lookLimit →
    (p.run s).2.Sound ∧
      ((p.run s).2.rest = ws ∧ (p.run s).2.looks ≤ s.looks + a ∧ S (p.run s).1 ∨
        (p.run s).2.rest.length < ws.length ∧ (p.run s).2.looks ≤ b.base + c)

namespace Fits

variable {b : Frame} {ws : List Word} {p : Parser α} {S S' : α → Prop} {a c a' c' : Nat}

lemma mono (h : Fits b ws p S a c) (hS : ∀ v, S v → S' v) (ha : a ≤ a') (hc : c ≤ c') :
    Fits b ws p S' a' c' := by
  intro s hs hR hws hm hla hlc
  obtain ⟨hs', hstep⟩ := h s hs hR hws hm (by omega) (by omega)
  refine ⟨hs', ?_⟩
  rcases hstep with ⟨hrest, hlooks, hS'⟩ | ⟨hlen, hlooks⟩
  · exact .inl ⟨hrest, by omega, hS _ hS'⟩
  · exact .inr ⟨hlen, by omega⟩

/-- More looks than needed may be allowed. -/
lemma within (h : Fits b ws p S a c) (ha : autoParam (a ≤ a') Nat.dfold._auto_1)
    (hc : autoParam (c ≤ c') Nat.dfold._auto_1) :
    Fits b ws p S a' c' := h.mono (fun _ => id) ha hc

lemma weaken (h : Fits b ws p S a c) (ha : autoParam (a ≤ a') Nat.dfold._auto_1)
    (hc : autoParam (c ≤ c') Nat.dfold._auto_1) :
    Fits b ws p anyway a' c' := h.mono (fun _ _ => trivial) ha hc

/-- A parser that takes a word may also be asked what it answers if it takes none. -/
lemma of_never (h : Fits b ws p never a c) (ha : autoParam (a ≤ a') Nat.dfold._auto_1)
    (hc : autoParam (c ≤ c') Nat.dfold._auto_1) :
    Fits b ws p S a' c' := h.mono (fun _ => False.elim) ha hc

/-- What holds with less known of the last word taken holds with more known. -/
lemma raise {m : Nat} (h : Fits b ws p S a c) (hm : b.floor ≤ m) :
    Fits { b with floor := m } ws p S a c :=
  fun s hs hR hws hfloor => h s hs hR hws (Nat.le_trans hm hfloor)

/-- What one level needs is what the next level up is given. -/
lemma lift (h : Fits b ws p S a c) : Fits { b with base := b.base + c } ws p S a 0 := by
  intro s hs hR hws hm hla hlc
  exact h s hs hR hws hm hla hlc

/-! ### Sequences -/

lemma pure {v : α} (hv : S v) : Fits b ws (Pure.pure v) S a c :=
  fun _ hs _ hws _ _ _ => ⟨hs, .inl ⟨hws, Nat.le_add_right _ _, hv⟩⟩

variable {k : α → Parser β} {Q : β → Prop} {A C : Nat}

lemma bind (hp : Fits b ws p S a c) (stay : ∀ v, S v → Fits b ws (k v) Q (A - a) C)
    (took : ∀ v ws', ws'.length < ws.length → Fits b ws' (k v) anyway (C - c) C)
    (ha : autoParam (a ≤ A) Nat.dfold._auto_1) (hc : autoParam (c ≤ C) Nat.dfold._auto_1) :
    Fits b ws (p >>= k) Q A C := by
  intro s hs hR hws hm hla hlc
  obtain ⟨hs', hstep⟩ := hp s hs hR hws hm (by omega) (by omega)
  have hreach := p.forward s
  have hR' := hreach.span.trans hR
  have hm' := Nat.le_trans hm (hreach.ordered hs).1
  rw [run_bind]
  rcases hstep with ⟨hrest, hlooks, hS⟩ | ⟨hlen, hlooks⟩
  · obtain ⟨hs'', hstep'⟩ := stay _ hS _ hs' hR' hrest hm' (by omega) hlc
    refine ⟨hs'', ?_⟩
    rcases hstep' with ⟨h₁, h₂, h₃⟩ | h
    · exact .inl ⟨h₁, by omega, h₃⟩
    · exact .inr h
  · obtain ⟨hs'', hstep'⟩ := took _ _ hlen _ hs' hR' rfl hm' (by omega) hlc
    refine ⟨hs'', .inr ?_⟩
    rcases hstep' with ⟨h₁, h₂, -⟩ | ⟨h₁, h₂⟩
    · exact ⟨by rw [h₁]; exact hlen, by omega⟩
    · exact ⟨by omega, h₂⟩

/-- One parser after another that fits on whatever is left. -/
lemma seq (hp : Fits b ws p S a c)
    (hk : ∀ v ws', ws'.length ≤ ws.length → Fits b ws' (k v) anyway (min (A - a) (C - c)) C)
    (ha : autoParam (a ≤ A) Nat.dfold._auto_1) (hc : autoParam (c ≤ C) Nat.dfold._auto_1) :
    Fits b ws (p >>= k) anyway A C :=
  hp.bind (fun v _ => (hk v ws (Nat.le_refl _)).within) (fun v ws' h => (hk v ws' (Nat.le_of_lt h)).within) ha hc

/-- Whatever follows a parser that takes a word. -/
lemma andThen (hp : Fits b ws p never a c)
    (hk : ∀ v ws', ws'.length < ws.length → Fits b ws' (k v) anyway (C - c) C)
    (ha : autoParam (a ≤ A) Nat.dfold._auto_1) (hc : autoParam (c ≤ C) Nat.dfold._auto_1) :
    Fits b ws (p >>= k) Q A C :=
  hp.bind (fun _ h => h.elim) hk ha hc

lemma map (hp : Fits b ws p S a c) {f : α → β} (hS : ∀ v, S v → Q (f v)) : Fits b ws (f <$> p) Q a c := by
  intro s hs hR hws hm hla hlc
  obtain ⟨hs', hstep⟩ := hp s hs hR hws hm hla hlc
  exact ⟨hs', hstep.imp_left fun ⟨h₁, h₂, h₃⟩ => ⟨h₁, h₂, hS _ h₃⟩⟩

lemma andPure (hp : Fits b ws p S a c) {f : α → β} (hS : ∀ v, S v → Q (f v)) :
    Fits b ws (p >>= fun v => Pure.pure (f v)) Q a c := hp.map hS

/-- An answer that nobody asks for. -/
lemma discard (hp : Fits b ws p S a c) : Fits b ws (Functor.discard p) (fun _ => ∃ v, S v) a c :=
  hp.map fun v hv => ⟨v, hv⟩

/-! ### Looking -/

lemma looks {q : Parser Bool} {k : Bool → Parser β} {Y N : Prop} {n : Nat} (hq : Asks ws q Y N n)
    (yes : Y → Fits b ws (k true) Q (A - n) C) (no : N → Fits b ws (k false) Q (A - n) C)
    (hn : autoParam (n ≤ A) Nat.dfold._auto_1) : Fits b ws (q >>= k) Q A C := by
  intro s hs hR hws hm hla hlc
  obtain ⟨i, hi, hrun, hyes, hno⟩ := hq s hws
  obtain ⟨pan, hglance, hpan⟩ := s.glance_eq i
  rw [hglance, hpan (by omega)] at hrun
  have hs' : (q.run s).2.Sound := hs.of_reaches (q.forward s) (by rw [hrun]; exact hs.calm)
    (by rw [hrun]; exact hs.proper)
  have key : Fits b ws (k (q.run s).1) Q (A - n) C := by
    cases hv : (q.run s).1 with
    | true => exact yes (hyes hv)
    | false => exact no (hno hv)
  obtain ⟨hs'', hstep⟩ := key _ hs' (by rw [hrun]; exact hR) (by rw [hrun]; exact hws)
    (by rw [hrun]; exact hm) (by rw [hrun]; dsimp only; omega) hlc
  refine ⟨hs'', ?_⟩
  rcases hstep with ⟨h₁, h₂, h₃⟩ | h
  · rw [hrun] at h₂
    dsimp only at h₂
    exact .inl ⟨h₁, by rw [run_bind, hrun]; omega, h₃⟩
  · exact .inr h

lemma nth {i : Nat} {k : Kind → Parser β} (h : Fits b ws (k (kindAt ws i)) Q (A - 1) C)
    (hA : autoParam (1 ≤ A) Nat.dfold._auto_1) : Fits b ws (Parser.nth i >>= k) Q A C := by
  rintro s hs hR rfl hm hla hlc
  have hs' : s.looked.Sound := by
    refine hs.of_reaches (reaches_looked s) ?_ hs.proper
    simp only [State.looked, hs.calm]
    rw [if_pos (by omega)]
  have hlooks : s.looked.looks = s.looks + 1 := rfl
  obtain ⟨hs'', hstep⟩ := h s.looked hs' hR rfl hm (by omega) hlc
  refine ⟨hs'', ?_⟩
  rcases hstep with ⟨h₁, h₂, h₃⟩ | h
  · refine .inl ⟨h₁, ?_, h₃⟩
    change ((k (kindAt s.rest i)).run s.looked).2.looks ≤ _
    omega
  · exact .inr h

lemma peek {k : Kind → Parser β} (h : Fits b ws (k (kindAt ws 0)) Q (A - 1) C)
    (hA : autoParam (1 ≤ A) Nat.dfold._auto_1) : Fits b ws (Parser.peek >>= k) Q A C := nth h hA

lemma look {f : State → α} (h : ∀ v, Fits b ws (k v) Q A C) : Fits b ws (Parser.look f >>= k) Q A C :=
  fun s => h (f s) s

lemma remaining {k : Nat → Parser β} (h : Fits b ws (k ws.length) Q A C) :
    Fits b ws (Parser.remaining >>= k) Q A C := by
  rintro s hs hR rfl hm hla hlc
  have hrun : (Parser.remaining >>= k).run s = (k s.rest.length).run s := by rw [← s.left_eq]; rfl
  rw [hrun]
  exact h s hs hR rfl hm hla hlc

/-! ### Choices -/

lemma ite {q : Parser Bool} {y n : Parser β} {Y N : Prop} {i : Nat} (hq : Asks ws q Y N i)
    (yes : Y → Fits b ws y Q (A - i) C) (no : N → Fits b ws n Q (A - i) C)
    (hi : autoParam (i ≤ A) Nat.dfold._auto_1) :
    Fits b ws (q >>= fun v => if v = true then y else n) Q A C := looks hq yes no hi

lemma choose {q : Parser Bool} {y n : Parser β} {Y N : Prop} {i : Nat} (hq : Asks ws q Y N i)
    (yes : Y → Fits b ws y Q (A - i) C) (no : N → Fits b ws n Q (A - i) C)
    (hi : autoParam (i ≤ A) Nat.dfold._auto_1) :
    Fits b ws (Parser.choose q y n) Q A C := looks hq yes no hi

variable {q : Parser Bool} {body : Parser Unit} {T : Unit → Prop}

lemma given {Y N : Prop} {i : Nat} (hq : Asks ws q Y N i) (yes : Y → Fits b ws body T (A - i) C)
    (no : N → T ()) (hi : autoParam (i ≤ A) Nat.dfold._auto_1) : Fits b ws (Parser.given q body) T A C :=
  looks hq yes (fun h => pure (no h)) hi

lemma otherwise {Y N : Prop} {i : Nat} (hq : Asks ws q Y N i) (yes : Y → T ())
    (no : N → Fits b ws body T (A - i) C) (hi : autoParam (i ≤ A) Nat.dfold._auto_1) :
    Fits b ws (Parser.otherwise q body) T A C :=
  looks hq (fun h => pure (yes h)) no hi

/-- A choice by what a parser answers that may also take words. -/
lemma chooseAfter {S : Bool → Prop} {y n : Parser β} (hq : Fits b ws q S a c)
    (yes : ∀ ws', ws'.length ≤ ws.length → Fits b ws' y anyway (min (A - a) (C - c)) C)
    (no : ∀ ws', ws'.length ≤ ws.length → Fits b ws' n anyway (min (A - a) (C - c)) C)
    (ha : autoParam (a ≤ A) Nat.dfold._auto_1) (hc : autoParam (c ≤ C) Nat.dfold._auto_1) :
    Fits b ws (Parser.choose q y n) anyway A C :=
  hq.seq (fun v ws' h => by cases v <;> [exact no ws' h; exact yes ws' h]) ha hc

lemma givenAfter {S : Bool → Prop} (hq : Fits b ws q S a c)
    (yes : ∀ ws', ws'.length ≤ ws.length → Fits b ws' body anyway (min (A - a) (C - c)) C)
    (ha : autoParam (a ≤ A) Nat.dfold._auto_1) (hc : autoParam (c ≤ C) Nat.dfold._auto_1) :
    Fits b ws (Parser.given q body) anyway A C :=
  chooseAfter hq yes (fun _ _ => pure trivial) ha hc

lemma otherwiseAfter {S : Bool → Prop} (hq : Fits b ws q S a c)
    (no : ∀ ws', ws'.length ≤ ws.length → Fits b ws' body anyway (min (A - a) (C - c)) C)
    (ha : autoParam (a ≤ A) Nat.dfold._auto_1) (hc : autoParam (c ≤ C) Nat.dfold._auto_1) :
    Fits b ws (Parser.otherwise q body) anyway A C :=
  chooseAfter hq (fun _ _ => pure trivial) no ha hc

/-! ### Taking words -/

lemma advance (h : ws ≠ []) : Fits b ws Parser.advance never 0 0 := by
  rintro s hs hR rfl hm hla hlc
  obtain ⟨w, ws, hws⟩ := List.exists_cons_of_ne_nil h
  obtain ⟨hrest, hlooks, hpanic, hgrown, -⟩ := State.advance_of_cons hws
  refine ⟨hs.of_reaches (reaches_advance s) (hpanic.trans hs.calm) ?_, .inr ⟨?_, ?_⟩⟩
  · change ∀ x ∈ s.advance.grown, _
    simpa [hgrown, Sprout.errors] using hs.proper
  · change s.advance.rest.length < _
    simp [hrest, hws]
  · change s.advance.looks ≤ _
    omega

/-- At the end of the input nothing is taken. -/
lemma advance_any : Fits b ws Parser.advance anyway 0 0 := by
  by_cases h : ws = []
  · rintro s hs hR rfl hm hla hlc
    have hadv : s.advance = s := by
      unfold State.advance
      split
      · rfl
      · next hcons => simp [hcons] at h
    change s.advance.Sound ∧ (s.advance.rest = _ ∧ s.advance.looks ≤ _ ∧ _ ∨ _)
    rw [hadv]
    exact ⟨hs, .inl ⟨rfl, by omega, trivial⟩⟩
  · exact (advance h).weaken

lemma take (h : ws ≠ []) {k : Unit → Parser β}
    (hk : ∀ ws', ws'.length < ws.length → Fits b ws' (k ()) anyway C C) :
    Fits b ws (Parser.advance >>= k) Q A C :=
  (advance h).andThen fun _ ws' h => hk ws' h

/-- A word is taken if it has the kind. -/
lemma eat (k : Kind) (hk : autoParam (k ≠ .endOfInput) Rat.normalize._auto_1) :
    Fits b ws (Parser.eat k) (fun v => v = false ∧ kindAt ws 0 ≠ k) 1 0 :=
  ite (Asks.isAt k) (fun h => take (ne_nil_of_kindAt h hk) fun _ _ => pure trivial)
    fun h => pure ⟨rfl, h⟩

/-- What is done if a word of a kind is there and taken, and what is done else. -/
lemma ifEat {k : Kind} {f : Bool → Parser β} {Q : β → Prop}
    (hk : autoParam (k ≠ .endOfInput) Rat.normalize._auto_1)
    (yes : kindAt ws 0 = k → ∀ ws', ws'.length < ws.length → Fits b ws' (f true) anyway C C)
    (no : kindAt ws 0 ≠ k → Fits b ws (f false) Q (A - 1) C) (hA : autoParam (1 ≤ A) Nat.dfold._auto_1) :
    Fits b ws (Parser.eat k >>= f) Q A C := by
  have heat : Parser.eat k >>= f =
      Parser.isAt k >>= fun v => if v = true then Parser.advance >>= fun _ => f true else f false := by
    rw [Parser.eat, bind_assoc]
    congr 1
    funext v
    cases v <;> rfl
  rw [heat]
  exact ite (Asks.isAt k) (fun h => take (ne_nil_of_kindAt h hk) (yes h)) no

/-! ### Errors -/

end Fits

/-- An error at this point lies inside the stretch that is parsed. -/
lemma State.Sound.covers_errorSpan {s : State} (hs : s.Sound) : s.span.covers s.errorSpan := by
  have hstop := hs.ordered.le_stop
  rw [Span.covers_iff]
  unfold State.errorSpan
  split
  · exact ⟨hs.start, hstop⟩
  · next h =>
    simp only [Bool.or_eq_true, not_or, List.isEmpty_iff] at h
    obtain ⟨w, ws, hws⟩ := List.exists_cons_of_ne_nil h.1
    have hord := hs.ordered
    rw [hws] at hord
    simp only [State.currentSpan, hws, List.head?_cons, Option.map_some, Option.getD_some]
    exact ⟨Nat.le_trans hs.start hord.1, hord.2.le_stop⟩

namespace Fits

variable {b : Frame} {ws : List Word} {a c A C : Nat} {S : α → Prop} {T : Unit → Prop}

/-- An error for a stretch inside the one that is parsed. -/
lemma errorAt {r : Span} {p : Problem} (hr : b.span.covers r) (hp : p.IsGrammar) :
    Fits b ws (Parser.errorAt r p) anyway 0 0 := by
  rintro s hs hR rfl hm hla hlc
  refine ⟨hs.of_reaches (reaches_withError s p r) hs.calm ?_, .inl ⟨rfl, Nat.le_add_right _ _, trivial⟩⟩
  intro x hx
  rcases List.mem_cons.1 hx with rfl | hx
  · intro e he
    obtain rfl := List.mem_singleton.1 he
    exact ⟨hR ▸ hr, hp⟩
  · exact hs.proper x hx

/-- An error at this point takes no word. -/
lemma andError {p : Problem} {k : Unit → Parser β} {Q : β → Prop} (hp : p.IsGrammar)
    (h : Fits b ws (k ()) Q (A - 1) C)
    (hA : autoParam (1 ≤ A) Nat.dfold._auto_1) : Fits b ws (Parser.error p >>= k) Q A C := by
  rintro s hs hR rfl hm hla hlc
  have hs' : ((Parser.error p).run s).2.Sound := by
    refine hs.of_reaches ((Parser.error p).forward s) ?_ ?_
    · change (if s.looks ≤ lookLimit then s.panic else _) = none
      rw [if_pos (by omega), hs.calm]
    · intro x hx
      rcases List.mem_cons.1 hx with rfl | hx
      · intro e he
        obtain rfl := List.mem_singleton.1 he
        exact ⟨hs.covers_errorSpan, hp⟩
      · exact hs.proper x hx
  have hlooks : ((Parser.error p).run s).2.looks = s.looks + 1 := rfl
  obtain ⟨hs'', hstep⟩ := h _ hs' hR rfl hm (by omega) hlc
  refine ⟨hs'', hstep.imp_left fun ⟨h₁, h₂, h₃⟩ => ⟨h₁, ?_, h₃⟩⟩
  change ((k ()).run ((Parser.error p).run s).2).2.looks ≤ _
  omega

lemma error {p : Problem} (hp : p.IsGrammar) : Fits b ws (Parser.error p) anyway 1 0 :=
  andError (k := Pure.pure) hp (pure trivial)

lemma andExpected {what : String} {k : Unit → Parser β} {Q : β → Prop} (h : Fits b ws (k ()) Q (A - 2) C)
    (hA : autoParam (2 ≤ A) Nat.dfold._auto_1) : Fits b ws (Parser.expected what >>= k) Q A C := by
  rw [Parser.expected, bind_assoc]
  exact peek (andError trivial (by rwa [Nat.sub_sub]))

lemma expected (what : String) : Fits b ws (Parser.expected what) anyway 2 0 := peek (error trivial)

lemma expect (k : Kind) (hk : autoParam (k ≠ .endOfInput) Rat.normalize._auto_1) :
    Fits b ws (Parser.expect k) anyway 3 0 :=
  ifEat hk (fun _ _ _ => pure trivial) fun _ => (expected _).within

/-- A word of the kind is there. -/
lemma expect_of_kindAt {k : Kind} (h : kindAt ws 0 = k)
    (hk : autoParam (k ≠ .endOfInput) Rat.normalize._auto_1) :
    Fits b ws (Parser.expect k) never 1 0 :=
  ifEat hk (fun _ _ _ => pure trivial) fun hne => absurd h hne

/-! ### Stretches -/

/-- The stretch from an offset to the last word taken, which ends behind the offset. -/
lemma spanSince {start : Nat} {k : Span → Parser β} {Q : β → Prop} (hlow : b.span.start ≤ start)
    (hk : ∀ r, b.span.covers r → Fits { b with floor := start } ws (k r) Q A C) :
    Fits { b with floor := start } ws (Parser.spanSince start >>= k) Q A C := by
  rintro s hs hR rfl hm hla hlc
  have hrun : (Parser.spanSince start >>= k).run s = (k (.between start s.previousStop)).run s := by
    rw [run_bind]
    simp only [Parser.spanSince, if_pos hm]
  rw [hrun]
  refine hk _ (Span.covers_iff.2 ⟨hlow, ?_⟩) s hs hR rfl hm hla hlc
  rw [Span.stop_between hm, ← hR]
  exact hs.ordered.le_stop

lemma errorSince {start : Nat} {p : Problem} (hlow : b.span.start ≤ start) (hp : p.IsGrammar) :
    Fits { b with floor := start } ws (Parser.errorSince start p) anyway 0 0 :=
  spanSince hlow fun _ hr => errorAt hr hp

/-- The start of a word is known to lie before the end of the last word taken once the word is taken. -/
lemma currentStart {k : Nat → Parser β} {Q : β → Prop} (h : ws ≠ [])
    (hk : ∀ start ws', b.span.start ≤ start → b.floor ≤ start → ws'.length < ws.length →
      Fits { b with floor := start } ws' (k start) anyway C C) :
    Fits b ws (Parser.currentStart >>= fun start => Parser.advance >>= fun _ => k start) Q A C := by
  rintro s hs hR rfl hm hla hlc
  obtain ⟨w, ws, hws⟩ := List.exists_cons_of_ne_nil h
  obtain ⟨hs', hstep⟩ := advance (b := b) h s hs hR rfl hm (by omega) (by omega)
  have hreach := Parser.advance.forward s
  rcases hstep with ⟨-, -, hfalse⟩ | ⟨hlen, hlooks⟩
  · exact hfalse.elim
  have hstart : s.currentSpan.start = w.token.start := by simp [State.currentSpan, hws]
  have hord := hs.ordered
  rw [hws] at hord
  have hprev : w.token.start ≤ (Parser.advance.run s).2.previousStop := by
    have hlast : (Parser.advance.run s).2.previous = some w := (State.advance_of_cons hws).2.2.2.2
    simp only [State.previousStop, hlast]
    exact Nat.le_add_right _ _
  have hlow : b.span.start ≤ w.token.start := by
    rw [← hR]
    exact Nat.le_trans hs.start hord.1
  obtain ⟨hs'', hstep'⟩ := hk w.token.start _ hlow (Nat.le_trans hm hord.1) hlen _ hs'
    (hreach.span.trans hR) rfl hprev (by omega) hlc
  have hrun : (Parser.currentStart >>= fun start => Parser.advance >>= fun _ => k start).run s =
      (k w.token.start).run (Parser.advance.run s).2 := by rw [← hstart]; rfl
  rw [hrun]
  refine ⟨hs'', .inr ?_⟩
  rcases hstep' with ⟨h₁, h₂, -⟩ | ⟨h₁, h₂⟩
  · exact ⟨by rw [h₁]; exact hlen, by omega⟩
  · exact ⟨by omega, h₂⟩

/-! ### Nodes -/

/-- The errors in a node are those of its parts. -/
lemma proper_node {R : Span} {k : Kind} {g outside : List Sprout}
    (hg : ∀ x ∈ g, ∀ e ∈ x.errors, Proper R e) (ho : ∀ x ∈ outside, ∀ e ∈ x.errors, Proper R e) :
    ∀ x ∈ Sprout.node k g.reverse :: outside, ∀ e ∈ x.errors, Proper R e := by
  intro x hx e he
  rcases List.mem_cons.1 hx with rfl | hx
  · obtain ⟨y, hy, hey⟩ := Sprout.mem_errorsIn.1 he
    exact hg y (List.mem_reverse.1 hy) e hey
  · exact ho x hx e he

/-- What is grown inside a node, or around it, does not matter to a parser. -/
lemma regrow {p : Parser α} (hp : Fits b ws p S a c) {s : State} (hs : s.Sound) (hR : s.span = b.span)
    (hws : s.rest = ws) (hm : b.floor ≤ s.previousStop) (hla : s.looks + a ≤ lookLimit)
    (hlc : b.base + c ≤ lookLimit) (inner : List Sprout) (hinner : ∀ x ∈ inner, x ∈ s.grown)
    (outer : List Sprout → List Sprout)
    (houter : ∀ g, (∀ x ∈ g, ∀ e ∈ x.errors, Proper s.span e) →
      ∀ x ∈ outer g, ∀ e ∈ x.errors, Proper s.span e)
    {t : State} (ht : t = (p.run { s with grown := inner }).2)
    (hreach : Reaches s { t with grown := outer t.grown }) :
    { t with grown := outer t.grown }.Sound ∧
      (t.rest = ws ∧ t.looks ≤ s.looks + a ∧ S (p.run { s with grown := inner }).1 ∨
        t.rest.length < ws.length ∧ t.looks ≤ b.base + c) := by
  obtain ⟨hs', hstep⟩ := hp { s with grown := inner }
    ⟨hs.calm, hs.start, hs.ordered, fun x hx => hs.proper x (hinner x hx)⟩ hR hws hm hla hlc
  rw [← ht] at hs' hstep
  refine ⟨hs.of_reaches hreach hs'.calm (houter _ ?_), hstep⟩
  have hspan : t.span = s.span := hreach.span
  rw [← hspan]
  exact hs'.proper

lemma nodeBy {p : Parser Kind} {S : Kind → Prop} (hp : Fits b ws p S a c) :
    Fits b ws (Parser.nodeBy p) S a c := by
  intro s hs hR hws hm hla hlc
  refine regrow hp hs hR hws hm hla hlc [] (by simp)
    (fun g => .node (p.run s.inner).1 g.reverse :: s.grown) ?_ rfl ((Parser.nodeBy p).forward s)
  exact fun g hg => proper_node hg hs.proper

lemma node {k : Kind} {p : Parser Unit} (hp : Fits b ws p T a c) : Fits b ws (Parser.node k p) T a c :=
  (nodeBy (S := fun _ => T ()) (hp.bind (fun _ h => pure h) fun _ _ _ => pure trivial)).map fun _ h => h

lemma wrapBy {p : Parser Kind} {S : Kind → Prop} (hp : Fits b ws p S a c) :
    Fits b ws (Parser.wrapBy p) S a c := by
  intro s hs hR hws hm hla hlc
  refine regrow hp hs hR hws hm hla hlc (s.grown.take 1) (fun x hx => List.mem_of_mem_take hx)
    (fun g => .node (p.run s.taken).1 g.reverse :: s.grown.drop 1) ?_ rfl
    ((Parser.wrapBy p).forward s)
  exact fun g hg => proper_node hg fun x hx => hs.proper x (List.mem_of_mem_drop hx)

lemma wrap {k : Kind} {p : Parser Unit} (hp : Fits b ws p T a c) : Fits b ws (Parser.wrap k p) T a c :=
  (wrapBy (S := fun _ => T ()) (hp.bind (fun _ h => pure h) fun _ _ _ => pure trivial)).map fun _ h => h

lemma nodeIf {k : Kind} {p : Parser Bool} {S : Bool → Prop} (hp : Fits b ws p S a c) :
    Fits b ws (Parser.nodeIf k p) (fun _ => ∃ v, S v) a c := by
  intro s hs hR hws hm hla hlc
  have hforward := (Parser.nodeIf k p).forward s
  have hrun : (Parser.nodeIf k p).run s = ((), if (p.run s.inner).1 then s.close (p.run s.inner).2 k
      else s.splice (p.run s.inner).2) := rfl
  rw [hrun] at hforward ⊢
  cases hv : (p.run s.inner).1 with
  | true =>
    rw [hv] at hforward
    obtain ⟨h₁, h₂⟩ := regrow hp hs hR hws hm hla hlc [] (by simp)
      (fun g => .node k g.reverse :: s.grown) (fun g hg => proper_node hg hs.proper) rfl hforward
    exact ⟨h₁, h₂.imp_left fun ⟨i, j, l⟩ => ⟨i, j, _, l⟩⟩
  | false =>
    rw [hv] at hforward
    obtain ⟨h₁, h₂⟩ := regrow hp hs hR hws hm hla hlc [] (by simp)
      (fun g => g ++ s.grown) (fun g hg x hx => (List.mem_append.1 hx).elim (hg x) (hs.proper x))
      rfl hforward
    exact ⟨h₁, h₂.imp_left fun ⟨i, j, l⟩ => ⟨i, j, _, l⟩⟩

lemma withComposites {v : Bool} {p : Parser α} (hp : Fits b ws p S a c) :
    Fits b ws (Parser.withComposites v p) S a c := by
  intro s hs hR hws hm hla hlc
  obtain ⟨hs', hstep⟩ := hp { s with composites := v } ⟨hs.calm, hs.start, hs.ordered, hs.proper⟩ hR hws hm
    hla hlc
  exact ⟨⟨hs'.calm, hs'.start, hs'.ordered, hs'.proper⟩, hstep⟩

/-! ### Repetition -/

/-- A loop comes to its end if every round but the last takes a word. -/
lemma rounds {body : σ → Parser (ForInStep σ)} {S : σ → Prop} {n : Nat} {x : σ} (hn : ws.length < n)
    (first : Fits b ws (body x) (fun r => ∃ y, r = .done y ∧ S y) a c)
    (next : ∀ x ws', ws'.length < ws.length → Fits b ws' (body x) (fun r => ∃ y, r = .done y) a c) :
    Fits b ws (Parser.rounds body n x) S a (c + a) := by
  induction n generalizing ws x S with
  | zero => exact absurd hn (Nat.not_lt_zero _)
  | succ n ih =>
    refine first.bind ?_ ?_ (Nat.le_refl a) (Nat.le_add_right c a)
    · rintro _ ⟨y, rfl, hy⟩
      exact pure hy
    · intro v ws' hws'
      have hlooks : c + a - c = a := by omega
      cases v with
      | done y => exact pure trivial
      | yield y =>
        refine (ih (S := anyway) (by omega) ?_ fun x ws'' h => next x ws'' (by omega)).within (by omega) (by omega)
        exact (next y ws' hws').mono (fun _ ⟨z, hz⟩ => ⟨z, hz, trivial⟩) (Nat.le_refl _) (Nat.le_refl _)

lemma loop {body : σ → Parser (ForInStep σ)} {S : σ → Prop} {x : σ}
    (first : Fits b ws (body x) (fun r => ∃ y, r = .done y ∧ S y) a c)
    (next : ∀ x ws', ws'.length < ws.length → Fits b ws' (body x) (fun r => ∃ y, r = .done y) a c) :
    Fits b ws (Parser.loop x body) S a (c + a) :=
  remaining (rounds (Nat.lt_succ_self _) first next)

lemma loopAny {body : σ → Parser (ForInStep σ)} {x : σ}
    (h : ∀ x ws', ws'.length ≤ ws.length → Fits b ws' (body x) (fun r => ∃ y, r = .done y) a c) :
    Fits b ws (Parser.loop x body) anyway a (c + a) :=
  loop ((h x ws (Nat.le_refl _)).mono (fun _ ⟨y, hy⟩ => ⟨y, hy, trivial⟩) (Nat.le_refl _) (Nat.le_refl _))
    fun x ws' hws' => h x ws' (Nat.le_of_lt hws')

lemma repeatWhile {body : Parser Bool}
    (h : ∀ ws', ws'.length ≤ ws.length → Fits b ws' body (· = false) a c) :
    Fits b ws (Parser.repeatWhile body) anyway a (c + a) := by
  refine loopAny fun _ ws' hws' => (h ws' hws').bind (fun v hv => ?_) fun v ws'' _ => ?_
  · subst hv
    exact pure ⟨(), rfl⟩
  · cases v <;> exact pure trivial

/-! ### Recovery -/

lemma errorAndAdvance {p : Problem} (h : ws ≠ []) (hp : p.IsGrammar) :
    Fits b ws (Parser.errorAndAdvance p) never 1 0 :=
  node (andError hp (advance h))

lemma expectedAndAdvance {what : String} (h : ws ≠ []) :
    Fits b ws (Parser.expectedAndAdvance what) never 2 0 := peek (errorAndAdvance h trivial)

/-- A word is taken, by the body or in its place. -/
lemma orSkip {body next : Parser Unit} {what : String} (h : ws ≠ [])
    (hbody : Fits b ws body anyway a c)
    (hnext : ∀ ws', ws'.length < ws.length → Fits b ws' next anyway (C - c) C)
    (ha : autoParam (a + 2 ≤ A) Nat.dfold._auto_1) (hc : autoParam (c + 2 ≤ C) Nat.dfold._auto_1) :
    Fits b ws (Parser.orSkip body what next) never A C := by
  refine remaining (hbody.bind (fun _ _ => remaining ?_) fun _ ws' hws' => remaining ?_)
  · rw [if_pos rfl]
    exact (expectedAndAdvance h).within
  · rw [if_neg (by omega)]
    exact hnext ws' hws'

lemma expectedOr {what : String} {recovery : KindSet} :
    Fits b ws (Parser.expectedOr what recovery) anyway 4 0 := by
  refine ite ((Asks.isAtAny recovery).or (Asks.isAt .endOfInput)) (fun _ => (expected what).within) fun h => ?_
  refine (expectedAndAdvance ?_).weaken
  exact ne_nil_of_kindAt rfl h.2

end Fits

end Parser

end GoFront
