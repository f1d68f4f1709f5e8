import GoFront.Proofs.Parse.Effort

/-!
# What a parser grows

`Parser.Grows` says of one parser, on one input and with some sprouts grown already, what its answer is, what it leaves
of the input and what it has grown in the end, provided that no assertion fails. The sprouts are in the order in which
a state holds them, last first.

The rules of this file follow the operations that grammars are written with. A node starts with nothing grown and ends
as one sprout; a node around the last sprout starts with that sprout.
-/

namespace GoFront

/-- The stretch from the start of the first of some words to the end of the last. -/
def Word.spanOf (ws : List Word) : Span :=
  .between ((ws.head?.map fun w => w.token.start).getD 0) ((ws.getLast?.map fun w => w.token.stop).getD 0)

namespace Parser

variable {α β σ : Type}

/-- On the input `ws` and with `f` grown so far, a parser whose assertions hold comes to an answer, a rest of the input
and sprouts of which `Q` holds. -/
def Grows (ws : List Word) (f : List Sprout) (p : Parser α) (Q : α → List Word → List Sprout → Prop) : Prop :=
  ∀ s : State, s.rest = ws → s.grown = f → (p.run s).2.panic = none →
    Q (p.run s).1 (p.run s).2.rest (p.run s).2.grown

namespace Grows

variable {ws : List Word} {f : List Sprout} {p : Parser α} {Q Q' : α → List Word → List Sprout → Prop}
  {k : α → Parser β} {R : β → List Word → List Sprout → Prop}

lemma mono (h : Grows ws f p Q) (hQ : ∀ a ws' f', Q a ws' f' → Q' a ws' f') : Grows ws f p Q' :=
  fun s hs hf hcalm => hQ _ _ _ (h s hs hf hcalm)

lemma and (h : Grows ws f p Q) (h' : Grows ws f p Q') : Grows ws f p fun a ws' f' => Q a ws' f' ∧ Q' a ws' f' :=
  fun s hs hf hcalm => ⟨h s hs hf hcalm, h' s hs hf hcalm⟩

/-! ### Sequences -/

lemma pure {a : α} (h : Q a ws f) : Grows ws f (Pure.pure a) Q := by
  rintro s rfl rfl -
  exact h

lemma bind (hp : Grows ws f p Q) (hk : ∀ a ws' f', Q a ws' f' → Grows ws' f' (k a) R) : Grows ws f (p >>= k) R := by
  intro s hs hf hcalm
  rw [run_bind] at hcalm ⊢
  exact hk _ _ _ (hp s hs hf (((k (p.run s).1).forward (p.run s).2).calm hcalm)) _ rfl rfl hcalm

lemma map (hp : Grows ws f p Q) {g : α → β} (hg : ∀ a ws' f', Q a ws' f' → R (g a) ws' f') : Grows ws f (g <$> p) R :=
  fun s hs hf hcalm => hg _ _ _ (hp s hs hf hcalm)

lemma andPure (hp : Grows ws f p Q) {g : α → β} (hg : ∀ a ws' f', Q a ws' f' → R (g a) ws' f') :
    Grows ws f (p >>= fun v => Pure.pure (g v)) R := hp.map hg

lemma discard (hp : Grows ws f p Q) {R : Unit → List Word → List Sprout → Prop}
    (h : ∀ a ws' f', Q a ws' f' → R () ws' f') : Grows ws f (Functor.discard p) R := hp.map h

/-- A parser that gives up. -/
lemma fail {e : Panic} {R : Unit → List Word → List Sprout → Prop} : Grows ws f (Parser.fail e) R := by
  intro s _ _ hcalm
  exact absurd (Option.or_eq_none_iff.1 hcalm).2 (Option.some_ne_none e)

/-! ### Looking -/

/-- What is done after a question depends on the answer. -/
lemma ask {q : Parser Bool} {k : Bool → Parser β} {Y N : Prop} {n : Nat} (hq : Asks ws q Y N n)
    (yes : Y → Grows ws f (k true) R) (no : N → Grows ws f (k false) R) : Grows ws f (q >>= k) R := by
  intro s hs hf hcalm
  obtain ⟨i, -, hrun, hyes, hno⟩ := hq s hs
  obtain ⟨pan, hglance, -⟩ := s.glance_eq i
  rw [hglance] at hrun
  have key : Grows ws f (k (q.run s).1) R := by
    cases hv : (q.run s).1 with
    | true => exact yes (hyes hv)
    | false => exact no (hno hv)
  exact key _ (by rw [hrun]; exact hs) (by rw [hrun]; exact hf) hcalm

lemma nth {i : Nat} {k : Kind → Parser β} (h : Grows ws f (k (kindAt ws i)) R) :
    Grows ws f (Parser.nth i >>= k) R := by
  rintro s rfl rfl hcalm
  exact h s.looked rfl rfl hcalm

lemma peek {k : Kind → Parser β} (h : Grows ws f (k (kindAt ws 0)) R) : Grows ws f (Parser.peek >>= k) R := nth h

lemma look {g : State → α} (h : ∀ v, Grows ws f (k v) R) : Grows ws f (Parser.look g >>= k) R :=
  fun s hs hf hcalm => h (g s) s hs hf hcalm

lemma remaining {k : Nat → Parser β} (h : Grows ws f (k ws.length) R) : Grows ws f (Parser.remaining >>= k) R := by
  rintro s rfl rfl hcalm
  have hrun : (Parser.remaining >>= k).run s = (k s.rest.length).run s := by rw [← s.left_eq]; rfl
  rw [hrun] at hcalm ⊢
  exact h s rfl rfl hcalm

/-! ### Stretches -/

/-- The words taken end the words in what has grown. -/
lemma conserves (h : Grows ws f p Q) : Grows ws f p fun a ws' f' => Q a ws' f' ∧
    ∃ taken, ws = taken ++ ws' ∧ Sprout.wordsIn f'.reverse = Sprout.wordsIn f.reverse ++ taken := by
  rintro s rfl rfl hcalm
  obtain ⟨taken, hrest, hgrown, -⟩ := (p.forward s).moved
  exact ⟨h s rfl rfl hcalm, taken, hrest, hgrown⟩

/-- What is done with the stretch of what a parser takes. -/
lemma since {body : Parser Unit} {S : Unit → List Word → List Sprout → Prop} {k : Span → Parser β}
    (hbody : Grows ws f body S) (hk : ∀ taken ws' f', S () ws' f' → ws = taken ++ ws' →
      Sprout.wordsIn f'.reverse = Sprout.wordsIn f.reverse ++ taken →
        taken ≠ [] ∧ Grows ws' f' (k (Word.spanOf taken)) R) :
    Grows ws f (Parser.currentStart >>= fun start => body >>= fun _ => Parser.spanSince start >>= k) R := by
  rintro s rfl rfl hcalm
  simp only [Parser.currentStart, Parser.look, run_bind] at hcalm ⊢
  generalize ht : (body.run s).2 = t at hcalm ⊢
  obtain ⟨taken, hrest, hgrown, hprevious⟩ := (body.forward s).moved
  rw [ht] at hrest hgrown hprevious
  have hcalm' := ((k _).forward _).calm hcalm
  have hspan : ((Parser.spanSince s.currentSpan.start).run t).2 = t := by
    simp only [Parser.spanSince] at hcalm' ⊢
    split
    · rfl
    · next hlt =>
      rw [if_neg hlt] at hcalm'
      exact absurd (Option.or_eq_none_iff.1 hcalm').2 (Option.some_ne_none _)
  rw [hspan] at hcalm hcalm' ⊢
  have hS := hbody s rfl rfl (by rw [ht]; exact hcalm')
  rw [ht] at hS
  obtain ⟨hne, hgrows⟩ := hk taken _ _ hS hrest hgrown
  have heq : ((Parser.spanSince s.currentSpan.start).run t).1 = Word.spanOf taken := by
    obtain ⟨w, taken, rfl⟩ := List.exists_cons_of_ne_nil hne
    simp only [Parser.spanSince, State.currentSpan, State.previousStop, hrest, hprevious, Word.spanOf,
      List.getLast?_cons]
    rfl
  rw [heq] at hcalm ⊢
  exact hgrows t rfl rfl hcalm

/-! ### Choices -/

section

variable {q : Parser Bool} {Y N : Prop} {n : Nat}

lemma ite {y y' : Parser β} (hq : Asks ws q Y N n) (yes : Y → Grows ws f y R) (no : N → Grows ws f y' R) :
    Grows ws f (q >>= fun v => if v = true then y else y') R := ask hq yes no

lemma choose {y y' : Parser β} (hq : Asks ws q Y N n) (yes : Y → Grows ws f y R) (no : N → Grows ws f y' R) :
    Grows ws f (Parser.choose q y y') R := ask hq yes no

variable {body : Parser Unit} {T : Unit → List Word → List Sprout → Prop}

lemma given (hq : Asks ws q Y N n) (yes : Y → Grows ws f body T) (no : N → T () ws f) :
    Grows ws f (Parser.given q body) T := ask hq yes fun h => pure (no h)

lemma otherwise (hq : Asks ws q Y N n) (yes : Y → T () ws f) (no : N → Grows ws f body T) :
    Grows ws f (Parser.otherwise q body) T := ask hq (fun h => pure (yes h)) no

/-- What is done if another parser finds nothing. -/
lemma givenNone {p : Parser (Option α)} {Q : Option α → List Word → List Sprout → Prop} (hp : Grows ws f p Q)
    (none : ∀ ws' f', Q none ws' f' → Grows ws' f' body T) (some : ∀ a ws' f', Q (some a) ws' f' → T () ws' f') :
    Grows ws f (Parser.given (Option.isNone <$> p) body) T := by
  refine bind (Q := fun v ws' f' => ∃ u, v = u.isNone ∧ Q u ws' f') (hp.map fun v _ _ h => ⟨v, rfl, h⟩) ?_
  rintro _ ws' f' ⟨_ | a, rfl, h⟩
  · exact none ws' f' h
  · exact pure (some a ws' f' h)

end

/-! ### Taking words -/

lemma advance_nil {T : Unit → List Word → List Sprout → Prop} (h : T () [] f) : Grows [] f Parser.advance T := by
  rintro s hs rfl -
  have hadv : s.advance = s := by
    unfold State.advance
    split
    · rfl
    · next hcons => simp [hcons] at hs
  change T () s.advance.rest s.advance.grown
  rw [hadv, hs]
  exact h

lemma advance {w : Word} {T : Unit → List Word → List Sprout → Prop} (h : T () ws (.word w :: f)) :
    Grows (w :: ws) f Parser.advance T := by
  rintro s hs rfl -
  obtain ⟨hrest, -, -, hgrown, -⟩ := State.advance_of_cons hs
  change T () s.advance.rest s.advance.grown
  rw [hrest, hgrown]
  exact h

/-- A word of a kind is there, and it is taken. -/
lemma advance_of_kindAt {K : Kind → Prop} {T : Unit → List Word → List Sprout → Prop} (hK : K (kindAt ws 0))
    (hend : ¬ K .endOfInput) (h : ∀ w ws', ws = w :: ws' → K w.kind → T () ws' (.word w :: f)) :
    Grows ws f Parser.advance T := by
  cases ws with
  | nil => exact absurd hK hend
  | cons w ws => exact advance (h w ws rfl hK)

lemma take {K : Kind → Prop} {k : Unit → Parser β} (hK : K (kindAt ws 0)) (hend : ¬ K .endOfInput)
    (h : ∀ w ws', ws = w :: ws' → K w.kind → Grows ws' (.word w :: f) (k ()) R) :
    Grows ws f (Parser.advance >>= k) R :=
  bind (Q := fun _ ws' f' => Grows ws' f' (k ()) R) (advance_of_kindAt hK hend h) fun _ _ _ h => h

/-- What is done if a word of a kind is there and taken, and what is done else. -/
lemma ifEat {c : Kind} {k : Bool → Parser β} (hc : c ≠ .endOfInput)
    (yes : ∀ w ws', ws = w :: ws' → w.kind = c → Grows ws' (.word w :: f) (k true) R)
    (no : kindAt ws 0 ≠ c → Grows ws f (k false) R) : Grows ws f (Parser.eat c >>= k) R := by
  have heat : Parser.eat c >>= k =
      Parser.isAt c >>= fun v => if v = true then Parser.advance >>= fun _ => k true else k false := by
    rw [Parser.eat, bind_assoc]
    congr 1
    funext v
    cases v <;> rfl
  rw [heat]
  exact ite (.isAt c) (fun h => take (K := (· = c)) h hc.symm yes) no

/-! ### Errors -/

lemma error {e : Problem} {T : Unit → List Word → List Sprout → Prop} (h : ∀ r, T () ws (.error e r :: f)) :
    Grows ws f (Parser.error e) T := by
  rintro s rfl rfl -
  exact h _

lemma expected {what : String} {T : Unit → List Word → List Sprout → Prop}
    (h : ∀ k r, T () ws (.error (.expected what k) r :: f)) : Grows ws f (Parser.expected what) T := peek (error (h _))

lemma errorAt {r : Span} {e : Problem} {T : Unit → List Word → List Sprout → Prop} (h : T () ws (.error e r :: f)) :
    Grows ws f (Parser.errorAt r e) T := by
  rintro s rfl rfl -
  exact h

lemma errorSince {start : Nat} {e : Problem} {T : Unit → List Word → List Sprout → Prop}
    (h : ∀ r, T () ws (.error e r :: f)) : Grows ws f (Parser.errorSince start e) T := by
  refine bind (Q := fun _ ws' f' => ws' = ws ∧ f' = f) ?_ fun r ws' f' ⟨hws, hf⟩ => by
    subst hws hf
    exact errorAt (h r)
  rintro s rfl rfl hcalm
  simp only [Parser.spanSince] at hcalm ⊢
  split <;> exact ⟨rfl, rfl⟩

/-! ### Nodes -/

lemma nodeBy {p : Parser Kind} {Q : Kind → List Word → List Sprout → Prop}
    (h : Grows ws [] p fun k ws' g => Q k ws' (.node k g.reverse :: f)) : Grows ws f (Parser.nodeBy p) Q := by
  rintro s rfl rfl hcalm
  exact h s.inner rfl rfl hcalm

lemma node {c : Kind} {p : Parser Unit} {T : Unit → List Word → List Sprout → Prop}
    (h : Grows ws [] p fun _ ws' g => T () ws' (.node c g.reverse :: f)) : Grows ws f (Parser.node c p) T :=
  (nodeBy (Q := fun _ => T ()) (h.andPure fun _ _ _ h => h)).discard fun _ _ _ h => h

lemma wrapBy {p : Parser Kind} {x : Sprout} {Q : Kind → List Word → List Sprout → Prop}
    (h : Grows ws [x] p fun k ws' g => Q k ws' (.node k g.reverse :: f)) : Grows ws (x :: f) (Parser.wrapBy p) Q := by
  rintro s rfl hf hcalm
  have hdrop : s.grown.drop 1 = f := by rw [hf]; rfl
  have htake : s.taken.grown = [x] := by
    change s.grown.take 1 = [x]
    rw [hf]
    rfl
  change Q _ _ (.node _ (p.run s.taken).2.grown.reverse :: s.grown.drop 1)
  rw [hdrop]
  exact h s.taken rfl htake hcalm

lemma wrap {c : Kind} {p : Parser Unit} {x : Sprout} {T : Unit → List Word → List Sprout → Prop}
    (h : Grows ws [x] p fun _ ws' g => T () ws' (.node c g.reverse :: f)) : Grows ws (x :: f) (Parser.wrap c p) T :=
  (wrapBy (Q := fun _ => T ()) (h.andPure fun _ _ _ h => h)).discard fun _ _ _ h => h

lemma nodeIf {c : Kind} {p : Parser Bool} {T : Unit → List Word → List Sprout → Prop}
    (h : Grows ws [] p fun v ws' g => T () ws' (if v then .node c g.reverse :: f else g ++ f)) :
    Grows ws f (Parser.nodeIf c p) T := by
  rintro s rfl rfl hcalm
  have hrun : (Parser.nodeIf c p).run s = ((), if (p.run s.inner).1 then s.close (p.run s.inner).2 c
      else s.splice (p.run s.inner).2) := rfl
  rw [hrun] at hcalm ⊢
  have hT := h s.inner rfl rfl
  cases hv : (p.run s.inner).1 with
  | true =>
    rw [hv] at hcalm hT
    exact hT hcalm
  | false =>
    rw [hv] at hcalm hT
    exact hT hcalm

lemma withComposites {v : Bool} (h : Grows ws f p Q) : Grows ws f (Parser.withComposites v p) Q := by
  rintro s rfl rfl hcalm
  exact h { s with composites := v } rfl rfl hcalm

/-! ### Repetition -/

/-- How a round of a loop goes on: `I` holds if another one follows, `E` if it was the last. -/
def Goes (I E : σ → List Word → List Sprout → Prop) : ForInStep σ → List Word → List Sprout → Prop
  | .yield x => I x
  | .done x => E x

lemma rounds {body : σ → Parser (ForInStep σ)} {I E : σ → List Word → List Sprout → Prop}
    (h : ∀ x ws f, I x ws f → Grows ws f (body x) (Goes I E)) (n : Nat) {x : σ} (hI : I x ws f) :
    Grows ws f (Parser.rounds body n x) E := by
  induction n generalizing x ws f with
  | zero => exact bind (Q := fun _ _ _ => False) fail fun _ _ _ h => h.elim
  | succ n ih =>
    refine (h x ws f hI).bind fun r ws' f' hr => ?_
    cases r with
    | yield y => exact ih hr
    | done y => exact pure hr

/-- A loop keeps what every round of it keeps. -/
lemma loop {body : σ → Parser (ForInStep σ)} {I E : σ → List Word → List Sprout → Prop} {x : σ} (hI : I x ws f)
    (h : ∀ x ws f, I x ws f → Grows ws f (body x) (Goes I E)) : Grows ws f (Parser.loop x body) E :=
  remaining (rounds h _ hI)

/-- A loop that ends with a round that answers no. -/
lemma repeatWhile {body : Parser Bool} {I : List Word → List Sprout → Prop}
    {T : Unit → List Word → List Sprout → Prop} (hI : I ws f)
    (h : ∀ ws f, I ws f → Grows ws f body fun v ws' f' => (v = true → I ws' f') ∧ (v = false → T () ws' f')) :
    Grows ws f (Parser.repeatWhile body) T := by
  refine loop (I := fun _ => I) hI fun _ ws f hI => (h ws f hI).bind fun v ws' f' hv => ?_
  cases v with
  | true => exact pure (hv.1 rfl)
  | false => exact pure (hv.2 rfl)

/-! ### Recovery -/

lemma orSkip {body next : Parser Unit} {what : String} {T : Unit → List Word → List Sprout → Prop}
    {S : List Word → List Sprout → Prop} (hbody : Grows ws f body fun _ ws' f' => S ws' f')
    (hskip : ∀ ws' f', S ws' f' → Grows ws' f' (Parser.expectedAndAdvance what) T)
    (hnext : ∀ ws' f', S ws' f' → Grows ws' f' next T) : Grows ws f (Parser.orSkip body what next) T := by
  refine remaining (hbody.bind fun _ ws' f' hS => remaining ?_)
  split
  · exact hskip ws' f' hS
  · exact hnext ws' f' hS

end Grows

end Parser

end GoFront
