import GoFront.Proofs.Parse.Growth

/-!
# What a parser grows where composite literals are allowed or not

A parser runs with composite literals allowed or not, and hands the permission back as it was given. `Parser.Bears` says
so of one parser with some sprouts grown already, and tells its answer and what it has grown in the end. Nothing is said
of the input and of failed assertions, so all that counts of a question is that it is one.
-/

namespace GoFront.Parser

variable {α β σ : Type}

/-- With composite literals allowed as `a` tells and `f` grown so far, a parser comes to an answer and to sprouts of
which `Q` holds, and composite literals are allowed behind it as they were. -/
def Bears (a : Bool) (f : List Sprout) (p : Parser α) (Q : α → List Sprout → Prop) : Prop :=
  ∀ s : State, s.composites = a → s.grown = f →
    (p.run s).2.composites = a ∧ Q (p.run s).1 (p.run s).2.grown

namespace Bears

variable {a : Bool} {f : List Sprout} {p : Parser α} {k : α → Parser β} {Q Q' : α → List Sprout → Prop}
  {R : β → List Sprout → Prop}

lemma mono (h : Bears a f p Q) (hQ : ∀ v f', Q v f' → Q' v f') : Bears a f p Q' :=
  fun s ha hf => (h s ha hf).imp_right (hQ _ _)

/-- What is known of every answer. -/
lemma always {A : α → Prop} (h : Bears a f p Q) (hA : ∀ s, A (p.run s).1) : Bears a f p fun v f' => A v ∧ Q v f' :=
  fun s ha hf => (h s ha hf).imp_right fun hQ => ⟨hA s, hQ⟩

/-! ### Sequences -/

lemma pure {v : α} (h : Q v f) : Bears a f (Pure.pure v) Q := by
  rintro s ha rfl
  exact ⟨ha, h⟩

lemma bind (hp : Bears a f p Q) (hk : ∀ v f', Q v f' → Bears a f' (k v) R) : Bears a f (p >>= k) R := by
  intro s ha hf
  obtain ⟨ha', hQ⟩ := hp s ha hf
  exact hk _ _ hQ _ ha' rfl

lemma map (hp : Bears a f p Q) {g : α → β} (hg : ∀ v f', Q v f' → R (g v) f') : Bears a f (g <$> p) R :=
  fun s ha hf => (hp s ha hf).imp_right (hg _ _)

lemma fail {e : Panic} {T : Unit → List Sprout → Prop} (h : T () f) : Bears a f (Parser.fail e) T := by
  rintro s ha rfl
  exact ⟨ha, h⟩

/-! ### Looking -/

lemma nth {i : Nat} {k : Kind → Parser β} (h : ∀ c, Bears a f (k c) R) : Bears a f (Parser.nth i >>= k) R :=
  fun s ha hf => h (s.nth i) s.looked ha hf

lemma peek {k : Kind → Parser β} (h : ∀ c, Bears a f (k c) R) : Bears a f (Parser.peek >>= k) R := nth h

lemma look {g : State → α} (h : ∀ v, Bears a f (k v) R) : Bears a f (Parser.look g >>= k) R :=
  fun s ha hf => h (g s) s ha hf

lemma allowed {k : Bool → Parser β} (h : Bears a f (k a) R) : Bears a f (Parser.compositesAllowed >>= k) R := by
  rintro s rfl hf
  exact h s rfl hf

/-- A question changes nothing. -/
lemma ask {q : Parser Bool} {k : Bool → Parser β} {Y N : List Word → Prop} {n : Nat}
    (hq : ∀ ws, Asks ws q (Y ws) (N ws) n) (h : ∀ v, Bears a f (k v) R) : Bears a f (q >>= k) R := by
  intro s ha hf
  -- All that it leaves behind is that it has looked.
  obtain ⟨i, -, hrun, -⟩ := hq s.rest s rfl
  obtain ⟨e, hglance, -⟩ := s.glance_eq i
  rw [hglance] at hrun
  exact h _ _ (by rw [hrun]; exact ha) (by rw [hrun]; exact hf)

/-! ### Words and errors -/

lemma advance {T : Unit → List Sprout → Prop} (hnone : T () f) (hword : ∀ w, T () (.word w :: f)) :
    Bears a f Parser.advance T := by
  rintro s ha rfl
  change s.advance.composites = a ∧ T () s.advance.grown
  unfold State.advance
  split
  · exact ⟨ha, hnone⟩
  · exact ⟨ha, hword _⟩

lemma error {e : Problem} {T : Unit → List Sprout → Prop} (h : ∀ r, T () (.error e r :: f)) :
    Bears a f (Parser.error e) T := by
  rintro s ha rfl
  exact ⟨ha, h _⟩

/-! ### Nodes -/

lemma nodeBy {p : Parser Kind} {Q : Kind → List Sprout → Prop}
    (h : Bears a [] p fun k g => Q k (.node k g.reverse :: f)) : Bears a f (Parser.nodeBy p) Q := by
  rintro s ha rfl
  exact h s.inner ha rfl

lemma wrapBy {p : Parser Kind} {x : Sprout} {Q : Kind → List Sprout → Prop}
    (h : Bears a [x] p fun k g => Q k (.node k g.reverse :: f)) : Bears a (x :: f) (Parser.wrapBy p) Q := by
  intro s ha hf
  have htake : s.taken.grown = [x] := by
    change s.grown.take 1 = [x]
    rw [hf]
    rfl
  have hdrop : s.grown.drop 1 = f := by
    rw [hf]
    rfl
  have hbody := h s.taken ha htake
  rw [← hdrop] at hbody
  exact hbody

lemma nodeIf {c : Kind} {p : Parser Bool} {T : Unit → List Sprout → Prop}
    (h : Bears a [] p fun v g => T () (if v then .node c g.reverse :: f else g ++ f)) :
    Bears a f (Parser.nodeIf c p) T := by
  rintro s ha rfl
  have hbody := h s.inner ha rfl
  have hrun : (Parser.nodeIf c p).run s = ((), if (p.run s.inner).1 then s.close (p.run s.inner).2 c
      else s.splice (p.run s.inner).2) := rfl
  rw [hrun]
  cases hv : (p.run s.inner).1 with
  | true =>
    rw [hv] at hbody
    exact hbody
  | false =>
    rw [hv] at hbody
    exact hbody

/-- Inside it may be allowed or not, whatever is allowed around it. -/
lemma withComposites {v : Bool} (h : Bears v f p Q) : Bears a f (Parser.withComposites v p) Q := by
  rintro s ha rfl
  exact ⟨ha, (h { s with composites := v } rfl rfl).2⟩

/-! ### Repetition -/

/-- A loop keeps what every round of it keeps. -/
lemma loop {body : σ → Parser (ForInStep σ)} {I : σ → List Sprout → Prop} {x : σ} (hI : I x f)
    (h : ∀ x f, I x f → Bears a f (body x) fun r => I r.run) :
    Bears a f (Parser.loop x body) I := by
  have hrounds : ∀ n x f, I x f → Bears a f (Parser.rounds body n x) I := by
    intro n
    induction n with
    | zero => exact fun x f hI => bind (fail (T := fun _ => I x) hI) fun _ _ hI => pure hI
    | succ n ih =>
      refine fun x f hI => (h x f hI).bind fun r f' hr => ?_
      cases r with
      | done y => exact pure hr
      | yield y => exact ih y f' hr
  exact look fun n => hrounds (n + 1) x f hI

end Bears

end GoFront.Parser
