import GoFront.Proofs.Parse.Fault
import GoFront.Proofs.Parse.Reading

/-!
# What parsers find on words of known kinds

On words of which only the kinds are known, `Parser.Finds` says what the answer of a parser is like, which words it leaves
and which problems it finds, provided no assertion fails. The rules of this file follow the operations that grammars are
written with; a rule for a choice is given the answer, so that the parts of a grammar that are not entered need not be
looked at. A loop finds what its rounds find, one after the other (`Parser.LoopFinds`).

If no token stands for a lexical error, the problems that a parser finds are those of the tree
(`problems_tree_of_fits`).
-/

namespace GoFront

namespace Parser

variable {α β σ : Type}

/-- The problems found so far, in order. -/
def State.problems (s : State) : List Problem := s.grownErrors.map Prod.fst

/-- On words of the kinds `ks` a parser whose assertions hold gives an answer of which `V` holds, leaves words of the kinds
`ks'`, and finds the problems `es`. -/
def Finds (ks : List Kind) (p : Parser α) (V : α → Prop) (ks' : List Kind) (es : List Problem) : Prop :=
  ∀ s : State, s.kinds = ks → (p.run s).2.panic = none →
    V (p.run s).1 ∧ (p.run s).2.kinds = ks' ∧ (p.run s).2.problems = s.problems ++ es

/-- An answer of which nothing need be known. -/
abbrev Any : α → Prop := fun _ => True

namespace Finds

variable {ks ks' ks₁ : List Kind} {es : List Problem} {p : Parser α} {k : α → Parser β} {V : α → Prop} {W : β → Prop}
  {c : Kind}

/-! ### Sequences -/

lemma pure {a : α} (h : V a) : Finds ks (Pure.pure a) V ks [] := by
  rintro s rfl -
  exact ⟨h, rfl, (List.append_nil _).symm⟩

lemma bind {es' : List Problem} (hp : Finds ks p V ks₁ es) (hk : ∀ v, V v → Finds ks₁ (k v) W ks' es') :
    Finds ks (p >>= k) W ks' (es ++ es') := by
  intro s hs hcalm
  rw [run_bind] at hcalm ⊢
  obtain ⟨hv, hks, hes⟩ := hp s hs (((k (p.run s).1).forward (p.run s).2).calm hcalm)
  obtain ⟨hw, hks', hes'⟩ := hk _ hv _ hks hcalm
  exact ⟨hw, hks', by rw [hes', hes, List.append_assoc]⟩

/-- What follows a parser that finds nothing. -/
lemma next (hp : Finds ks p V ks₁ []) (hk : ∀ v, V v → Finds ks₁ (k v) W ks' es) : Finds ks (p >>= k) W ks' es :=
  hp.bind hk

/-- What comes before a parser that finds nothing. -/
lemma before (hp : Finds ks p V ks₁ es) (hk : ∀ v, V v → Finds ks₁ (k v) W ks' []) : Finds ks (p >>= k) W ks' es := by
  have h := hp.bind hk
  rwa [List.append_nil] at h

lemma map {g : α → β} (hp : Finds ks p V ks' es) (hg : ∀ v, V v → W (g v)) : Finds ks (g <$> p) W ks' es :=
  fun s hs hcalm => (hp s hs hcalm).imp_left (hg _)

lemma discard (hp : Finds ks p V ks' es) : Finds ks (Functor.discard p) Any ks' es := hp.map fun _ _ => trivial

/-! ### Looking -/

lemma nth {i : Nat} {k : Kind → Parser β} (h : Finds ks (k (ahead ks i)) W ks' es) :
    Finds ks (Parser.nth i >>= k) W ks' es := by
  rintro s rfl hcalm
  have hrun : (Parser.nth i >>= k).run s = (k (ahead s.kinds i)).run s.looked := by
    rw [← kindAt_eq]
    rfl
  rw [hrun] at hcalm ⊢
  exact h s.looked rfl hcalm

lemma peek {k : Kind → Parser β} (h : Finds ks (k (ahead ks 0)) W ks' es) : Finds ks (Parser.peek >>= k) W ks' es := nth h

lemma look {g : State → α} : Finds ks (Parser.look g) Any ks [] := by
  rintro s rfl -
  exact ⟨trivial, rfl, (List.append_nil _).symm⟩

lemma nthIs {i : Nat} {v : Bool} (h : (ahead ks i == c) = v) : Finds ks (Parser.nthIs i c) (· = v) ks [] :=
  nth (pure h)

lemma isAt {v : Bool} (h : (ahead ks 0 == c) = v) : Finds ks (Parser.isAt c) (· = v) ks [] := nthIs h

lemma isAtAny {set : KindSet} {v : Bool} (h : set.contains (ahead ks 0) = v) :
    Finds ks (Parser.isAtAny set) (· = v) ks [] := peek (pure h)

/-! ### Choices -/

section

variable {q r : Parser Bool} {y y' : Parser β} {body : Parser Unit}

lemma ifPos {φ : Prop} [Decidable φ] (hφ : φ) (h : Finds ks y W ks' es) : Finds ks (if φ then y else y') W ks' es := by
  rwa [if_pos hφ]

lemma ifNeg {φ : Prop} [Decidable φ] (hφ : ¬ φ) (h : Finds ks y' W ks' es) : Finds ks (if φ then y else y') W ks' es := by
  rwa [if_neg hφ]

lemma yes (hq : Finds ks q (· = true) ks₁ []) (h : Finds ks₁ y W ks' es) :
    Finds ks (q >>= fun v => if v = true then y else y') W ks' es :=
  hq.next fun _ hv => ifPos hv h

lemma no (hq : Finds ks q (· = false) ks₁ []) (h : Finds ks₁ y' W ks' es) :
    Finds ks (q >>= fun v => if v = true then y else y') W ks' es :=
  hq.next fun _ hv => ifNeg (hv ▸ Bool.false_ne_true) h

lemma chosen (hq : Finds ks q (· = true) ks []) (h : Finds ks y W ks' es) : Finds ks (choose q y y') W ks' es :=
  hq.yes h

lemma given (hq : Finds ks q (· = true) ks []) (h : Finds ks body Any ks' es) :
    Finds ks (Parser.given q body) Any ks' es :=
  hq.yes h

lemma notGiven (hq : Finds ks q (· = false) ks []) : Finds ks (Parser.given q body) Any ks [] := hq.no (pure trivial)

lemma and_no (hq : Finds ks q (· = false) ks []) : Finds ks (q <&&> r) (· = false) ks []  :=
  hq.next fun v hv => by
    rw [hv]
    exact pure rfl

lemma and_yes {v : Bool} (hq : Finds ks q (· = true) ks []) (hr : Finds ks r (· = v) ks []) :
    Finds ks (q <&&> r) (· = v) ks [] :=
  hq.next fun u hu => by
    rw [hu]
    exact hr

lemma or_yes (hq : Finds ks q (· = true) ks []) : Finds ks (q <||> r) (· = true) ks [] :=
  hq.next fun u hu => by
    rw [hu]
    exact pure rfl

lemma or_no {v : Bool} (hq : Finds ks q (· = false) ks []) (hr : Finds ks r (· = v) ks []) :
    Finds ks (q <||> r) (· = v) ks [] :=
  hq.next fun u hu => by
    rw [hu]
    exact hr

lemma isAdjacent (h : (ahead ks 0 == c) = false) : Finds ks (Parser.isAdjacent c) (· = false) ks [] := and_no (isAt h)

end

/-! ### Taking words -/

lemma advance : Finds (c :: ks) Parser.advance Any ks [] := by
  intro s hs _
  obtain ⟨w, ws, hrest, -, hws⟩ := List.map_eq_cons_iff.1 hs
  obtain ⟨htail, -, -, hgrown, -⟩ := State.advance_of_cons hrest
  refine ⟨trivial, ?_, ?_⟩
  · change s.advance.rest.map Word.kind = ks
    rw [htail, hws]
  · change s.advance.problems = _
    simp [State.problems, State.grownErrors, hgrown, Sprout.errorsIn, Sprout.errors]

lemma eat (c : Kind) : Finds (c :: ks) (Parser.eat c) (· = true) ks [] :=
  (isAt (beq_self_eq_true c)).yes (advance.next fun _ _ => pure rfl)

lemma notEat (h : (ahead ks 0 == c) = false) : Finds ks (Parser.eat c) (· = false) ks [] := (isAt h).no (pure rfl)

lemma expect (c : Kind) : Finds (c :: ks) (Parser.expect c) Any ks [] :=
  (eat c).next fun v hv => by
    rw [hv]
    exact pure trivial

/-! ### Problems and nodes -/

lemma error {e : Problem} : Finds ks (Parser.error e) Any ks [e] := by
  rintro s rfl -
  refine ⟨trivial, rfl, ?_⟩
  change (s.looked.withError e s.errorSpan).problems = _
  simp [State.problems, State.withError, State.looked, State.grownErrors, Sprout.errorsIn, Sprout.errors]

lemma nodeBy {p : Parser Kind} {V : Kind → Prop} (h : Finds ks p V ks' es) : Finds ks (Parser.nodeBy p) V ks' es := by
  intro s hs hcalm
  obtain ⟨hv, hks, hes⟩ := h s.inner hs hcalm
  refine ⟨hv, hks, ?_⟩
  change (s.close (p.run s.inner).2 _).problems = _
  have hinner : (p.run s.inner).2.problems = es := hes
  rw [← hinner]
  simp [State.problems, State.close, State.grownErrors, Sprout.errorsIn, Sprout.errors]

lemma node {p : Parser Unit} (h : Finds ks p Any ks' es) : Finds ks (Parser.node c p) Any ks' es :=
  (nodeBy (h.before (W := Any) fun _ _ => pure trivial)).discard

lemma withComposites {v : Bool} (h : Finds ks p V ks' es) : Finds ks (Parser.withComposites v p) V ks' es := by
  intro s hs hcalm
  exact h { s with composites := v } hs hcalm

end Finds

/-! ## LoopFinds -/

/-- The rounds of a loop, however many there may be, end with an answer of which `V` holds, leave words of the kinds `ks'`
and find the problems `es`. -/
def LoopFinds (ks : List Kind) (body : σ → Parser (ForInStep σ)) (x : σ) (V : σ → Prop) (ks' : List Kind)
    (es : List Problem) : Prop := ∀ n, Finds ks (rounds body n x) V ks' es

namespace LoopFinds

variable {ks ks' ks₁ : List Kind} {es : List Problem} {body : σ → Parser (ForInStep σ)} {x y : σ} {V : σ → Prop}

lemma of_succ (h : ∀ n, Finds ks (rounds body (n + 1) x) V ks' es) : LoopFinds ks body x V ks' es := by
  intro n
  cases n with
  | zero =>
    intro s _ hcalm
    exact absurd (Option.or_eq_none_iff.1 hcalm).2 (Option.some_ne_none _)
  | succ n => exact h n

/-- The last round. -/
lemma done (h : Finds ks (body x) (· = .done y) ks' es) (hy : V y) : LoopFinds ks body x V ks' es :=
  of_succ fun _ => h.before fun v hv => by
    rw [hv]
    exact .pure hy

/-- A round that finds nothing, and those behind it. -/
lemma yield (h : Finds ks (body x) (· = .yield y) ks₁ []) (hrest : LoopFinds ks₁ body y V ks' es) :
    LoopFinds ks body x V ks' es :=
  of_succ fun n => h.next fun v hv => by
    rw [hv]
    exact hrest n

/-- A round, and those behind it if they find nothing. -/
lemma round (h : Finds ks (body x) (· = .yield y) ks₁ es) (hrest : LoopFinds ks₁ body y V ks' []) :
    LoopFinds ks body x V ks' es :=
  of_succ fun n => h.before fun v hv => by
    rw [hv]
    exact hrest n

lemma loop (h : LoopFinds ks body x V ks' es) : Finds ks (Parser.loop x body) V ks' es :=
  Finds.look.next fun n _ => h (n + 1)

end LoopFinds

/-- A round of a parser that is repeated as long as it answers true. -/
def again (body : Parser Bool) (_ : Unit) : Parser (ForInStep Unit) := do
  if ← body then pure (.yield ()) else pure (.done ())

namespace LoopFinds

variable {ks ks' ks₁ : List Kind} {es : List Problem} {body : Parser Bool}

/-- The last round of a parser that is repeated. -/
lemma last (h : Finds ks body (· = false) ks' es) : LoopFinds ks (again body) () Any ks' es :=
  done (h.before fun v hv => by
    rw [hv, if_neg Bool.false_ne_true]
    exact .pure rfl) trivial

/-- A round, and those behind it if they find nothing. -/
lemma most (h : Finds ks body (· = true) ks₁ es) (hrest : LoopFinds ks₁ (again body) () Any ks' []) :
    LoopFinds ks (again body) () Any ks' es :=
  round (h.before fun v hv => by
    rw [if_pos hv]
    exact .pure rfl) hrest

lemma repeatWhile (h : LoopFinds ks (again body) () Any ks' es) : Finds ks (Parser.repeatWhile body) Any ks' es := h.loop

end LoopFinds

namespace Finds

variable {ks ks' ks₁ : List Kind} {es : List Problem}

/-- A parser that takes words, and what follows it. -/
lemma orSkip {body follow : Parser Unit} {what : String} (h : Finds ks body Any ks₁ es)
    (hlength : ks₁.length < ks.length) (hfollow : Finds ks₁ follow Any ks' []) :
    Finds ks (Parser.orSkip body what follow) Any ks' es := by
  have hremaining : ∀ {js : List Kind}, Finds js Parser.remaining (· = js.length) js [] := by
    rintro js s rfl -
    exact ⟨by simp [Parser.remaining, Parser.look, State.kinds, s.left_eq], rfl, (List.append_nil _).symm⟩
  refine hremaining.next fun n hn => h.before fun _ _ => hremaining.next fun m hm => ?_
  rw [hn, hm, if_neg (Nat.ne_of_lt hlength)]
  exact hfollow

end Finds

/-! ## Brackets -/

section

variable {α : Type} {a b : α} {core : List α}

/-- What stands between `n` pairs of brackets, with the brackets, in front of something else. -/
def bracketed (a b : α) (core : List α) : Nat → List α → List α
  | 0, rest => core ++ rest
  | n + 1, rest => a :: bracketed a b core n (b :: rest)

lemma bracketed_eq (n : Nat) (rest : List α) :
    bracketed a b core n rest = List.replicate n a ++ (core ++ (List.replicate n b ++ rest)) := by
  induction n generalizing rest with
  | zero => rfl
  | succ n ih => rw [bracketed, ih, List.replicate_succ, List.cons_append, List.replicate_succ', List.append_assoc]; rfl

lemma length_le_bracketed (n : Nat) (rest : List α) : core.length + rest.length ≤ (bracketed a b core n rest).length := by
  simp only [bracketed_eq, List.length_append]
  omega

lemma forall_mem_bracketed {P : α → Prop} {n : Nat} {rest : List α} (ha : P a) (hb : P b) (hcore : ∀ x ∈ core, P x)
    (hrest : ∀ x ∈ rest, P x) : ∀ x ∈ bracketed a b core n rest, P x := by
  induction n generalizing rest with
  | zero => exact List.forall_mem_append.2 ⟨hcore, hrest⟩
  | succ n ih => exact List.forall_mem_cons.2 ⟨ha, ih (List.forall_mem_cons.2 ⟨hb, hrest⟩)⟩

end

/-- A loop that counts the brackets that are open gets over those that are closed. -/
lemma LoopFinds.bracketed {body : Nat → Parser (ForInStep Nat)} {V : Nat → Prop} {a b : Kind} {core ks ks' : List Kind}
    {es : List Problem} {depth : Nat} (ha : ∀ depth ks, Finds (a :: ks) (body depth) (· = .yield (depth + 1)) ks [])
    (hb : ∀ depth ks, Finds (b :: ks) (body (depth + 1)) (· = .yield depth) ks [])
    (hcore : ∀ {depth ks}, LoopFinds ks body depth V ks' es → LoopFinds (core ++ ks) body depth V ks' es)
    (h : LoopFinds ks body depth V ks' es) (n : Nat) :
    LoopFinds (Parser.bracketed a b core n ks) body depth V ks' es := by
  induction n generalizing depth ks with
  | zero => exact hcore h
  | succ n ih => exact .yield (ha depth _) (ih (.yield (hb depth _) h))

/-- The problems of something that goes down `n` levels where no more than `levels` may be entered. -/
def cutOff (n levels : Nat) : List Problem := if n ≤ levels then [] else [.nestingTooDeep]

lemma cutOff_succ (n levels : Nat) : cutOff (n + 1) (levels + 1) = cutOff n levels := by
  simp only [cutOff, Nat.add_le_add_iff_right]

/-! ## Trees -/

section

variable {k : Kind} {isTrivia : Kind → Bool} {body : Parser Unit} {text : Text} {offset : Nat} {ts : List Token}
  {b : Frame} {a c : Nat}

/-- Where no token stands for a lexical error, the problems of the tree are those that the parser finds. -/
lemma problems_tree_of_fits (hts : Token.Covers offset text ts) (hspan : b.span = ⟨offset, text.size⟩)
    (hfloor : b.floor = 0) (hfits : ∀ {ws}, Fits b ws body anyway a c) (ha : a ≤ lookLimit)
    (hc : b.base + c ≤ lookLimit) {ks ks' : List Kind} {es : List Problem}
    (hks : (ts.map Token.kind).filter (!isTrivia ·) = ks) (hquiet : ∀ t ∈ ts, t.kind.isLexicalError = false)
    (h : Finds ks body Any ks' es) : (body.tree k isTrivia text offset ts).errors.map SyntaxError.problem = es := by
  obtain ⟨-, hcovers⟩ := tree?_eq_ok_of_fits k isTrivia hts hspan hfloor hfits ha hc
  obtain ⟨hlexical, hother⟩ := errors_tree_of_fits k isTrivia hts hspan hfloor hfits ha hc
  have hsound : (body.run (.start isTrivia text offset ts)).2.Sound := sound_of_fits hts hspan hfloor hfits ha hc
  have hfound := (h (.start isTrivia text offset ts) ((Words.kinds_ofTokens ts).trans hks) hsound.calm).2.2
  generalize body.tree k isTrivia text offset ts = t at hcovers hlexical hother
  have hnone : t.errors.filter (·.problem.isLexical) = [] := by
    have hfaults := Element.faults_eq_flatMap [] t.root.element
    rw [List.map_nil] at hfaults
    rw [hlexical, hfaults, List.flatMap_eq_nil_iff]
    intro p hp
    have hleaf : p.1 ∈ t.root.leaves := by
      have hmem := List.mem_map_of_mem (f := Prod.fst) hp
      rwa [Element.map_fst_placed] at hmem
    rw [Token.faults, hquiet _ (hcovers.tokens ▸ List.mem_map_of_mem hleaf)]
    rfl
  have hall : t.errors.filter (!·.problem.isLexical) = t.errors := by
    refine List.filter_eq_self.2 fun e he => ?_
    have hno := List.filter_eq_nil_iff.1 hnone e he
    simpa using hno
  rw [hall] at hother
  have hmap : t.errors.map SyntaxError.problem = (t.errors.map SyntaxError.report).map Prod.fst := by
    rw [List.map_map]
    rfl
  rw [hmap, hother]
  exact hfound

end

end Parser

end GoFront
