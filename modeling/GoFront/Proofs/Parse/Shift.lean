import GoFront.Proofs.Tree.Shift

/-!
# Parsers further on in a document

`Parser.Shifts n p q` says that `q` does on an input moved on by the distance `n` what `p` does on the input itself: it
gives the same answer, and leaves the state of `p` moved on. A parser gets at the offsets of its input only through the
start of the next word and the end of the last one, and these it keeps for the errors it reports. So two programs are
compared that differ only in such offsets, and where none is kept, a program is compared with itself (`Parser.Floats`).
-/

namespace GoFront.Parser

variable {α β σ : Type}

/-! ## States -/

namespace State

/-- A state moved on by a distance. -/
def shift (n : Nat) (s : State) : State :=
  { s with
    span := s.span.shift n
    previous := s.previous.map (Word.shift n)
    rest := s.rest.map (Word.shift n)
    left_eq := by rw [s.left_eq, List.length_map]
    grown := s.grown.map (Sprout.shift n) }

variable (n : Nat) (s : State)

lemma nth_shift (i : Nat) : (s.shift n).nth i = s.nth i := by
  rw [nth, nth, shift, List.getElem?_map, Option.map_map]
  rfl

lemma nthLineStart_shift (i : Nat) : (s.shift n).nthLineStart i = s.nthLineStart i := by
  rw [nthLineStart, nthLineStart, shift, List.getElem?_map, Option.any_map]
  rfl

lemma previousStop_shift : (s.shift n).previousStop = s.previousStop + n := by
  unfold previousStop shift
  cases s.previous with
  | none => rfl
  | some w => exact w.token.stop_shift n

lemma currentSpan_shift : (s.shift n).currentSpan = s.currentSpan.shift n := by
  obtain ⟨span, previous, rest, left, hleft, composites, looks, panic, grown⟩ := s
  cases rest with
  | nil =>
    -- Behind the last word, the stretch is empty and stands where the input ends.
    exact congrArg Span.emptyAt (Nat.add_right_comm span.start n span.length)
  | cons w ws => rfl

lemma errorSpan_shift : (s.shift n).errorSpan = s.errorSpan.shift n := by
  have hempty : (s.shift n).rest.isEmpty = s.rest.isEmpty := List.isEmpty_map
  have hprevious : (s.shift n).previous.isSome = s.previous.isSome := Option.isSome_map
  rw [errorSpan, errorSpan, hempty, hprevious, nthLineStart_shift, previousStop_shift, currentSpan_shift]
  split <;> rfl

lemma advance_shift : (s.shift n).advance = s.advance.shift n := by
  obtain ⟨span, previous, rest, left, hleft, composites, looks, panic, grown⟩ := s
  cases rest with
  | nil => rfl
  | cons w ws => rfl

lemma close_shift (t : State) (k : Kind) : (s.shift n).close (t.shift n) k = (s.close t k).shift n := by
  simp only [close, shift, List.map_cons, Sprout.shift, Sprout.shiftIn_eq_map, List.map_reverse]

lemma taken_shift : (s.shift n).taken = s.taken.shift n := by
  simp only [taken, shift, List.map_take]

lemma closeOver_shift (t : State) (k : Kind) : (s.shift n).closeOver (t.shift n) k = (s.closeOver t k).shift n := by
  simp only [closeOver, shift, List.map_cons, List.map_drop, Sprout.shift, Sprout.shiftIn_eq_map, List.map_reverse]

end State

/-! ## Parsers -/

/-- On an input that is moved on by a distance, `q` does what `p` does on the input. -/
def Shifts (n : Nat) (p q : Parser α) : Prop := ∀ s : State, q.run (s.shift n) = ((p.run s).1, (p.run s).2.shift n)

/-- A parser that keeps no offset does on an input that is moved on by a distance what it does on the input. -/
abbrev Floats (n : Nat) (p : Parser α) : Prop := Shifts n p p

namespace Shifts

variable {n start : Nat} {p p' : Parser α} {k k' : α → Parser β} {q q' question question' : Parser Bool}
  {body body' : Parser Unit}

/-! ### Sequences -/

lemma pure (a : α) : Floats n (Pure.pure a) := fun _ => rfl

lemma bind (hp : Shifts n p p') (hk : ∀ a, Shifts n (k a) (k' a)) : Shifts n (p >>= k) (p' >>= k') := by
  intro s
  rw [run_bind, run_bind, hp s]
  exact hk _ _

lemma map (hp : Shifts n p p') (f : α → β) : Shifts n (f <$> p) (f <$> p') := bind hp fun _ => pure _

lemma discard (hp : Shifts n p p') : Shifts n (Functor.discard p) (Functor.discard p') := hp.map _

lemma fail (e : Panic) : Floats n (Parser.fail e) := fun _ => rfl

/-! ### Looking -/

lemma look {f : State → α} (hf : ∀ s : State, f (s.shift n) = f s) : Floats n (Parser.look f) :=
  fun s => congrArg (·, s.shift n) (hf s)

lemma nth (i : Nat) : Floats n (Parser.nth i) := fun s => congrArg (·, s.looked.shift n) (s.nth_shift n i)

lemma peek : Floats n Parser.peek := nth 0

lemma nthIs (i : Nat) (j : Kind) : Floats n (Parser.nthIs i j) := (nth i).map (· == j)

lemma isAt (j : Kind) : Floats n (Parser.isAt j) := nthIs 0 j

lemma isAtAny (ks : KindSet) : Floats n (Parser.isAtAny ks) := peek.map ks.contains

lemma and (hq : Shifts n q q') (hquestion : Shifts n question question') :
    Shifts n (q <&&> question) (q' <&&> question') := by
  refine hq.bind fun v => ?_
  cases v with
  | true => exact hquestion
  | false => exact pure false

lemma or (hq : Shifts n q q') (hquestion : Shifts n question question') :
    Shifts n (q <||> question) (q' <||> question') := by
  refine hq.bind fun v => ?_
  cases v with
  | true => exact pure true
  | false => exact hquestion

/-- Words stand next to one another wherever they stand. -/
lemma isAdjacent (j : Kind) : Floats n (Parser.isAdjacent j) := by
  refine (isAt j).and (look fun s => ?_)
  rw [s.currentSpan_shift, s.previousStop_shift]
  simp [Span.shift]

/-- The start of the next word is further on. -/
lemma currentStart {k k' : Nat → Parser β} (h : ∀ start, Shifts n (k start) (k' (start + n))) :
    Shifts n (Parser.currentStart >>= k) (Parser.currentStart >>= k') := by
  intro s
  have hstart : (s.shift n).currentSpan.start = s.currentSpan.start + n := by
    rw [s.currentSpan_shift]
    rfl
  refine Eq.trans ?_ (h s.currentSpan.start s)
  rw [← hstart]
  rfl

/-- The stretch behind the last word is further on. -/
lemma spanSince {k k' : Span → Parser β} (h : ∀ r, Shifts n (k r) (k' (r.shift n))) :
    Shifts n (Parser.spanSince start >>= k) (Parser.spanSince (start + n) >>= k') := by
  intro s
  -- Which of its two ends comes first does not change.
  have hrun : (Parser.spanSince (start + n)).run (s.shift n) =
      (((Parser.spanSince start).run s).1.shift n, ((Parser.spanSince start).run s).2.shift n) := by
    simp only [Parser.spanSince, s.previousStop_shift, Span.shift_between, Nat.add_le_add_iff_right]
    split <;> rfl
  rw [run_bind, hrun]
  exact h _ _

/-! ### Choices -/

lemma choose {yes yes' no no' : Parser α} (hq : Shifts n q q') (hyes : Shifts n yes yes') (hno : Shifts n no no') :
    Shifts n (do if ← q then yes else no) (do if ← q' then yes' else no') := by
  refine hq.bind fun v => ?_
  cases v with
  | true => exact hyes
  | false => exact hno

lemma given (hq : Shifts n q q') (h : Shifts n body body') : Shifts n (Parser.given q body) (Parser.given q' body') :=
  hq.choose h (pure ())

lemma otherwise (hq : Shifts n q q') (h : Shifts n body body') :
    Shifts n (Parser.otherwise q body) (Parser.otherwise q' body') :=
  hq.choose (pure ()) h

/-! ### Taking words -/

lemma advance : Floats n Parser.advance := fun s => congrArg ((), ·) (s.advance_shift n)

lemma eat (j : Kind) : Floats n (Parser.eat j) :=
  (isAt j).choose (advance.bind fun _ => pure true) (pure false)

/-! ### Errors -/

lemma error (e : Problem) : Floats n (Parser.error e) := by
  intro s
  change ((), (s.looked.shift n).withError e (s.shift n).errorSpan) = _
  rw [s.errorSpan_shift]
  rfl

lemma errorAt (r : Span) (e : Problem) : Shifts n (Parser.errorAt r e) (Parser.errorAt (r.shift n) e) := fun _ => rfl

lemma errorSince (start : Nat) (e : Problem) : Shifts n (Parser.errorSince start e) (Parser.errorSince (start + n) e) :=
  spanSince fun r => errorAt r e

lemma expected (what : String) : Floats n (Parser.expected what) := peek.bind fun _ => error _

lemma expect (j : Kind) : Floats n (Parser.expect j) := (eat j).choose (pure ()) (expected _)

/-! ### Nodes -/

lemma nodeBy {p p' : Parser Kind} (h : Shifts n p p') : Shifts n (Parser.nodeBy p) (Parser.nodeBy p') := by
  intro s
  change ((p'.run (s.inner.shift n)).1, (s.shift n).close (p'.run (s.inner.shift n)).2 (p'.run (s.inner.shift n)).1) = _
  rw [h s.inner, State.close_shift]
  rfl

lemma node (k : Kind) (h : Shifts n body body') : Shifts n (Parser.node k body) (Parser.node k body') :=
  (nodeBy (h.bind fun _ => pure k)).discard

lemma wrapBy {p p' : Parser Kind} (h : Shifts n p p') : Shifts n (Parser.wrapBy p) (Parser.wrapBy p') := by
  intro s
  change ((p'.run (s.shift n).taken).1,
    (s.shift n).closeOver (p'.run (s.shift n).taken).2 (p'.run (s.shift n).taken).1) = _
  rw [s.taken_shift, h s.taken, State.closeOver_shift]
  rfl

lemma wrap (k : Kind) (h : Shifts n body body') : Shifts n (Parser.wrap k body) (Parser.wrap k body') :=
  (wrapBy (h.bind fun _ => pure k)).discard

/-! ### Repetition -/

lemma rounds {step step' : σ → Parser (ForInStep σ)} (h : ∀ x, Shifts n (step x) (step' x)) (i : Nat) :
    ∀ x, Shifts n (Parser.rounds step i x) (Parser.rounds step' i x) := by
  induction i with
  | zero => exact fun x => (fail .stuck).bind fun _ => pure x
  | succ i ih =>
    intro x
    refine (h x).bind fun r => ?_
    cases r with
    | done y => exact pure y
    | yield y => exact ih y

lemma loop {step step' : σ → Parser (ForInStep σ)} (h : ∀ x, Shifts n (step x) (step' x)) (x : σ) :
    Shifts n (Parser.loop x step) (Parser.loop x step') :=
  bind (look fun _ => rfl) fun i => rounds h (i + 1) x

lemma repeatWhile (h : Shifts n q q') : Shifts n (Parser.repeatWhile q) (Parser.repeatWhile q') :=
  loop (fun _ => h.choose (pure _) (pure _)) ()

/-! ### Recovery -/

lemma expectedAndAdvance (what : String) : Floats n (Parser.expectedAndAdvance what) :=
  peek.bind fun _ => node _ ((error _).bind fun _ => advance)

lemma expectedOr (what : String) (recovery : KindSet) :
    Floats n (Parser.expectedOr what recovery) :=
  ((isAtAny recovery).or (isAt .endOfInput)).choose (expected what) (expectedAndAdvance what)

end Shifts

/-! ## Trees -/

/-- The tree of a text further on is the tree of the text, further on. -/
lemma tree_shift {n : Nat} {body : Parser Unit} (h : Floats n body) (k : Kind) (isTrivia : Kind → Bool)
    (text : Text) (offset : Nat) (ts : List Token) :
    body.tree k isTrivia text (offset + n) (ts.map (Token.shift n)) =
      (body.tree k isTrivia text offset ts).shift n := by
  have hstart : State.start isTrivia text (offset + n) (ts.map (Token.shift n)) =
      (State.start isTrivia text offset ts).shift n := by
    simp only [State.start, State.shift, Words.ofTokens_shift, Words.shift, List.length_map]
    rfl
  rw [Parser.tree, Parser.tree, ← Sprout.tree_shift, hstart, h, Words.ofTokens_shift, Sprout.shiftIn_eq_map,
    List.map_reverse]
  rfl

end GoFront.Parser
