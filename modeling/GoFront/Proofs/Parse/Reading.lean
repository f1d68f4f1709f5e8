import GoFront.Proofs.Parse.Effort
import Mathlib.Computability.Language
import Mathlib.Order.CompletePartialOrder
import Mathlib.Tactic.Common

/-!
# What parsers read without an error

A parser that finds no error has read words of certain kinds. `Parser.Reads` says which words one run
leaves; `Parser.Scans` says of a parser that it reads exactly the words of a language, on all inputs that
meet a condition and as long as what follows meets another.

Both directions are proved at once: a run without an error has read a word of the language, and where a
word of the language stands, the run is without an error and ends right behind it. The rules of this file
follow the operations that grammars are written with.
-/

namespace GoFront.Parser

open scoped Computability

variable {α β σ : Type}

/-! ## Kinds ahead -/

/-- The kinds of the words still to come. -/
def State.kinds (s : State) : List Kind := s.rest.map Word.kind

/-- The kind `n` places ahead. -/
def ahead (ks : List Kind) (n : Nat) : Kind := ks[n]?.getD .endOfInput

@[simp] lemma ahead_nil (n : Nat) : ahead [] n = .endOfInput := rfl

@[simp] lemma ahead_zero (k : Kind) (ks : List Kind) : ahead (k :: ks) 0 = k := rfl

@[simp] lemma ahead_succ (k : Kind) (ks : List Kind) (n : Nat) : ahead (k :: ks) (n + 1) = ahead ks n := rfl

lemma kindAt_eq (s : State) (n : Nat) : kindAt s.rest n = ahead s.kinds n := by
  simp [kindAt, ahead, State.kinds]

/-- Where a kind is ahead, there is a word. -/
lemma eq_cons_of_ahead {ks : List Kind} {k : Kind} (h : ahead ks 0 = k) (hk : k ≠ .endOfInput) :
    ∃ ks', ks = k :: ks' := by
  cases ks with
  | nil => exact absurd h.symm hk
  | cons j ks => exact ⟨ks, by rw [show j = k from h]⟩

lemma eq_cons_of_ahead_mem {ks js : List Kind} (h : ahead js 0 ∈ ks) (hks : .endOfInput ∉ ks) :
    ∃ k ∈ ks, ∃ js', js = k :: js' := by
  obtain ⟨js', hjs⟩ := eq_cons_of_ahead (rfl : ahead js 0 = _) fun hend => hks (hend ▸ h)
  exact ⟨_, h, js', hjs⟩

/-! ## Runs without an error -/

/-- From `s` a parser finds no error, answers `a` and leaves words of the kinds `ks`. -/
structure Reads (p : Parser α) (s : State) (a : α) (ks : List Kind) : Prop where
  clean : (p.run s).2.grownErrors = s.grownErrors
  answer : (p.run s).1 = a
  rest : (p.run s).2.kinds = ks

/-- A run without an error has no error in any part. -/
lemma clean_of_reaches {s t u : State} (h : Reaches s t) (k : Reaches t u)
    (hclean : u.grownErrors = s.grownErrors) :
    t.grownErrors = s.grownErrors ∧ u.grownErrors = t.grownErrors := by
  obtain ⟨e, he⟩ := h.errors
  obtain ⟨f, hf⟩ := k.errors
  have hlen := congrArg List.length (hf.symm.trans hclean)
  rw [he] at hlen
  simp only [List.length_append] at hlen
  have hnil : e = [] := List.length_eq_zero_iff.1 (by omega)
  have ht : t.grownErrors = s.grownErrors := by rw [he, hnil, List.append_nil]
  exact ⟨ht, hclean.trans ht.symm⟩

/-- What a parser reads is determined. -/
lemma Reads.unique {p : Parser α} {s : State} {a b : α} {ks js : List Kind} (h : Reads p s a ks)
    (h' : Reads p s b js) : a = b ∧ ks = js :=
  ⟨h.answer.symm.trans h'.answer, h.rest.symm.trans h'.rest⟩

lemma reads_pure {s : State} {a b : α} {ks : List Kind} :
    Reads (pure a) s b ks ↔ a = b ∧ s.kinds = ks :=
  ⟨fun h => ⟨h.answer, h.rest⟩, fun ⟨h, k⟩ => ⟨rfl, h, k⟩⟩

lemma reads_bind {p : Parser α} {k : α → Parser β} {s : State} {b : β} {ks : List Kind} :
    Reads (p >>= k) s b ks ↔ ∃ a ks', Reads p s a ks' ∧ Reads (k a) (p.run s).2 b ks := by
  constructor
  · intro h
    obtain ⟨hp, hk⟩ := clean_of_reaches (p.forward s) ((k (p.run s).1).forward (p.run s).2) h.clean
    exact ⟨(p.run s).1, (p.run s).2.kinds, ⟨hp, rfl, rfl⟩, hk, h.answer, h.rest⟩
  · rintro ⟨a, ks', hp, hk⟩
    have ha := hp.answer
    subst ha
    exact ⟨hk.clean.trans hp.clean, hk.answer, hk.rest⟩

lemma reads_map {p : Parser α} {f : α → β} {s : State} {b : β} {ks : List Kind} :
    Reads (f <$> p) s b ks ↔ ∃ a, f a = b ∧ Reads p s a ks := by
  constructor
  · exact fun h => ⟨(p.run s).1, h.answer, h.clean, rfl, h.rest⟩
  · rintro ⟨a, hf, h⟩
    have ha := h.answer
    subst ha
    exact ⟨h.clean, hf, h.rest⟩

lemma reads_discard {p : Parser α} {s : State} {ks : List Kind} :
    Reads (discard p) s () ks ↔ ∃ a, Reads p s a ks :=
  ⟨fun h => ⟨_, h.clean, rfl, h.rest⟩, fun ⟨_, h⟩ => ⟨h.clean, rfl, h.rest⟩⟩

/-- One run behind another. -/
lemma Reads.andThen {p : Parser α} {k : α → Parser β} {s : State} {a : α} {b : β} {ks ks' : List Kind}
    (hp : Reads p s a ks') (hk : ∀ t : State, t.kinds = ks' → Reads (k a) t b ks) : Reads (p >>= k) s b ks :=
  reads_bind.2 ⟨a, ks', hp, hk _ hp.rest⟩

lemma reads_andPure {p : Parser Unit} {a b : β} {s : State} {ks : List Kind} :
    Reads (p >>= fun _ => pure a) s b ks ↔ a = b ∧ Reads p s () ks := by
  constructor
  · exact fun h => ⟨h.answer, h.clean, rfl, h.rest⟩
  · rintro ⟨rfl, h⟩
    exact ⟨h.clean, rfl, h.rest⟩

/-- A question reads nothing. -/
lemma Asks.reads {q : Parser Bool} {s : State} {Y N : Prop} {n : Nat} (hq : Asks s.rest q Y N n) :
    ∃ v, Reads q s v s.kinds ∧ (v = true → Y) ∧ (v = false → N) := by
  obtain ⟨i, -, hrun, hyes, hno⟩ := hq s rfl
  obtain ⟨pan, hglance, -⟩ := s.glance_eq i
  rw [hglance] at hrun
  exact ⟨(q.run s).1, ⟨by rw [hrun]; rfl, rfl, by rw [hrun]; rfl⟩, hyes, hno⟩

/-- What is done after a question depends on its answer only. -/
lemma reads_ask {q : Parser Bool} {k : Bool → Parser β} {s : State} {v : Bool} {b : β} {ks : List Kind}
    (hq : Reads q s v s.kinds) : Reads (q >>= k) s b ks ↔ Reads (k v) (q.run s).2 b ks := by
  rw [reads_bind]
  constructor
  · rintro ⟨a, ks', ha, hk⟩
    obtain ⟨rfl, -⟩ := hq.unique ha
    exact hk
  · exact fun hk => ⟨v, s.kinds, hq, hk⟩

/-- A look at a word ahead changes nothing that is read. -/
lemma reads_nth {i : Nat} {f : Kind → Parser β} {s : State} {b : β} {ks : List Kind} :
    Reads (nth i >>= f) s b ks ↔ Reads (f (ahead s.kinds i)) s.looked b ks := by
  have hrun : (nth i >>= f).run s = (f (ahead s.kinds i)).run s.looked := by
    rw [← kindAt_eq]
    rfl
  constructor
  · exact fun h => ⟨hrun ▸ h.clean, hrun ▸ h.answer, hrun ▸ h.rest⟩
  · exact fun h => ⟨hrun ▸ h.clean, hrun ▸ h.answer, hrun ▸ h.rest⟩

/-- A run that finds an error. -/
lemma not_reads_error {p : Problem} {s : State} {ks : List Kind} : ¬ Reads (error p) s () ks := by
  intro h
  have hgrown : ((error p).run s).2.grownErrors = s.grownErrors ++ [(p, s.errorSpan)] := by
    simp [error, State.withError, State.looked, State.grownErrors, Sprout.errorsIn, Sprout.errors]
  have hclean := h.clean
  rw [hgrown] at hclean
  simp at hclean

lemma not_reads_errorAt {p : Problem} {r : Span} {s : State} {ks : List Kind} :
    ¬ Reads (errorAt r p) s () ks := by
  intro h
  have hgrown : ((errorAt r p).run s).2.grownErrors = s.grownErrors ++ [(p, r)] := by
    simp [errorAt, State.withError, State.grownErrors, Sprout.errorsIn, Sprout.errors]
  have hclean := h.clean
  rw [hgrown] at hclean
  simp at hclean

/-- What is grown around a run does not matter to what it reads. -/
lemma reads_nodeBy {p : Parser Kind} {s : State} {a : Kind} {ks : List Kind} :
    Reads (nodeBy p) s a ks ↔ Reads p s.inner a ks := by
  have herrors : ((nodeBy p).run s).2.grownErrors = s.grownErrors ++ (p.run s.inner).2.grownErrors := by
    simp [nodeBy, State.close, State.grownErrors, Sprout.errorsIn, Sprout.errors]
  have hnil : s.inner.grownErrors = [] := rfl
  constructor
  · intro h
    refine ⟨?_, h.answer, h.rest⟩
    have hclean := h.clean
    rw [herrors] at hclean
    rw [hnil]
    simpa using hclean
  · intro h
    refine ⟨?_, h.answer, h.rest⟩
    rw [herrors, h.clean, hnil, List.append_nil]

lemma reads_node {k : Kind} {p : Parser Unit} {s : State} {ks : List Kind} :
    Reads (node k p) s () ks ↔ Reads p s.inner () ks := by
  have hnode : Reads (node k p) s () ks ↔ Reads (nodeBy do p; pure k) s k ks :=
    ⟨fun h => ⟨h.clean, rfl, h.rest⟩, fun h => ⟨h.clean, rfl, h.rest⟩⟩
  rw [hnode, reads_nodeBy]
  exact ⟨fun h => ⟨h.clean, rfl, h.rest⟩, fun h => ⟨h.clean, rfl, h.rest⟩⟩

/-- A node around the last sprout and what a parser without errors grows behind it. -/
lemma reads_wrap {k : Kind} {p : Parser Unit} {s : State} {ks : List Kind} :
    Reads (wrap k p) s () ks ↔ Reads p s.taken () ks := by
  have key : s.grown.reverse = (s.grown.drop 1).reverse ++ (s.grown.take 1).reverse := by
    rw [← List.reverse_append, List.take_append_drop]
  have hall : s.grownErrors = Sprout.errorsIn (s.grown.drop 1).reverse ++ s.taken.grownErrors := by
    rw [State.grownErrors, key, Sprout.errorsIn_append]
    rfl
  have herrors : ((wrap k p).run s).2.grownErrors =
      Sprout.errorsIn (s.grown.drop 1).reverse ++ (p.run s.taken).2.grownErrors := by
    change Sprout.errorsIn (_ :: s.grown.drop 1).reverse = _
    simp [State.grownErrors, Sprout.errorsIn, Sprout.errors]
  constructor
  · intro h
    refine ⟨?_, rfl, h.rest⟩
    have hclean := h.clean
    rw [herrors, hall] at hclean
    exact List.append_cancel_left hclean
  · intro h
    refine ⟨?_, rfl, h.rest⟩
    rw [herrors, hall, h.clean]

/-! ## Loops -/

/-- From `s` the rounds of a loop find no error and end with `y`, leaving words of the kinds `ks`. -/
inductive Iterates (body : σ → Parser (ForInStep σ)) : σ → State → σ → List Kind → Prop
  /-- The last round. -/
  | done {x y : σ} {s : State} {ks : List Kind} (h : Reads (body x) s (.done y) ks) : Iterates body x s y ks
  /-- A round and those behind it. -/
  | yield {x y z : σ} {s : State} {ks ks' : List Kind} (h : Reads (body x) s (.yield y) ks')
    (next : Iterates body y ((body x).run s).2 z ks) : Iterates body x s z ks

/-- A loop reads what its rounds read, if each of them but the last takes a word. `P` holds between
rounds. -/
lemma reads_loop {P : List Kind → Prop} {body : σ → Parser (ForInStep σ)}
    (progress : ∀ x y s ks, P s.kinds → Reads (body x) s (.yield y) ks → ks.length < s.kinds.length ∧ P ks)
    {x y : σ} {s : State} {ks : List Kind} (hs : P s.kinds) :
    Reads (loop x body) s y ks ↔ Iterates body x s y ks := by
  have key : ∀ n (x : σ) (s : State), s.kinds.length < n → P s.kinds →
      (Reads (rounds body n x) s y ks ↔ Iterates body x s y ks) := by
    intro n
    induction n with
    | zero => exact fun _ _ h => absurd h (Nat.not_lt_zero _)
    | succ n ih =>
      intro x s hn hs
      rw [rounds, reads_bind]
      constructor
      · rintro ⟨r, ks', hr, hrest⟩
        cases r with
        | done z =>
          obtain ⟨rfl, hks⟩ := reads_pure.1 hrest
          exact .done ⟨hr.clean, hr.answer, hks⟩
        | yield z =>
          obtain ⟨hlt, hP⟩ := progress x z s ks' hs hr
          rw [← hr.rest] at hlt hP
          exact .yield hr ((ih z _ (by omega) hP).1 hrest)
      · intro h
        cases h with
        | done h => exact ⟨_, _, h, reads_pure.2 ⟨rfl, h.rest⟩⟩
        | @yield _ z _ _ _ ks' h next =>
          obtain ⟨hlt, hP⟩ := progress x z s ks' hs h
          rw [← h.rest] at hlt hP
          exact ⟨_, _, h, (ih z _ (by omega) hP).2 next⟩
  have hloop : Reads (loop x body) s y ks ↔ Reads (rounds body (s.left + 1) x) s y ks :=
    ⟨fun h => ⟨h.clean, h.answer, h.rest⟩, fun h => ⟨h.clean, h.answer, h.rest⟩⟩
  rw [hloop]
  refine key _ x s ?_ hs
  rw [s.left_eq, State.kinds, List.length_map]
  exact Nat.lt_succ_self _

/-- From `s` the rounds of a parser that is repeated find no error, leaving words of the kinds `ks`. -/
inductive Repeats (body : Parser Bool) : State → List Kind → Prop
  /-- The last round. -/
  | last {s : State} {ks : List Kind} (h : Reads body s false ks) : Repeats body s ks
  /-- A round and those behind it. -/
  | more {s : State} {ks ks' : List Kind} (h : Reads body s true ks')
    (next : Repeats body (body.run s).2 ks) : Repeats body s ks

/-- A parser that is repeated reads what its rounds read, if each of them but the last takes a word. -/
lemma reads_repeatWhile {P : List Kind → Prop} {body : Parser Bool}
    (progress : ∀ s ks, P s.kinds → Reads body s true ks → ks.length < s.kinds.length ∧ P ks)
    {s : State} {ks : List Kind} (hs : P s.kinds) : Reads (repeatWhile body) s () ks ↔ Repeats body s ks := by
  let round : Unit → Parser (ForInStep Unit) := fun _ =>
    body >>= fun v => if v = true then pure (.yield ()) else pure (.done ())
  have hyield : ∀ s ks, Reads (round ()) s (.yield ()) ks ↔ Reads body s true ks := by
    intro s ks
    rw [reads_bind]
    constructor
    · rintro ⟨v, ks', h, h'⟩
      cases v with
      | true => exact ⟨h.clean, h.answer, (reads_pure.1 h').2⟩
      | false => exact nomatch (reads_pure.1 h').1
    · exact fun h => ⟨true, ks, h, reads_pure.2 ⟨rfl, h.rest⟩⟩
  have hdone : ∀ s ks, Reads (round ()) s (.done ()) ks ↔ Reads body s false ks := by
    intro s ks
    rw [reads_bind]
    constructor
    · rintro ⟨v, ks', h, h'⟩
      cases v with
      | true => exact nomatch (reads_pure.1 h').1
      | false => exact ⟨h.clean, h.answer, (reads_pure.1 h').2⟩
    · exact fun h => ⟨false, ks, h, reads_pure.2 ⟨rfl, h.rest⟩⟩
  have hstate : ∀ s, (body.run s).1 = true → ((round ()).run s).2 = (body.run s).2 := by
    intro s h
    simp only [round, run_bind, h, if_true, run_pure]
  have hloop : Reads (loop () round) s () ks ↔ Iterates round () s () ks :=
    reads_loop (P := P) (fun _ _ s ks hP h => progress s ks hP ((hyield s ks).1 h)) hs
  have hto : ∀ {x s y ks}, Iterates round x s y ks → Repeats body s ks := by
    intro x s y ks h
    induction h with
    | done h => exact .last ((hdone _ _).1 h)
    | yield h _ ih =>
      have hbody := (hyield _ _).1 h
      rw [hstate _ hbody.answer] at ih
      exact .more hbody ih
  have hfrom : ∀ {s ks}, Repeats body s ks → Iterates round () s () ks := by
    intro s ks h
    induction h with
    | last h => exact .done ((hdone _ _).2 h)
    | more h _ ih =>
      rw [← hstate _ h.answer] at ih
      exact .yield ((hyield _ _).2 h) ih
  exact hloop.trans ⟨hto, hfrom⟩

/-! ## Languages -/

/-- One word more in front of a row of words. -/
lemma append_mem_kstar {L : Language Kind} {u v : List Kind} (hu : u ∈ L) (hv : v ∈ L∗) : u ++ v ∈ L∗ :=
  mul_kstar_le_kstar (a := L) (Language.mem_mul.2 ⟨u, hu, v, hv, rfl⟩)

/-- A row of words is empty or starts with one of them. -/
lemma mem_kstar_cases {L : Language Kind} {u : List Kind} (hu : u ∈ L∗) :
    u = [] ∨ ∃ v ∈ L, ∃ w ∈ L∗, u = v ++ w := by
  obtain ⟨us, rfl, hus⟩ := Language.mem_kstar.1 hu
  cases us with
  | nil => exact .inl rfl
  | cons v us =>
    have htail : us.flatten ∈ L∗ := Language.mem_kstar.2 ⟨us, rfl, fun y hy => hus y (List.mem_cons_of_mem v hy)⟩
    exact .inr ⟨v, hus v (List.mem_cons_self ..), us.flatten, htail, rfl⟩

/-- On inputs that meet `P`, a parser reads words of `L`. It reads all of them that are followed by kinds
that meet `F`. -/
structure Scans (P : List Kind → Prop) (p : Parser Unit) (L : Language Kind) (F : List Kind → Prop) :
    Prop where
  sound : ∀ s : State, P s.kinds → ∀ ks, Reads p s () ks → ∃ u ∈ L, s.kinds = u ++ ks
  complete : ∀ s : State, P s.kinds → ∀ u ∈ L, ∀ ks, s.kinds = u ++ ks → F ks → Reads p s () ks

namespace Scans

variable {P Q F G : List Kind → Prop} {p q : Parser Unit} {L M : Language Kind}

/-- The same parser on fewer inputs, with another description of what it reads there. -/
lemma congr (h : Scans P p L F) (hP : ∀ ks, Q ks → P ks) (hL : ∀ u ∈ L, ∀ ks, Q (u ++ ks) → u ∈ M)
    (hM : ∀ u ∈ M, ∀ ks, Q (u ++ ks) → G ks → u ∈ L ∧ F ks) : Scans Q p M G where
  sound s hs ks hr := by
    obtain ⟨u, hu, hks⟩ := h.sound s (hP _ hs) ks hr
    exact ⟨u, hL u hu ks (hks ▸ hs), hks⟩
  complete s hs u hu ks hks hG := by
    obtain ⟨hu', hF⟩ := hM u hu ks (hks ▸ hs) hG
    exact h.complete s (hP _ hs) u hu' ks hks hF

lemma restrict (h : Scans P p L F) (hP : ∀ ks, Q ks → P ks) : Scans Q p L F :=
  h.congr hP (fun _ hu _ _ => hu) fun _ hu _ _ hF => ⟨hu, hF⟩

/-- One parser behind the other. -/
lemma seq (hp : Scans P p L F) (hq : Scans Q q M G) (hQ : ∀ u ∈ L, ∀ ks, P (u ++ ks) → Q ks)
    (hF : ∀ w ∈ M, ∀ ks, G ks → F (w ++ ks)) : Scans P (p >>= fun _ => q) (L * M) G where
  sound s hs ks hr := by
    obtain ⟨_, ks', hpr, hqr⟩ := reads_bind.1 hr
    obtain ⟨u, hu, hks⟩ := hp.sound s hs ks' hpr
    have hQ' : Q (p.run s).2.kinds := by
      rw [hpr.rest]
      exact hQ u hu ks' (hks ▸ hs)
    obtain ⟨w, hw, hks'⟩ := hq.sound _ hQ' ks hqr
    rw [hpr.rest] at hks'
    exact ⟨u ++ w, Language.mem_mul.2 ⟨u, hu, w, hw, rfl⟩, by rw [hks, hks', List.append_assoc]⟩
  complete s hs x hx ks hks hG := by
    obtain ⟨u, hu, w, hw, rfl⟩ := Language.mem_mul.1 hx
    rw [List.append_assoc] at hks
    have hpr := hp.complete s hs u hu (w ++ ks) hks (hF w hw ks hG)
    have hQ' : Q (p.run s).2.kinds := by
      rw [hpr.rest]
      exact hQ u hu _ (hks ▸ hs)
    exact reads_bind.2 ⟨(), w ++ ks, hpr, hq.complete _ hQ' w hw ks hpr.rest hG⟩

/-- What comes before an error does not matter. -/
lemma seqZero (hp : Scans P p L F) (hq : Scans (fun _ => True) q 0 G) : Scans P (p >>= fun _ => q) 0 G := by
  have h := hp.seq hq (fun _ _ _ _ => trivial) fun u hu => (Language.notMem_zero u hu).elim
  rwa [mul_zero] at h

lemma pure : Scans P (Pure.pure ()) 1 F where
  sound s _ ks hr := ⟨[], rfl, (reads_pure.1 hr).2⟩
  complete s _ u hu ks hks _ := by
    obtain rfl : u = [] := hu
    exact reads_pure.2 ⟨rfl, hks⟩

/-- A parser that always finds an error reads no word. -/
lemma zero (h : ∀ s, P s.kinds → ∀ ks, ¬ Reads p s () ks) : Scans P p 0 F where
  sound s hs ks hr := (h s hs ks hr).elim
  complete _ _ u hu := (Language.notMem_zero u hu).elim

/-- What follows an error does not matter. -/
lemma zeroBind (h : Scans P p 0 F) {k : Unit → Parser Unit} : Scans P (p >>= k) 0 F := by
  refine .zero fun s hs ks hr => ?_
  obtain ⟨_, ks', hp, -⟩ := reads_bind.1 hr
  obtain ⟨u, hu, -⟩ := h.sound s hs ks' hp
  exact Language.notMem_zero u hu

/-- On no input at all. -/
lemma absurd (h : ∀ ks, ¬ P ks) : Scans P p L F where
  sound _ hs := (h _ hs).elim
  complete _ hs := (h _ hs).elim

lemma node {k : Kind} (h : Scans P p L F) : Scans P (Parser.node k p) L F where
  sound s hs ks hr := h.sound s.inner hs ks (reads_node.1 hr)
  complete s hs u hu ks hks hF := reads_node.2 (h.complete s.inner hs u hu ks hks hF)

/-- A question tells more about the input. -/
lemma ask {r : Parser Bool} {k : Bool → Parser Unit} {Y N : List Kind → Prop} {n : Nat}
    (hr : ∀ s : State, P s.kinds → Asks s.rest r (Y s.kinds) (N s.kinds) n)
    (yes : Scans (fun ks => P ks ∧ Y ks) (k true) L F) (no : Scans (fun ks => P ks ∧ N ks) (k false) L F) :
    Scans P (r >>= k) L F where
  sound s hs ks h := by
    obtain ⟨v, hv, hY, hN⟩ := (hr s hs).reads
    rw [reads_ask hv] at h
    rw [← hv.rest] at hs hY hN ⊢
    cases v with
    | true => exact yes.sound _ ⟨hs, hY rfl⟩ ks h
    | false => exact no.sound _ ⟨hs, hN rfl⟩ ks h
  complete s hs u hu ks hks hF := by
    obtain ⟨v, hv, hY, hN⟩ := (hr s hs).reads
    rw [reads_ask hv]
    rw [← hv.rest] at hs hY hN hks
    cases v with
    | true => exact yes.complete _ ⟨hs, hY rfl⟩ u hu ks hks hF
    | false => exact no.complete _ ⟨hs, hN rfl⟩ u hu ks hks hF

/-- A question that tells the words of two languages apart. -/
lemma branch {r : Parser Bool} {k : Bool → Parser Unit} {Y N : List Kind → Prop} {n : Nat}
    (hr : ∀ s : State, P s.kinds → Asks s.rest r (Y s.kinds) (N s.kinds) n)
    (yes : Scans (fun ks => P ks ∧ Y ks) (k true) L F) (no : Scans (fun ks => P ks ∧ N ks) (k false) M F)
    (hL : ∀ u ∈ L, ∀ ks, F ks → ¬ N (u ++ ks)) (hM : ∀ u ∈ M, ∀ ks, F ks → ¬ Y (u ++ ks)) :
    Scans P (r >>= k) (L + M) F := by
  refine .ask hr (yes.congr (fun _ h => h) (fun _ hu _ _ => .inl hu) fun u hu ks hs hF => ?_)
    (no.congr (fun _ h => h) (fun _ hu _ _ => .inr hu) fun u hu ks hs hF => ?_)
  · rcases hu with hu | hu
    · exact ⟨hu, hF⟩
    · exact (hM u hu ks hF hs.2).elim
  · rcases hu with hu | hu
    · exact (hL u hu ks hF hs.2).elim
    · exact ⟨hu, hF⟩

/-- A look at a word ahead. -/
lemma nth {i : Nat} {f : Kind → Parser Unit}
    (h : ∀ k, Scans (fun ks => P ks ∧ ahead ks i = k) (f k) L F) : Scans P (Parser.nth i >>= f) L F where
  sound s hs ks hr := (h _).sound s.looked ⟨hs, rfl⟩ ks (reads_nth.1 hr)
  complete s hs u hu ks hks hF := reads_nth.2 ((h _).complete s.looked ⟨hs, rfl⟩ u hu ks hks hF)

/-- What depends on positions only changes nothing that is read. -/
lemma look {f : State → α} {k : α → Parser Unit} (h : ∀ v, Scans P (k v) L F) :
    Scans P (Parser.look f >>= k) L F where
  sound s hs ks hr := (h (f s)).sound s hs ks ⟨hr.clean, rfl, hr.rest⟩
  complete s hs u hu ks hks hF :=
    have hr := (h (f s)).complete s hs u hu ks hks hF
    ⟨hr.clean, rfl, hr.rest⟩

lemma currentStart {k : Nat → Parser Unit} (h : ∀ v, Scans P (k v) L F) :
    Scans P (Parser.currentStart >>= k) L F := look h

lemma spanSince {start : Nat} {k : Span → Parser Unit} (h : ∀ v, Scans P (k v) L F) :
    Scans P (Parser.spanSince start >>= k) L F := by
  have hstate : ∀ s : State, ((Parser.spanSince start).run s).2.kinds = s.kinds ∧
      ((Parser.spanSince start).run s).2.grownErrors = s.grownErrors := by
    intro s
    simp only [Parser.spanSince]
    split <;> exact ⟨rfl, rfl⟩
  constructor
  · intro s hs ks hr
    obtain ⟨hkinds, herrors⟩ := hstate s
    rw [← hkinds] at hs ⊢
    exact (h _).sound _ hs ks ⟨hr.clean.trans herrors.symm, rfl, hr.rest⟩
  · intro s hs u hu ks hks hF
    obtain ⟨hkinds, herrors⟩ := hstate s
    rw [← hkinds] at hs hks
    have hr := (h ((Parser.spanSince start).run s).1).complete _ hs u hu ks hks hF
    exact ⟨hr.clean.trans herrors, rfl, hr.rest⟩

/-! ### Words -/

end Scans

/-- The word that is one token of a kind. -/
def tok (k : Kind) : Language Kind := {[k]}

@[simp] lemma mem_tok {k : Kind} {u : List Kind} : u ∈ tok k ↔ u = [k] := Iff.rfl

/-- Taking a word that is there. -/
lemma reads_advance {s : State} {k : Kind} {ks ks' : List Kind} (h : s.kinds = k :: ks) :
    Reads advance s () ks' ↔ ks = ks' := by
  obtain ⟨w, ws, hws, -, hrest⟩ := List.map_eq_cons_iff.1 h
  obtain ⟨hadv, -, -, hgrown, -⟩ := State.advance_of_cons hws
  have hclean : (advance.run s).2.grownErrors = s.grownErrors := by
    change Sprout.errorsIn s.advance.grown.reverse = Sprout.errorsIn s.grown.reverse
    simp [hgrown, Sprout.errorsIn, Sprout.errors]
  have hkinds : (advance.run s).2.kinds = ks := by
    change s.advance.rest.map Word.kind = ks
    rw [hadv, hrest]
  exact ⟨fun h => hkinds.symm.trans h.rest, fun h => ⟨hclean, rfl, hkinds.trans h⟩⟩

/-- Whether a word of a kind is ahead. -/
lemma asks_nthIs (s : State) (i : Nat) (k : Kind) :
    Asks s.rest (nthIs i k) (ahead s.kinds i = k) (ahead s.kinds i ≠ k) 1 := by
  have h : Asks s.rest (nthIs i k) _ _ 1 := Asks.nthIs i k
  rwa [kindAt_eq] at h

lemma asks_isAt (s : State) (k : Kind) :
    Asks s.rest (isAt k) (ahead s.kinds 0 = k) (ahead s.kinds 0 ≠ k) 1 := asks_nthIs s 0 k

lemma asks_peek (s : State) (f : Kind → Bool) :
    Asks s.rest (f <$> peek) (f (ahead s.kinds 0) = true) (f (ahead s.kinds 0) = false) 1 := by
  have h : Asks s.rest (f <$> peek) _ _ 1 := Asks.peek f
  rwa [kindAt_eq] at h

/-- A word is taken if it has the kind. -/
lemma reads_eat {k : Kind} (hk : k ≠ .endOfInput) {s : State} {v : Bool} {ks : List Kind} :
    Reads (eat k) s v ks ↔
      v = true ∧ s.kinds = k :: ks ∨ v = false ∧ s.kinds = ks ∧ ahead s.kinds 0 ≠ k := by
  obtain ⟨w, hw, hY, hN⟩ := (asks_isAt s k).reads
  have hkinds := hw.rest
  rw [eat, reads_ask hw]
  cases w with
  | true =>
    obtain ⟨ks', hks⟩ := eq_cons_of_ahead (hY rfl) hk
    rw [if_pos rfl, reads_andPure, reads_advance (hkinds.trans hks), hks]
    constructor
    · rintro ⟨rfl, rfl⟩
      exact .inl ⟨rfl, rfl⟩
    · rintro (⟨rfl, h⟩ | ⟨-, -, h⟩)
      · exact ⟨rfl, List.tail_eq_of_cons_eq h⟩
      · exact absurd rfl h
  | false =>
    have hne := hN rfl
    rw [if_neg Bool.false_ne_true, reads_pure, hkinds]
    constructor
    · rintro ⟨rfl, h⟩
      exact .inr ⟨rfl, h, hne⟩
    · rintro (⟨-, h⟩ | ⟨rfl, h, -⟩)
      · exact absurd (by rw [h]; rfl) hne
      · exact ⟨rfl, h⟩

namespace Scans

variable {P Q F G : List Kind → Prop} {p q : Parser Unit} {L M : Language Kind}

/-- Taking a word that is there and of a known kind. -/
lemma advance {k : Kind} (hk : k ≠ .endOfInput) (h : ∀ ks, P ks → ahead ks 0 = k) :
    Scans P Parser.advance (tok k) fun _ => True where
  sound s hs ks hr := by
    obtain ⟨ks', hks⟩ := eq_cons_of_ahead (h _ hs) hk
    obtain rfl := (reads_advance hks).1 hr
    exact ⟨[k], rfl, hks⟩
  complete s _ u hu ks hks _ := by
    obtain rfl : u = [k] := hu
    exact (reads_advance hks).2 rfl

/-- What is done if a word of a kind is there and taken, and what is done else. -/
lemma ifEat {k : Kind} {f : Bool → Parser Unit} (hk : k ≠ .endOfInput)
    (yes : Scans Q (f true) L F) (no : Scans (fun ks => P ks ∧ ahead ks 0 ≠ k) (f false) M F)
    (hQ : ∀ ks, P (k :: ks) → Q ks) (hM : ∀ u ∈ M, ∀ ks, F ks → ahead (u ++ ks) 0 ≠ k) :
    Scans P (Parser.eat k >>= f) (tok k * L + M) F where
  sound s hs ks hr := by
    obtain ⟨v, ks', he, hr⟩ := reads_bind.1 hr
    rcases (reads_eat hk).1 he with ⟨rfl, h⟩ | ⟨rfl, h, hne⟩
    · have hQ' : Q ((Parser.eat k).run s).2.kinds := by
        rw [he.rest]
        exact hQ _ (h ▸ hs)
      obtain ⟨u, hu, hks⟩ := yes.sound _ hQ' ks hr
      rw [he.rest] at hks
      refine ⟨k :: u, .inl (Language.mem_mul.2 ⟨[k], rfl, u, hu, rfl⟩), ?_⟩
      rw [h, hks]
      rfl
    · rw [← h] at he
      obtain ⟨u, hu, hks⟩ := no.sound _ (by rw [he.rest]; exact ⟨hs, hne⟩) ks hr
      rw [he.rest] at hks
      exact ⟨u, .inr hu, hks⟩
  complete s hs x hx ks hks hF := by
    rw [reads_bind]
    rcases hx with hx | hx
    · obtain ⟨_, rfl, u, hu, rfl⟩ := Language.mem_mul.1 hx
      have he := (reads_eat (v := true) hk).2 (.inl ⟨rfl, hks⟩)
      have hQ' : Q ((Parser.eat k).run s).2.kinds := by
        rw [he.rest]
        rw [hks] at hs
        exact hQ _ hs
      exact ⟨true, _, he, yes.complete _ hQ' u hu ks he.rest hF⟩
    · have hne : ahead s.kinds 0 ≠ k := hks ▸ hM x hx ks hF
      have he := (reads_eat (v := false) hk).2 (.inr ⟨rfl, rfl, hne⟩)
      exact ⟨false, _, he, no.complete _ (by rw [he.rest]; exact ⟨hs, hne⟩) x hx ks (by rw [he.rest, hks]) hF⟩

lemma error {problem : Problem} : Scans P (Parser.error problem) 0 F :=
  .zero fun _ _ _ => not_reads_error

lemma errorAt {problem : Problem} {r : Span} : Scans P (Parser.errorAt r problem) 0 F :=
  .zero fun _ _ _ => not_reads_errorAt

lemma errorSince {problem : Problem} {start : Nat} : Scans P (Parser.errorSince start problem) 0 F :=
  .spanSince fun _ => .errorAt

lemma expected {what : String} : Scans P (Parser.expected what) 0 F := .nth fun _ => .error

lemma expect {k : Kind} (hk : k ≠ .endOfInput) : Scans P (Parser.expect k) (tok k) fun _ => True := by
  have hM : ∀ u ∈ (0 : Language Kind), ∀ ks, True → ahead (u ++ ks) 0 ≠ k :=
    fun u hu => (Language.notMem_zero u hu).elim
  rw [← add_zero (tok k), ← mul_one (tok k)]
  exact .ifEat (Q := fun _ => True) hk .pure .expected (fun _ _ => trivial) hM

/-! ### Repetition -/

/-- A loop reads a row of words, each but the last with the answer that it goes on. -/
lemma repeatWhile {body : Parser Bool} (hL : [] ∉ L)
    (more : ∀ s : State, P s.kinds → ∀ ks, Reads body s true ks ↔ ∃ u ∈ L, s.kinds = u ++ ks)
    (last : ∀ s : State, P s.kinds → ∀ ks, Reads body s false ks → ∃ u ∈ M, s.kinds = u ++ ks)
    (stop : ∀ s : State, P s.kinds → ∀ u ∈ M, ∀ ks, s.kinds = u ++ ks → F ks → Reads body s false ks)
    (keep : ∀ u ∈ L, ∀ ks, P (u ++ ks) → P ks) : Scans P (Parser.repeatWhile body) (L∗ * M) F := by
  have progress : ∀ s ks, P s.kinds → Reads body s true ks → ks.length < s.kinds.length ∧ P ks := by
    intro s ks hs h
    obtain ⟨u, hu, hks⟩ := (more s hs ks).1 h
    have hpos : u ≠ [] := fun h => hL (h ▸ hu)
    have hlen := List.length_pos_iff.2 hpos
    rw [hks] at hs ⊢
    exact ⟨by rw [List.length_append]; omega, keep u hu ks hs⟩
  constructor
  · intro s hs ks h
    replace h := (reads_repeatWhile progress hs).1 h
    induction h with
    | last h =>
      obtain ⟨w, hw, hks⟩ := last _ hs _ h
      exact ⟨w, Language.mem_mul.2 ⟨[], Language.nil_mem_kstar L, w, hw, rfl⟩, hks⟩
    | @more s ks ks' h _ ih =>
      obtain ⟨u, hu, hks⟩ := (more _ hs _).1 h
      have hP := (progress _ _ hs h).2
      rw [← h.rest] at hP
      obtain ⟨x, hx, hks'⟩ := ih hP
      obtain ⟨v, hv, w, hw, rfl⟩ := Language.mem_mul.1 hx
      refine ⟨(u ++ v) ++ w, Language.mem_mul.2 ⟨u ++ v, append_mem_kstar hu hv, w, hw, rfl⟩, ?_⟩
      rw [hks, ← h.rest, hks']
      simp
  · intro s hs x hx ks hks hF
    obtain ⟨v, hv, w, hw, rfl⟩ := Language.mem_mul.1 hx
    obtain ⟨us, rfl, hus⟩ := Language.mem_kstar.1 hv
    clear hv hx
    rw [reads_repeatWhile progress hs]
    induction us generalizing s with
    | nil => exact .last (stop s hs w hw ks hks hF)
    | cons u us ih =>
      have hbody := (more s hs (us.flatten ++ w ++ ks)).2 ⟨u, hus u (by simp), by rw [hks]; simp⟩
      have hP := (progress _ _ hs hbody).2
      rw [← hbody.rest] at hP
      exact .more hbody (ih _ hP (fun y hy => hus y (by simp [hy])) hbody.rest)

/-- A round that is the last if the answer to a question is yes. -/
abbrev round (q : Parser Bool) (p : Parser Unit) : Parser Bool := do
  if ← q then Pure.pure false
  else
    p
    Pure.pure true

section Until

variable {q : Parser Bool} {Y : List Kind → Prop} {n : Nat}
  (hq : ∀ s : State, P s.kinds → Asks s.rest q (Y s.kinds) (¬ Y s.kinds) n)
  (hp : Scans (fun ks => P ks ∧ ¬ Y ks) p L fun _ => True)

include hq hp

/-- A round of a loop that goes on until the answer to a question is yes. -/
lemma reads_round (hL : ∀ u ∈ L, ∀ ks, ¬ Y (u ++ ks)) {s : State} (hs : P s.kinds) (ks : List Kind) :
    (Reads (round q p) s true ks ↔ ∃ u ∈ L, s.kinds = u ++ ks) ∧
      (Reads (round q p) s false ks ↔ s.kinds = ks ∧ Y ks) := by
  obtain ⟨v, hv, hyes, hno⟩ := (hq s hs).reads
  rw [reads_ask hv, reads_ask hv]
  cases v with
  | true =>
    rw [if_pos rfl, reads_pure, reads_pure, hv.rest]
    refine ⟨⟨fun h => (nomatch h.1), ?_⟩, ⟨fun h => ⟨h.2, h.2 ▸ hyes rfl⟩, fun h => ⟨rfl, h.1⟩⟩⟩
    rintro ⟨u, hu, hks⟩
    exact (hL u hu ks (hks ▸ hyes rfl)).elim
  | false =>
    rw [if_neg Bool.false_ne_true, reads_andPure, reads_andPure]
    have hs' : P (q.run s).2.kinds ∧ ¬ Y (q.run s).2.kinds := by
      rw [hv.rest]
      exact ⟨hs, hno rfl⟩
    refine ⟨⟨fun h => ?_, ?_⟩, ⟨fun h => (nomatch h.1), fun h => (hno rfl (h.1 ▸ h.2)).elim⟩⟩
    · rw [← hv.rest]
      exact hp.sound _ hs' ks h.2
    · rintro ⟨u, hu, hks⟩
      rw [← hv.rest] at hks
      exact ⟨rfl, hp.complete _ hs' u hu ks hks trivial⟩

/-- A loop that goes on until the answer to a question is yes. -/
lemma untilYes (hnil : [] ∉ L) (hL : ∀ u ∈ L, ∀ ks, ¬ Y (u ++ ks)) (keep : ∀ u ∈ L, ∀ ks, P (u ++ ks) → P ks) :
    Scans P (Parser.repeatWhile (round q p)) L∗ Y := by
  rw [← mul_one L∗]
  refine .repeatWhile hnil (fun s hs ks => (reads_round hq hp hL hs ks).1) (fun s hs ks h => ?_)
    (fun s hs u hu ks hks hY => ?_) keep
  · exact ⟨[], rfl, ((reads_round hq hp hL hs ks).2.1 h).1⟩
  · obtain rfl : u = [] := hu
    exact (reads_round hq hp hL hs ks).2.2 ⟨hks, hY⟩

/-- Behind such a loop the answer is yes. -/
lemma untilYes_exit (hnil : [] ∉ L) (hL : ∀ u ∈ L, ∀ ks, ¬ Y (u ++ ks))
    (keep : ∀ u ∈ L, ∀ ks, P (u ++ ks) → P ks) {s : State} (hs : P s.kinds) {ks : List Kind}
    (h : Reads (Parser.repeatWhile (round q p)) s () ks) : Y ks := by
  have progress : ∀ s ks, P s.kinds → Reads (round q p) s true ks →
      ks.length < s.kinds.length ∧ P ks := by
    intro s ks hs h
    obtain ⟨u, hu, hks⟩ := (reads_round hq hp hL hs ks).1.1 h
    have hpos := List.length_pos_iff.2 fun h => hnil (h ▸ hu)
    rw [hks] at hs ⊢
    exact ⟨by rw [List.length_append]; omega, keep u hu ks hs⟩
  replace h := (reads_repeatWhile progress hs).1 h
  induction h with
  | last h => exact ((reads_round hq hp hL hs _).2.1 h).2
  | more h _ ih =>
    have hP := (progress _ _ hs h).2
    rw [← h.rest] at hP
    exact ih hP

end Until

end Scans

end GoFront.Parser
