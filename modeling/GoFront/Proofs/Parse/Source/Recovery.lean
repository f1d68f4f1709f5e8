import GoFront.Proofs.Parse.Source.Growth.File
import GoFront.Proofs.Tree.Rendering

/-!
# Recovery at the top level

What starts no declaration at the top level is skipped up to the next line that does, and put into an error node. So
inside an error node no declaration starts, but for its first word, and right behind the node the next one does, unless
the file ends: `errors_resynchronize`.

The loop over a file goes round by round (`Rounds`). A round takes words from the front of what is left and grows one
sprout; what it grows depends on the first of these words, and where it ends on the words behind it.
-/

namespace GoFront.Source

open GoFront.Parser

/-! ## Where declarations start -/

/-- Whether a word starts a declaration if it is the first on its line, given the kind of the word behind it. -/
def startsBy (k next : Kind) : Bool :=
  match k with
  | .importKeyword | .typeKeyword | .varKeyword | .constKeyword | .packageKeyword => true
  | .funcKeyword => next == .identifier || next == .leftParen
  | _ => false

/-- Whether a declaration starts at the first of some words. -/
def isStart (ws : List Word) : Bool := ws[0]?.any Word.lineStart && startsBy (kindAt ws 0) (kindAt ws 1)

/-- The kind of the node for what a keyword starts. -/
def declarationOf : Kind → Kind
  | .importKeyword => .importDeclaration
  | .funcKeyword => .functionDeclaration
  | .typeKeyword => .typeDeclaration
  | .varKeyword => .variableDeclaration
  | .constKeyword => .constantDeclaration
  | _ => .error

section

variable {ws : List Word} {f : List Sprout}

lemma asks_nthLineStart (n : Nat) :
    Asks ws (nthLineStart n) (ws[n]?.any Word.lineStart = true) (ws[n]?.any Word.lineStart = false) 0 := by
  rintro s rfl
  exact ⟨0, Nat.le_refl 0, rfl, id, id⟩

/-- What the parser finds out about the word `n` places ahead. -/
lemma asks_isStart (n : Nat) :
    Asks ws (startsDeclaration n) (isStart (ws.drop n) = true) (isStart (ws.drop n) = false) 2 := by
  have hkinds : ∀ i, kindAt (ws.drop n) i = kindAt ws (n + i) := fun i => by
    rw [kindAt, kindAt, List.getElem?_drop]
  have hkind : Asks ws (nth n >>= fun k => match k with
      | .importKeyword | .typeKeyword | .varKeyword | .constKeyword | .packageKeyword => pure true
      | .funcKeyword => do
        let next ← nth (n + 1)
        pure (next == .identifier || next == .leftParen)
      | _ => pure false) (startsBy (kindAt ws n) (kindAt ws (n + 1)) = true)
      (startsBy (kindAt ws n) (kindAt ws (n + 1)) = false) 2 := by
    refine .nth (n := 1) n ?_
    generalize kindAt ws n = k
    unfold startsBy
    split
    iterate 5 exact (Asks.pure true).mono id id
    · exact .nth (n := 0) (n + 1) (.pure _)
    · exact (Asks.pure false).mono id id
  refine ((asks_nthLineStart n).and hkind).mono (fun h => ?_) fun h => ?_
  · rw [isStart, List.getElem?_drop, hkinds, hkinds]
    exact Bool.and_eq_true_iff.2 h
  · rw [isStart, List.getElem?_drop, hkinds, hkinds, Bool.and_eq_false_iff]
    exact h

end

/-! ## Rounds -/

/-- Sprouts that grow from words at the top level, round by round. -/
inductive Rounds : List Word → List Sprout → Prop
  /-- The file ends. -/
  | nil : Rounds [] []
  /-- A semicolon. -/
  | semicolon {w : Word} {ws : List Word} {xs : List Sprout} (hw : w.kind = .semicolon) (h : Rounds ws xs) :
    Rounds (w :: ws) (.word w :: xs)
  /-- A declaration is taken, whatever it is made of. -/
  | declaration {w : Word} {us ws : List Word} {cs xs : List Sprout} (hw : declarationOf w.kind ≠ .error)
    (hcs : Sprout.wordsIn cs = w :: us) (h : Rounds ws xs) :
    Rounds (w :: us ++ ws) (.node (declarationOf w.kind) cs :: xs)
  /-- A package clause in the wrong place is taken, with the name in it. -/
  | misplaced {w : Word} {us ws : List Word} {cs xs : List Sprout} (hw : w.kind = .packageKeyword)
    (hcs : Sprout.wordsIn cs = w :: us) (hown : Sprout.own cs ≠ []) (hus : ∀ u ∈ us, u.kind = .identifier)
    (h : Rounds ws xs) : Rounds (w :: us ++ ws) (.node .error cs :: xs)
  /-- What starts no declaration is skipped. -/
  | skipped {w : Word} {us ws : List Word} {cs xs : List Sprout} (hw : w.kind ≠ .semicolon)
    (hnone : ∀ next, startsBy w.kind next = false) (hcs : Sprout.wordsIn cs = w :: us) (hown : Sprout.own cs ≠ [])
    (hus : ∀ vs v vs', us = vs ++ v :: vs' → isStart (v :: vs' ++ ws) = false)
    (hstop : kindAt ws 0 = .endOfInput ∨ isStart ws = true ∨ kindAt ws 0 = .semicolon ∧ isStart (ws.drop 1) = true)
    (h : Rounds ws xs) : Rounds (w :: us ++ ws) (.node .error cs :: xs)

namespace Rounds

variable {ws : List Word} {xs ys : List Sprout}

/-- Behind some of the sprouts, the rounds go on. -/
lemma behind (h : Rounds ws (xs ++ ys)) : ∃ ws', ws = Sprout.wordsIn xs ++ ws' ∧ Rounds ws' ys := by
  induction xs generalizing ws with
  | nil => exact ⟨ws, rfl, h⟩
  | cons x xs ih =>
    have hcons : ∃ ws₁, ws = x.words ++ ws₁ ∧ Rounds ws₁ (xs ++ ys) := by
      cases h with
      | semicolon _ h => exact ⟨_, rfl, h⟩
      | declaration _ hcs h => exact ⟨_, by rw [Sprout.words, hcs], h⟩
      | misplaced _ hcs _ _ h => exact ⟨_, by rw [Sprout.words, hcs], h⟩
      | skipped _ _ hcs _ _ _ h => exact ⟨_, by rw [Sprout.words, hcs], h⟩
    obtain ⟨ws₁, rfl, h₁⟩ := hcons
    obtain ⟨ws', rfl, h'⟩ := ih h₁
    exact ⟨ws', by rw [Sprout.wordsIn, List.append_assoc], h'⟩

/-- Where a declaration starts, its node comes next. -/
lemma of_isStart {w : Word} (h : Rounds (w :: ws) xs) (hw : isStart (w :: ws) = true) :
    ∃ us cs xs', xs = .node (declarationOf w.kind) cs :: xs' ∧ Sprout.wordsIn cs = w :: us := by
  have hstarts : startsBy w.kind (kindAt (w :: ws) 1) = true := (Bool.and_eq_true_iff.1 hw).2
  generalize hvs : w :: ws = vs at h
  cases h with
  | nil => exact nomatch hvs
  | semicolon hkind =>
    obtain ⟨rfl, -⟩ := List.cons.inj hvs
    rw [hkind] at hstarts
    exact nomatch hstarts
  | declaration _ hcs =>
    obtain ⟨rfl, -⟩ := List.cons.inj hvs
    exact ⟨_, _, _, rfl, hcs⟩
  | misplaced hkind hcs =>
    obtain ⟨rfl, -⟩ := List.cons.inj hvs
    exact ⟨_, _, _, by rw [hkind]; rfl, hcs⟩
  | skipped _ hnone =>
    obtain ⟨rfl, -⟩ := List.cons.inj hvs
    exact absurd ((hnone _).symm.trans hstarts) Bool.false_ne_true

/-- Behind a semicolon in front, the rounds go on. -/
lemma of_semicolon {w : Word} (h : Rounds (w :: ws) xs) (hw : w.kind = .semicolon) :
    ∃ xs', xs = .word w :: xs' ∧ Rounds ws xs' := by
  generalize hvs : w :: ws = vs at h
  cases h with
  | nil => exact nomatch hvs
  | semicolon _ h =>
    obtain ⟨rfl, rfl⟩ := List.cons.inj hvs
    exact ⟨_, rfl, h⟩
  | declaration hkind =>
    obtain ⟨rfl, -⟩ := List.cons.inj hvs
    exact absurd (hw ▸ rfl) hkind
  | misplaced hkind =>
    obtain ⟨rfl, -⟩ := List.cons.inj hvs
    exact nomatch hw.symm.trans hkind
  | skipped hkind =>
    obtain ⟨rfl, -⟩ := List.cons.inj hvs
    exact absurd hw hkind

/-- Where skipping stops before the end of the file, the next declaration starts, behind a semicolon at most, and its
node comes next. -/
lemma resumes (h : Rounds ws xs) (hstart : isStart ws = true ∨ kindAt ws 0 = .semicolon ∧ isStart (ws.drop 1) = true) :
    ∃ (ss : List Word) (w : Word) (vs us : List Word) (cs xs' : List Sprout), ws = ss ++ w :: vs ∧ ss.length ≤ 1 ∧
      (∀ s ∈ ss, s.kind = .semicolon) ∧ isStart (w :: vs) = true ∧ xs = ss.map .word ++ .node (declarationOf w.kind) cs :: xs' ∧
      Sprout.wordsIn cs = w :: us := by
  rcases hstart with hstart | ⟨hsemicolon, hstart⟩
  · cases ws with
    | nil => exact nomatch hstart
    | cons w vs =>
      obtain ⟨us, cs, xs', rfl, hcs⟩ := h.of_isStart hstart
      exact ⟨[], w, vs, us, cs, xs', rfl, Nat.zero_le 1, nofun, hstart, rfl, hcs⟩
  · rcases ws with _ | ⟨s, _ | ⟨w, vs⟩⟩
    · exact nomatch hstart
    · exact nomatch hstart
    obtain ⟨xs₁, rfl, h₁⟩ := h.of_semicolon hsemicolon
    obtain ⟨us, cs, xs', rfl, hcs⟩ := h₁.of_isStart hstart
    exact ⟨[s], w, vs, us, cs, xs', rfl, Nat.le_refl 1, List.forall_mem_singleton.2 hsemicolon, hstart, rfl, hcs⟩

/-- What an error node at the top level is made of. -/
lemma of_error {cs : List Sprout} (h : Rounds ws (.node .error cs :: xs)) :
    ∃ w us ws', ws = w :: us ++ ws' ∧ Rounds ws' xs ∧ Sprout.wordsIn cs = w :: us ∧ Sprout.own cs ≠ [] ∧
      (∀ vs v vs', us = vs ++ v :: vs' → isStart (v :: vs' ++ ws') = false) ∧
      (w.kind ≠ .packageKeyword →
        kindAt ws' 0 = .endOfInput ∨ isStart ws' = true ∨ kindAt ws' 0 = .semicolon ∧ isStart (ws'.drop 1) = true) := by
  generalize hys : Sprout.node .error cs :: xs = ys at h
  cases h with
  | nil => exact nomatch hys
  | semicolon => exact nomatch hys
  | declaration hkind =>
    obtain ⟨hnode, -⟩ := List.cons.inj hys
    exact absurd (Sprout.node.inj hnode).1.symm hkind
  | misplaced hw hcs hown hus h =>
    obtain ⟨⟨⟩, rfl⟩ := List.cons.inj hys
    refine ⟨_, _, _, rfl, h, hcs, hown, fun vs v vs' hsplit => ?_, fun hkind => absurd hw hkind⟩
    -- A name starts nothing.
    have hv : v.kind = .identifier := hus v (hsplit ▸ List.mem_append_right _ List.mem_cons_self)
    rw [isStart, Bool.and_eq_false_iff]
    exact .inr (by rw [show kindAt (v :: vs' ++ _) 0 = v.kind from rfl, hv]; rfl)
  | skipped _ _ hcs hown hus hstop h =>
    obtain ⟨⟨⟩, rfl⟩ := List.cons.inj hys
    exact ⟨_, _, _, rfl, h, hcs, hown, hus, fun _ => hstop⟩

end Rounds

/-! ## The loop over a file -/

/-- What was grown from the words in front of `ws'` goes in rounds, if what is grown from `ws'` does. -/
def Leads (ws : List Word) (f : List Sprout) (ws' : List Word) (f' : List Sprout) : Prop :=
  ∀ xs, Rounds ws' xs → ∃ ys, f'.reverse ++ xs = f.reverse ++ ys ∧ Rounds ws ys

section

variable {ws ws' ws'' : List Word} {f f' f'' : List Sprout}

lemma Leads.refl (ws : List Word) (f : List Sprout) : Leads ws f ws f := fun xs h => ⟨xs, rfl, h⟩

lemma Leads.trans (h : Leads ws f ws' f') (k : Leads ws' f' ws'' f'') : Leads ws f ws'' f'' := by
  intro xs hxs
  obtain ⟨ys, hys, hrounds⟩ := k xs hxs
  obtain ⟨zs, hzs, hrounds⟩ := h ys hrounds
  exact ⟨zs, hys.trans hzs, hrounds⟩

/-- A round grows one sprout. -/
lemma Leads.one {x : Sprout} (h : ∀ xs, Rounds ws' xs → Rounds ws (x :: xs)) : Leads ws f ws' (x :: f) :=
  fun xs hxs => ⟨x :: xs, by rw [List.reverse_cons, List.append_assoc]; rfl, h xs hxs⟩

/-- A node that starts with a keyword. -/
lemma leads_declaration {c k : Kind} {body : Unit → Parser Unit} (h : kindAt ws 0 = c) (hk : declarationOf c = k)
    (hne : k ≠ .error) : Grows ws f (node k (advance >>= body)) fun _ ws' f' => Leads ws f ws' f' := by
  subst hk
  have hend : c ≠ .endOfInput := by
    rintro rfl
    exact hne rfl
  refine .node (.take (K := (· = c)) h hend.symm fun w ws₁ hws hw => ?_)
  -- Of the rest of the node it only counts that it takes words from the front.
  have htrivial : Grows ws₁ [.word w] (body ()) fun _ _ _ => True := fun _ _ _ _ => trivial
  refine htrivial.conserves.mono fun _ ws' g ⟨_, taken, htaken, hwords⟩ => .one fun xs hxs => ?_
  have hcs : Sprout.wordsIn g.reverse = w :: taken := hwords
  subst hw hws htaken
  exact .declaration hne hcs hxs

lemma leads_misplacedPackage (h : kindAt ws 0 = .packageKeyword) :
    Grows ws f misplacedPackage fun _ ws' f' => Leads ws f ws' f' := by
  refine .node (.bind (Q := fun _ ws' g => ws' = ws ∧ ∃ e r, g = [.error e r]) (.error fun r => ⟨rfl, _, r, rfl⟩) ?_)
  rintro _ _ _ ⟨rfl, e, r, rfl⟩
  refine .take (K := (· = .packageKeyword)) h (by decide) fun w ws₁ hws hw => ?_
  subst hws
  refine .ifEat (by decide) (fun v ws₂ hws hv => ?_) fun _ => ?_
  · subst hws
    refine .pure (.one fun xs hxs => ?_)
    exact .misplaced hw (show _ = w :: [v] from rfl) (List.cons_ne_nil _ _) (List.forall_mem_singleton.2 hv) hxs
  · refine .pure (.one fun xs hxs => ?_)
    exact .misplaced hw (show _ = w :: [] from rfl) (List.cons_ne_nil _ _) nofun hxs

/-- Words are skipped one by one, as long as no declaration starts. -/
lemma leads_skipToDeclaration {w : Word} (hw : w.kind ≠ .semicolon) (hnone : ∀ next, startsBy w.kind next = false) :
    Grows (w :: ws) f skipToDeclaration fun _ ws' f' => Leads (w :: ws) f ws' f' := by
  refine .node (.bind (Q := fun _ ws' g => ws' = w :: ws ∧ ∃ e r, g = [.error e r]) (.expected fun _ r =>
    ⟨rfl, _, r, rfl⟩) ?_)
  rintro _ _ _ ⟨rfl, e, r, rfl⟩
  refine .bind (Q := fun _ ws' g => ws' = ws ∧ g = [.word w, .error e r]) (.advance ⟨rfl, rfl⟩) ?_
  rintro _ ws₀ _ ⟨hws₀, rfl⟩
  subst ws₀
  -- no declaration starts at the words skipped so far, seen with what is left behind them
  refine .repeatWhile (I := fun ws' g => ∃ us, ws = us ++ ws' ∧ Sprout.wordsIn g.reverse = w :: us ∧
      Sprout.own g.reverse ≠ [] ∧ ∀ vs v vs', us = vs ++ v :: vs' → isStart (v :: vs' ++ ws') = false)
    ⟨[], rfl, rfl, List.cons_ne_nil _ _, fun vs v vs' h => absurd h.symm (by simp)⟩ ?_
  rintro ws' g ⟨us, rfl, hwords, hown, hus⟩
  refine .ite ((Asks.isAt _).or ((asks_isStart 0).or ((Asks.isAt _).and (asks_isStart 1)))) (fun hstop => ?_)
    fun ⟨hend, hstart, _⟩ => ?_
  · exact .pure ⟨nofun, fun _ => .one fun xs hxs => .skipped hw hnone hwords hown hus hstop hxs⟩
  · refine .take (K := (· ≠ .endOfInput)) hend (by simp) fun u ws'' hws hu => .pure ⟨fun _ => ?_, nofun⟩
    subst hws
    refine ⟨us ++ [u], by simp, by simp [Sprout.wordsIn, Sprout.words, hwords], ?_, ?_⟩
    · rw [List.reverse_cons, Sprout.own_append]
      exact List.append_ne_nil_of_left_ne_nil hown _
    · -- The new word is the last one, and where a split lies before it, it was a split before.
      intro vs v vs' hsplit
      rcases List.eq_nil_or_concat vs' with rfl | ⟨vs', x, rfl⟩
      · obtain ⟨-, hv⟩ := List.append_inj' hsplit rfl
        obtain rfl := (List.cons.inj hv).1
        exact hstart
      · rw [List.concat_eq_append, ← List.cons_append, ← List.append_assoc] at hsplit
        obtain ⟨hskipped, hx⟩ := List.append_inj' hsplit rfl
        obtain rfl := (List.cons.inj hx).1
        have hinner := hus vs v vs' hskipped
        rwa [List.concat_eq_append, List.cons_append, List.append_assoc]

lemma leads_topLevel {w : Word} : Grows (w :: ws) f topLevel fun _ ws' f' => Leads (w :: ws) f ws' f' := by
  have hround : Grows (w :: ws) f declarationOrSkip fun _ ws' f' => Leads (w :: ws) f ws' f' := by
    have hdeclaration : ∀ {c : Kind}, kindAt (w :: ws) 0 = c → c ∈ [.typeKeyword, .varKeyword, .constKeyword] →
        Grows (w :: ws) f (declaration top) fun _ ws' f' => Leads (w :: ws) f ws' f' := by
      intro c h hc
      refine .peek ?_
      rw [h]
      split
      · exact leads_declaration h rfl (by decide)
      · exact leads_declaration h rfl (by decide)
      · exact leads_declaration h rfl (by decide)
      · simp_all
    refine .peek ?_
    split
    · next h => exact leads_declaration h rfl (by decide)
    · next h => exact leads_declaration h rfl (by decide)
    · next h => exact hdeclaration h (by decide)
    · next h => exact hdeclaration h (by decide)
    · next h => exact hdeclaration h (by decide)
    · next h => exact .advance (.one fun _ hxs => .semicolon h hxs)
    · next h => exact leads_misplacedPackage h
    · next himport hfunc htype hvar hconst hsemicolon hpackage =>
      refine leads_skipToDeclaration hsemicolon fun next => ?_
      unfold startsBy
      split <;> first | rfl | contradiction
  refine hround.bind fun _ ws' f' hleads => ?_
  have heat : Grows ws' f' (eat .semicolon >>= pure) fun _ ws'' f'' => Leads (w :: ws) f ws'' f'' :=
    .ifEat (by decide) (fun v ws'' hws hv => .pure (hleads.trans (hws ▸ .one fun _ hxs => .semicolon hv hxs)))
      fun _ => .pure hleads
  rw [bind_pure] at heat
  exact heat.discard fun _ _ _ h => h

/-- Behind the package clause, in which there is no error node, a file goes in rounds. -/
lemma leads_file : Grows ws [] file fun _ ws' f' => ∃ f ws₁, ws = Sprout.wordsIn f.reverse ++ ws₁ ∧
    (∀ cs, .node .error cs ∉ f) ∧ Leads ws₁ f ws' f' := by
  have hclause : Grows ws [] packageClause fun _ _ f => ∀ cs, .node .error cs ∉ f := by
    refine .ite (.isAt _) (fun _ => ?_) fun _ => .expected fun _ _ cs => by simp
    refine .bind (Q := fun _ _ f => ∃ cs, f = [.node .packageClause cs]) (.node fun _ _ _ _ => ⟨_, rfl⟩) ?_
    rintro _ _ _ ⟨cs, rfl⟩
    exact .ifEat (by decide) (fun _ _ _ _ => .pure fun cs => by simp) fun _ => .pure fun cs => by simp
  refine hclause.conserves.bind fun _ ws₁ f ⟨hnone, _, htaken, hwords⟩ => ?_
  have hsplit : ws = Sprout.wordsIn f.reverse ++ ws₁ := by
    rw [hwords]
    exact htaken
  refine .repeatWhile (I := fun ws' f' => Leads ws₁ f ws' f') (.refl ws₁ f) fun ws' f' hleads => ?_
  refine .ite (.isAt _) (fun _ => .pure ⟨nofun, fun _ => ⟨f, ws₁, hsplit, hnone, hleads⟩⟩) fun hend => ?_
  obtain ⟨w, ws', rfl⟩ := List.exists_cons_of_ne_nil (ne_nil_of_kindAt rfl hend)
  exact leads_topLevel.andPure fun _ _ _ h => ⟨fun _ => hleads.trans h, nofun⟩

end

/-! ## The tree of a file -/

/-- The tokens in elements that follow one another, without blanks and comments. -/
def significantIn (es : List Element) : List Token :=
  ((Element.leavesIn es).filter fun l => !l.kind.isTrivia).map Leaf.token

/-- A declaration starts at the first of some words, or at the second, behind a semicolon, and the first of some nodes
stands for what starts there. -/
def Resumes (ws : List Word) (ns : List Node) : Prop :=
  ∃ (ss : List Word) (w : Word) (vs : List Word), ws = ss ++ w :: vs ∧ ss.length ≤ 1 ∧
    (∀ s ∈ ss, s.kind = .semicolon) ∧ isStart (w :: vs) = true ∧
    ∃ n ∈ ns.head?, n.kind = declarationOf w.kind ∧ n.span.start = w.token.start ∧
      ∃ l ∈ n.leaves.head?, l.token = w.token

/-- The words of a text are shared out among what stands in front of a node at the top level, the node, and what stands
behind it. No declaration starts in the node behind its first word, and unless that one is `package`, the file ends
right behind the node or the next declaration starts there. -/
structure Resynchronized (text : Text) (es : List Element) (e : Node) (fs : List Element)
    (before inside behind : List Word) (first : Word) : Prop where
  words : (Words.ofTokens Kind.isTrivia (tokens text)).words = before ++ (first :: inside) ++ behind
  tokens_before : significantIn es = before.map Word.token
  tokens_inside : significantIn e.children = (first :: inside).map Word.token
  tokens_behind : significantIn fs = behind.map Word.token
  inner : ∀ us v vs, inside = us ++ v :: vs → isStart (v :: vs ++ behind) = false
  resumes : first.kind ≠ .packageKeyword → behind = [] ∨ Resumes behind (fs.filterMap Element.node?)

lemma significantIn_append_gap {es gap : List Element} (h : Element.IsGap Kind.isTrivia gap) :
    significantIn (es ++ gap) = significantIn es := by
  rw [significantIn, Element.leavesIn_append, List.filter_append, Renders.filter_leavesIn_gap h, List.append_nil]
  rfl

/-- The tree of a file renders what is grown from it, in front of blanks and comments. -/
lemma renders_parse (text : Text) : ∃ es gap, (parse text).root.children = es ++ gap ∧
    Element.IsGap Kind.isTrivia gap ∧ Renders Kind.isTrivia (attached (parse text).errors)
      (file.run (.start Kind.isTrivia text 0 (tokens text))).2.grown.reverse es := by
  have hlimit : 2 + 66 * nestingLimit + 68 ≤ lookLimit := by decide
  rw [parse]
  obtain ⟨es, gap, hchildren, hgap, hrenders, -⟩ := Parser.renders_tree (k := .sourceFile) rfl (filed_file_run text).1
    fun e he => (proper_of_fits (b := topFrame ⟨0, text.size⟩) (covers_tokens text) rfl rfl fits_file (by decide) hlimit
      e he).grammar.isLexical_eq_false
  exact ⟨es, gap, hchildren, hgap, hrenders⟩

/-- What is grown from a file goes in rounds, behind sprouts that are no error nodes. -/
lemma rounds_file_run (text : Text) : ∃ cs xs ws, (∀ ds, .node .error ds ∉ cs) ∧ Rounds ws xs ∧
    (file.run (.start Kind.isTrivia text 0 (tokens text))).2.grown.reverse = cs ++ xs ∧
    (Words.ofTokens Kind.isTrivia (tokens text)).words = Sprout.wordsIn cs ++ ws := by
  obtain ⟨f, ws, hwords, hnone, hleads⟩ := leads_file _ rfl rfl (sound_file_run text).calm
  rw [(filed_file_run text).1] at hleads
  obtain ⟨xs, hgrown, hrounds⟩ := hleads [] .nil
  rw [List.append_nil] at hgrown
  exact ⟨f.reverse, xs, ws, fun ds hmem => hnone ds (List.mem_reverse.1 hmem), hrounds, hgrown, hwords⟩

/-- An error node at the top level comes from a round. -/
lemma rounds_of_error {text : Text} {cs₁ ds cs₂ : List Sprout}
    (h : (file.run (.start Kind.isTrivia text 0 (tokens text))).2.grown.reverse = cs₁ ++ .node .error ds :: cs₂) :
    ∃ ws, (Words.ofTokens Kind.isTrivia (tokens text)).words = Sprout.wordsIn cs₁ ++ ws ∧
      Rounds ws (.node .error ds :: cs₂) := by
  obtain ⟨cs, xs, ws, hnone, hrounds, hgrown, hwords⟩ := rounds_file_run text
  rw [hgrown] at h
  rcases List.append_eq_append_iff.1 h with ⟨hs, rfl, rfl⟩ | ⟨hs, rfl, hxs⟩
  · obtain ⟨ws', rfl, hbehind⟩ := hrounds.behind
    exact ⟨ws', by rw [hwords, Sprout.wordsIn_append, List.append_assoc], hbehind⟩
  · cases hs with
    | nil =>
      obtain rfl : _ = xs := hxs
      exact ⟨ws, by rw [hwords, List.append_nil], hrounds⟩
    | cons x hs =>
      obtain ⟨rfl, -⟩ := List.cons.inj hxs
      exact absurd (List.mem_append_right _ List.mem_cons_self) (hnone ds)

/-- Where skipping stops before the end of the file, the nodes behind stand for what comes. -/
lemma resumes_of_rounds {A : Nat → List (Problem × Span)} {ws : List Word} {xs : List Sprout} {es : List Element}
    (h : Rounds ws xs) (hes : Renders Kind.isTrivia A xs es)
    (htiled : ∀ n ∈ Element.descendantsIn es, Element.Tile n.span.start n.children n.span.stop)
    (hstart : isStart ws = true ∨ kindAt ws 0 = .semicolon ∧ isStart (ws.drop 1) = true) :
    Resumes ws (es.filterMap Element.node?) := by
  obtain ⟨ss, w, vs, us, cs, xs', rfl, hlength, hss, hw, rfl, hcs⟩ := h.resumes hstart
  obtain ⟨fs, gs, rfl, hfs, hgs⟩ := hes.split
  obtain ⟨gap, n, hs, rfl, hgap, hkind, hn, -⟩ := hgs.exists_of_node
  -- Semicolons are no nodes.
  have hnone : fs.filterMap Element.node? = [] := by
    refine List.map_eq_nil_iff.1 (hfs.map_kind_nodes.trans ?_)
    rw [Sprout.kindsIn, List.filterMap_map]
    exact List.filterMap_eq_nil_iff.2 fun _ _ => rfl
  have hfirst : n ∈ ((fs ++ (gap ++ n.element :: hs)).filterMap Element.node?).head? := by
    rw [List.filterMap_append, hnone, List.filterMap_append, Renders.filterMap_node?_gap hgap]
    rfl
  obtain ⟨l, hl, htoken⟩ := hn.exists_head_leaf hcs
  have hbelow : ∀ m ∈ n.element.descendants, Element.Tile m.span.start m.children m.span.stop := fun m hm =>
    htiled m (by simp [Element.descendantsIn, hm])
  have hspan : n.span.start = l.token.start := (Element.start_eq n.element hbelow).1 l hl
  exact ⟨ss, w, vs, rfl, hlength, hss, hw, n, hfirst, hkind, htoken ▸ hspan, l, hl, htoken⟩

/-- **The parser finds back**: to every error node at the top level an error belongs, in it no declaration starts behind
its first word, and unless that one is `package`, it reaches to the end of the file or the next declaration comes
next. -/
theorem errors_resynchronize (text : Text) {es fs : List Element} {e : Node}
    (h : (parse text).root.children = es ++ e.element :: fs) (he : e.kind = .error) :
    (∃ x ∈ (parse text).errors, x.node = e.id) ∧
      ∃ before inside behind first, Resynchronized text es e fs before inside behind first := by
  obtain ⟨es', gap, hchildren, hgap, hrenders⟩ := renders_parse text
  obtain ⟨fs', rfl, rfl⟩ := Renders.exists_append_gap hgap (hchildren.symm.trans h)
  obtain ⟨cs₁, ds, cs₂, es, gap', hgrown, hparts, rfl, hgap', hbefore, hbehind⟩ := hrenders.split_node rfl
  rw [he] at hgrown
  obtain ⟨ws, hwords, hrounds⟩ := rounds_of_error hgrown
  obtain ⟨first, inside, behind, rfl, hrest, hds, hown, hinner, hstop⟩ := hrounds.of_error
  -- Behind the node the rounds go on to the end of the file.
  have hrestWords : behind = Sprout.wordsIn cs₂ := by
    rw [← List.append_nil cs₂] at hrest
    obtain ⟨ws', rfl, hnil⟩ := hrest.behind
    cases hnil
    exact List.append_nil _
  refine ⟨?_, Sprout.wordsIn cs₁, inside, behind, first, ?_, ?_, ?_, ?_, hinner, fun hfirst => ?_⟩
  · obtain ⟨x, hx⟩ := List.exists_mem_of_ne_nil _ (hparts.own ▸ hown)
    obtain ⟨y, hy, -⟩ := List.mem_map.1 hx
    obtain ⟨hmem, hnode⟩ := List.mem_filter.1 hy
    exact ⟨y, hmem, of_decide_eq_true (Bool.and_eq_true_iff.1 hnode).2⟩
  · rw [hwords, List.append_assoc]
  · rw [significantIn_append_gap hgap']
    exact hbefore.map_token_leavesIn
  · rw [← hds]
    exact hparts.parts.map_token_leavesIn
  · rw [significantIn_append_gap hgap, hrestWords]
    exact hbehind.map_token_leavesIn
  · rw [List.filterMap_append, Renders.filterMap_node?_gap hgap, List.append_nil]
    rcases hstop hfirst with hend | hstart
    · -- No word is the end of the input.
      refine .inl ?_
      cases behind with
      | nil => rfl
      | cons w ws =>
        have hw : w ∈ (Words.ofTokens Kind.isTrivia (tokens text)).words := by
          rw [hwords]
          simp
        exact absurd hend (kind_ne_endOfInput hw)
    · refine .inr (resumes_of_rounds hrest hbehind (fun n hn => (covers_parse text).2.tiled n ?_) hstart)
      refine List.mem_cons_of_mem _ ?_
      rw [h]
      simp [Element.descendantsIn, hn]

/-- A bracket that nothing opens is skipped. -/
theorem errors_resynchronize_behind_bracket : ∃ es e fs,
    (parse "package p\n)\nvar x int\n".toList).root.children = es ++ e.element :: fs ∧ e.kind = .error ∧
      (∃ x ∈ (parse "package p\n)\nvar x int\n".toList).errors, x.node = e.id) ∧
      ∃ before inside behind first,
        Resynchronized "package p\n)\nvar x int\n".toList es e fs before inside behind first := by
  have herror : (parse "package p\n)\nvar x int\n".toList).root.nodes.any (·.kind == .error) = true := by
    decide +kernel
  obtain ⟨e, hmem, hkind⟩ := List.any_eq_true.1 herror
  obtain ⟨es, fs, hchildren⟩ := List.append_of_mem (Node.mem_nodes.1 hmem)
  exact ⟨es, e, fs, hchildren, beq_iff_eq.1 hkind,
    errors_resynchronize _ hchildren (beq_iff_eq.1 hkind)⟩

end GoFront.Source
