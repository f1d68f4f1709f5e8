import GoFront.Parse.Source.File
import GoFront.Proofs.Parse.Growth
import GoFront.Proofs.Tree.Stem

/-!
# The form of what the source grammar grows

Of the nodes that the source grammar grows two things hold at all times: a binary operator binds as its strength says,
and a unary operator never has a binary expression as its operand (`Grouped`). Two more hold where nothing is reported:
no node stands for a stretch that was skipped and no operand is missing (`Clean`), and the brackets match. `Leaves`
carries them along a production. It names the brackets that are still open, so a production that opens a bracket and
closes it again ends where it started, and an error on the way excuses it from closing.

The rules of this file are those of `Parser.Grows` for sprouts of which `Leaves` holds.
-/

namespace GoFront.Source

open GoFront.Parser

/-! ## Brackets -/

/-- Brackets that open. -/
def isOpening : Kind → Bool
  | .leftParen | .leftBracket | .leftBrace => true
  | _ => false

/-- The bracket that a bracket closes. -/
def opening? : Kind → Option Kind
  | .rightParen => some .leftParen
  | .rightBracket => some .leftBracket
  | .rightBrace => some .leftBrace
  | _ => none

/-- The brackets that are open behind words of the given kinds, innermost first, if `st` are open in front of them; none
where a bracket closes another one than the innermost. -/
def nest (st : List Kind) : List Kind → Option (List Kind)
  | [] => some st
  | k :: ks =>
    if isOpening k then nest (k :: st) ks
    else match opening? k with
      | none => nest st ks
      | some o => if st.head? = some o then nest st.tail ks else none

lemma nest_append (st ks ls : List Kind) : nest st (ks ++ ls) = (nest st ks).bind fun st' => nest st' ls := by
  induction ks generalizing st with
  | nil => rfl
  | cons k ks ih =>
    simp only [List.cons_append, nest]
    split
    · exact ih _
    · split
      · exact ih _
      · split
        · exact ih _
        · rfl

/-- A word that is no bracket opens and closes nothing. -/
lemma nest_of_not_bracket {k : Kind} (h : isOpening k = false ∧ opening? k = none) (st : List Kind) :
    nest st [k] = some st := by
  rw [nest, h.1, if_neg Bool.false_ne_true, h.2]
  rfl

/-- What is open around words that close what they open does not matter. -/
lemma nest_inside {st st' ks : List Kind} (h : nest st ks = some st') (outer : List Kind) :
    nest (st ++ outer) ks = some (st' ++ outer) := by
  induction ks generalizing st with
  | nil =>
    obtain rfl : st = st' := Option.some.inj h
    rfl
  | cons k ks ih =>
    simp only [nest] at h ⊢
    split at h
    · next hk => rw [if_pos hk]; exact ih h
    · next hk =>
      rw [if_neg hk]
      split at h
      · exact ih h
      · split at h
        · next hhead =>
          obtain ⟨st, rfl⟩ := List.head?_eq_some_iff.1 hhead
          exact (if_pos rfl).trans (ih h)
        · exact absurd h (Option.some_ne_none st').symm

/-! ## Operators -/

/-- How strongly the operator of a binary expression binds. -/
def strength? : Stem → Option Nat
  | .branch .binaryExpression (_ :: .leaf c :: _) => precedence? c
  | _ => none

/-- How strongly the operator of a binary expression binds, if the operand behind it is there. -/
def wholeStrength? : Stem → Option Nat
  | .branch .binaryExpression [_, .leaf c, .branch _ _] => precedence? c
  | _ => none

lemma strength?_of_ne {k : Kind} (hk : k ≠ .binaryExpression) (ps : List Stem) : strength? (.branch k ps) = none := by
  unfold strength?
  split
  · next h => exact absurd (Stem.branch.inj h).1 hk
  · rfl

lemma wholeStrength?_of_ne {k : Kind} (hk : k ≠ .binaryExpression) (ps : List Stem) :
    wholeStrength? (.branch k ps) = none := by
  unfold wholeStrength?
  split
  · next h => exact absurd (Stem.branch.inj h).1 hk
  · rfl

/-- The parts of a binary expression: the operand before the operator does not bind less strongly, and the operand
behind it binds more strongly. -/
inductive Binds : List Stem → Prop
  /-- Both operands are there. -/
  | whole {k k' c : Kind} {ps ps' : List Stem} {n : Nat} (hn : precedence? c = some n)
    (hleft : ∀ m ∈ wholeStrength? (.branch k ps), n ≤ m) (hright : ∀ m ∈ strength? (.branch k' ps'), n < m) :
    Binds [.branch k ps, .leaf c, .branch k' ps']
  /-- The operand behind the operator is missing. -/
  | cut {k c : Kind} {ps : List Stem} {n : Nat} (hn : precedence? c = some n)
    (hleft : ∀ m ∈ wholeStrength? (.branch k ps), n ≤ m) : Binds [.branch k ps, .leaf c]

/-- A node that is no binary expression. -/
inductive IsOperand : Sprout → Prop
  | node {k : Kind} {cs : List Sprout} (hk : k ≠ .binaryExpression) : IsOperand (.node k cs)

/-! ## Forms -/

/-- The operands of a node are grouped by the strength of its operator. -/
def Grouped (k : Kind) (ps : List Stem) : Prop :=
  match k with
  | .binaryExpression => Binds ps
  | .unaryExpression => ∀ qs, .branch .binaryExpression qs ∉ ps
  | _ => True

/-- A node in which nothing is wrong: it stands for no error, and no operand is missing. -/
structure Clean (k : Kind) (ps : List Stem) : Prop where
  sound : k ≠ .error
  whole : k = .binaryExpression → ps.length = 3

/-- What is asked of the parts of a node of a kind. -/
structure Shaped (k : Kind) (cs : List Sprout) : Prop where
  grouped : Grouped k (Sprout.stemsIn cs)
  clean : Sprout.reportsIn cs = [] → Clean k (Sprout.stemsIn cs)

/-- Kinds of nodes of whose parts nothing is asked. -/
def isPlain (k : Kind) : Bool := k != .binaryExpression && k != .unaryExpression && k != .error

lemma shaped_of_isPlain {k : Kind} (hk : isPlain k = true) (cs : List Sprout) : Shaped k cs := by
  simp only [isPlain, Bool.and_eq_true, bne_iff_ne] at hk
  refine ⟨?_, fun _ => ⟨hk.2, fun h => absurd h hk.1.1⟩⟩
  unfold Grouped
  split
  · exact absurd rfl hk.1.1
  · exact absurd rfl hk.1.2
  · trivial

mutual

/-- A sprout all of whose nodes have parts as asked. -/
def Formed : Sprout → Prop
  | .word _ => True
  | .error _ _ => True
  | .node k cs => Shaped k cs ∧ FormedIn cs

/-- Sprouts all of whose nodes have parts as asked. -/
def FormedIn : List Sprout → Prop
  | [] => True
  | x :: xs => Formed x ∧ FormedIn xs

end

lemma formedIn_nil : FormedIn [] := trivial

lemma formedIn_iff {f : List Sprout} : FormedIn f ↔ ∀ x ∈ f, Formed x := by
  induction f with
  | nil => simp [FormedIn]
  | cons x f ih => rw [FormedIn, ih, List.forall_mem_cons]

lemma formedIn_reverse {f : List Sprout} (h : FormedIn f) : FormedIn f.reverse :=
  formedIn_iff.2 fun x hx => formedIn_iff.1 h x (List.mem_reverse.1 hx)

mutual

/-- The operands in a sprout of the right form are grouped. -/
lemma grouped_of_formed : (s : Sprout) → Formed s → Stem.AllIn Grouped s.stems
  | .word _, _ => ⟨trivial, trivial⟩
  | .error _ _, _ => trivial
  | .node _ cs, h => ⟨⟨h.1.grouped, groupedIn_of_formedIn cs h.2⟩, trivial⟩

lemma groupedIn_of_formedIn : (ss : List Sprout) → FormedIn ss → Stem.AllIn Grouped (Sprout.stemsIn ss)
  | [], _ => trivial
  | s :: ss, h => Stem.allIn_append.2 ⟨grouped_of_formed s h.1, groupedIn_of_formedIn ss h.2⟩

end

mutual

/-- Where nothing is reported in a sprout of the right form, nothing is wrong. -/
lemma clean_of_formed : (s : Sprout) → Formed s → s.reports = [] → Stem.AllIn Clean s.stems
  | .word _, _, _ => ⟨trivial, trivial⟩
  | .error _ _, _, _ => trivial
  | .node _ cs, h, hnil => ⟨⟨h.1.clean hnil, cleanIn_of_formedIn cs h.2 hnil⟩, trivial⟩

lemma cleanIn_of_formedIn : (ss : List Sprout) → FormedIn ss → Sprout.reportsIn ss = [] →
    Stem.AllIn Clean (Sprout.stemsIn ss)
  | [], _, _ => trivial
  | s :: ss, h, hnil => by
    rw [Sprout.reportsIn, List.append_eq_nil_iff] at hnil
    exact Stem.allIn_append.2 ⟨clean_of_formed s h.1 hnil.1, cleanIn_of_formedIn ss h.2 hnil.2⟩

end

/-- The kinds of the words in sprouts that follow one another. -/
def kindsIn (ss : List Sprout) : List Kind := (Sprout.wordsIn ss).map Word.kind

@[simp] lemma kindsIn_append (ss ts : List Sprout) : kindsIn (ss ++ ts) = kindsIn ss ++ kindsIn ts := by
  simp [kindsIn]

/-- Sprouts, last first, that have the right form. If they report nothing, the brackets `st` are open behind them. -/
structure Leaves (st : List Kind) (f : List Sprout) : Prop where
  formed : FormedIn f
  nested : Sprout.reportsIn f.reverse = [] → nest [] (kindsIn f.reverse) = some st

namespace Leaves

variable {st st' : List Kind} {f g : List Sprout} {k : Kind}

lemma nil : Leaves [] [] := ⟨trivial, fun _ => rfl⟩

lemma word {w : Word} (hf : Leaves st f) (h : nest st [w.kind] = some st') : Leaves st' (.word w :: f) := by
  refine ⟨⟨trivial, hf.formed⟩, fun hclean => ?_⟩
  rw [List.reverse_cons, Sprout.reportsIn_append, List.append_eq_nil_iff] at hclean
  rw [List.reverse_cons, kindsIn_append, nest_append, hf.nested hclean.1]
  exact h

/-- Where an error is reported, nothing is asked of the brackets. -/
lemma error {e : Problem} {r : Span} (hf : Leaves st f) : Leaves st' (.error e r :: f) := by
  refine ⟨⟨trivial, hf.formed⟩, fun hclean => ?_⟩
  rw [List.reverse_cons, Sprout.reportsIn_append, List.append_eq_nil_iff] at hclean
  exact absurd hclean.2 (List.cons_ne_nil _ _)

lemma append (hg : Leaves [] g) (hf : Leaves st f) : Leaves st (g ++ f) := by
  refine ⟨?_, fun hclean => ?_⟩
  · rw [formedIn_iff, List.forall_mem_append, ← formedIn_iff, ← formedIn_iff]
    exact ⟨hg.formed, hf.formed⟩
  · rw [List.reverse_append, Sprout.reportsIn_append, List.append_eq_nil_iff] at hclean
    rw [List.reverse_append, kindsIn_append, nest_append, hf.nested hclean.1]
    exact nest_inside (hg.nested hclean.2) st

lemma cons {x : Sprout} (hx : Leaves [] [x]) (hf : Leaves st f) : Leaves st (x :: f) := hx.append hf

/-- A node is a sprout that closes what it opens. -/
lemma node (hg : Leaves [] g) (hk : Shaped k g.reverse) : Leaves [] [.node k g.reverse] := by
  have hreports : Sprout.reportsIn [.node k g.reverse] = Sprout.reportsIn g.reverse := by
    simp [Sprout.reportsIn, Sprout.reports]
  have hkinds : kindsIn [.node k g.reverse] = kindsIn g.reverse := by
    simp [kindsIn, Sprout.wordsIn, Sprout.words]
  refine ⟨⟨⟨hk, formedIn_reverse hg.formed⟩, trivial⟩, fun hclean => ?_⟩
  rw [List.reverse_singleton, hreports] at hclean
  rw [List.reverse_singleton, hkinds]
  exact hg.nested hclean

/-- A node of a kind of whose parts nothing is asked. -/
lemma plainNode (hg : Leaves [] g) (hk : isPlain k = true) : Leaves [] [.node k g.reverse] :=
  hg.node (shaped_of_isPlain hk _)

end Leaves

/-! ## Rules -/

/-- The brackets `st` are open behind what was grown. -/
abbrev Ends {α : Type} (st : List Kind) : α → List Word → List Sprout → Prop := fun _ _ f => Leaves st f

namespace Leaves

variable {α β : Type} {st st' : List Kind} {ws : List Word} {f : List Sprout} {c : Kind} {Y N : Prop} {n : Nat}

/-- A question changes nothing. -/
lemma ask {q : Parser Bool} (hf : Leaves st f) (hq : Asks ws q Y N n) : Grows ws f q (Ends st) := by
  have h : Grows ws f (q >>= Pure.pure) (Ends st) := .ask hq (fun _ => .pure hf) fun _ => .pure hf
  rwa [bind_pure] at h

/-- A word of a known kind is taken. -/
lemma take {k : Unit → Parser β} {R : β → List Word → List Sprout → Prop} (hf : Leaves st f) (h : kindAt ws 0 = c)
    (hst : nest st [c] = some st') (hk : ∀ ws' f', Leaves st' f' → Grows ws' f' (k ()) R)
    (hc : autoParam (c ≠ .endOfInput) Rat.normalize._auto_1) : Grows ws f (advance >>= k) R :=
  Grows.take (K := (· = c)) h hc.symm fun _ ws' _ hw => hk ws' _ (hf.word (hw ▸ hst))

lemma advance (hf : Leaves st f) (h : kindAt ws 0 = c) (hst : nest st [c] = some st')
    (hc : autoParam (c ≠ .endOfInput) Rat.normalize._auto_1) : Grows ws f advance (Ends st') :=
  .advance_of_kindAt (K := (· = c)) h hc.symm fun _ _ _ hw => hf.word (hw ▸ hst)

/-- A word of a kind is taken, if it is there. -/
lemma ifEat {k : Bool → Parser β} {R : β → List Word → List Sprout → Prop} (hf : Leaves st f)
    (hst : nest st [c] = some st') (yes : ∀ ws' f', Leaves st' f' → Grows ws' f' (k true) R)
    (no : kindAt ws 0 ≠ c → Grows ws f (k false) R) (hc : autoParam (c ≠ .endOfInput) Rat.normalize._auto_1) :
    Grows ws f (Parser.eat c >>= k) R :=
  .ifEat hc (fun _ ws' _ hw => yes ws' _ (hf.word (hw ▸ hst))) no

lemma eat (hf : Leaves st f) (hst : nest st [c] = some st) (hc : autoParam (c ≠ .endOfInput) Rat.normalize._auto_1) :
    Grows ws f (Parser.eat c) (Ends st) := by
  have h : Grows ws f (Parser.eat c >>= Pure.pure) (Ends st) :=
    hf.ifEat hst (fun _ _ hf => .pure hf) (fun _ => .pure hf) hc
  rwa [bind_pure] at h

lemma fault {e : Problem} (hf : Leaves st f) : Grows ws f (Parser.error e) (Ends st') := .error fun _ => hf.error

lemma expected {what : String} (hf : Leaves st f) : Grows ws f (Parser.expected what) (Ends st') :=
  .expected fun _ _ => hf.error

/-- A word of a kind is taken, or reported missing. -/
lemma expect (hf : Leaves st f) (hst : nest st [c] = some st')
    (hc : autoParam (c ≠ .endOfInput) Rat.normalize._auto_1) : Grows ws f (Parser.expect c) (Ends st') :=
  hf.ifEat hst (fun _ _ hf => .pure hf) (fun _ => hf.expected) hc

lemma inNode {p : Parser Unit} (hf : Leaves st f) (hp : Grows ws [] p (Ends []))
    (hk : autoParam (isPlain c = true) Rat.normalize._auto_1) : Grows ws f (Parser.node c p) (Ends st) :=
  .node (hp.mono fun _ _ _ hg => (hg.plainNode hk).cons hf)

/-- A loop whose rounds leave open what was open. -/
lemma repeatWhile {body : Parser Bool} (hf : Leaves st f) (h : ∀ ws f, Leaves st f → Grows ws f body (Ends st)) :
    Grows ws f (Parser.repeatWhile body) (Ends st) :=
  .repeatWhile hf fun ws f hf => (h ws f hf).mono fun _ _ _ hf => ⟨fun _ => hf, fun _ => hf⟩

/-- A choice by what a parser answers that may also take words. -/
lemma otherwiseAfter {q : Parser Bool} {body : Parser Unit} (hq : Grows ws f q (Ends st))
    (no : ∀ ws f, Leaves st f → Grows ws f body (Ends st)) : Grows ws f (Parser.otherwise q body) (Ends st) :=
  hq.bind fun v ws f hf => by
    cases v with
    | true => exact .pure hf
    | false => exact no ws f hf

end Leaves

/-- Sprouts, last first, that have the right form and report something. -/
structure Reported (f : List Sprout) : Prop where
  formed : FormedIn f
  reports : Sprout.reportsIn f.reverse ≠ []

namespace Reported

variable {st : List Kind} {ws : List Word} {f g : List Sprout}

lemma leaves (hf : Reported f) : Leaves st f := ⟨hf.formed, fun hclean => absurd hclean hf.reports⟩

lemma cons {x : Sprout} (hx : Formed x) (hf : Reported f) : Reported (x :: f) := by
  refine ⟨⟨hx, hf.formed⟩, ?_⟩
  rw [List.reverse_cons, Sprout.reportsIn_append]
  exact List.append_ne_nil_of_left_ne_nil hf.reports _

lemma error {e : Problem} {r : Span} (hf : FormedIn f) : Reported (.error e r :: f) := by
  refine ⟨⟨trivial, hf⟩, ?_⟩
  rw [List.reverse_cons, Sprout.reportsIn_append]
  exact List.append_ne_nil_of_right_ne_nil _ (List.cons_ne_nil _ _)

/-- A word that is a lexical error is reported. -/
lemma word {w : Word} (hw : w.kind.isLexicalError = true) (hf : FormedIn f) : Reported (.word w :: f) := by
  refine ⟨⟨trivial, hf⟩, ?_⟩
  rw [List.reverse_cons, Sprout.reportsIn_append]
  refine List.append_ne_nil_of_right_ne_nil _ fun hnil => ?_
  rw [Sprout.reportsIn, Sprout.reportsIn, List.append_nil, Sprout.reports, Token.reports_eq_nil] at hnil
  exact absurd (hw.symm.trans hnil) Bool.noConfusion

/-- An error node around sprouts that report something. -/
lemma node (hg : Reported g) (hf : FormedIn f) : Reported (.node .error g.reverse :: f) := by
  have hshaped : Shaped .error g.reverse := ⟨trivial, fun hnil => absurd hnil hg.reports⟩
  refine ⟨⟨⟨hshaped, formedIn_reverse hg.formed⟩, hf⟩, ?_⟩
  rw [List.reverse_cons, Sprout.reportsIn_append]
  refine List.append_ne_nil_of_right_ne_nil _ ?_
  rw [Sprout.reportsIn, Sprout.reportsIn, List.append_nil]
  exact hg.reports

lemma fault {e : Problem} (hf : FormedIn f) : Grows ws f (Parser.error e) fun _ _ f' => Reported f' :=
  .error fun _ => error hf

lemma expected {what : String} (hf : FormedIn f) : Grows ws f (Parser.expected what) fun _ _ f' => Reported f' :=
  .expected fun _ _ => error hf

lemma advance (hf : Reported f) : Grows ws f Parser.advance fun _ _ f' => Reported f' := by
  cases ws with
  | nil => exact .advance_nil hf
  | cons w ws => exact .advance (hf.cons trivial)

end Reported

/-! ### Recovery -/

section

variable {st : List Kind} {ws : List Word} {f : List Sprout} {what : String}

lemma grows_expectedAndAdvance (hf : FormedIn f) :
    Grows ws f (expectedAndAdvance what) fun _ _ f' => ∃ cs, f' = .node .error cs :: f ∧ Reported f' := by
  refine .peek (.node ((Reported.fault formedIn_nil).bind fun _ _ _ hg => ?_))
  exact hg.advance.mono fun _ _ _ hg => ⟨_, rfl, hg.node hf⟩

lemma grows_expectedOr {recovery : KindSet} (hf : Leaves st f) : Grows ws f (expectedOr what recovery) (Ends st) := by
  refine .ite ((Asks.isAtAny recovery).or (Asks.isAt .endOfInput)) (fun _ => hf.expected) fun _ => ?_
  exact (grows_expectedAndAdvance hf.formed).mono fun _ _ _ ⟨_, _, h⟩ => h.leaves

lemma grows_orSkip {body next : Parser Unit} (hbody : Grows ws f body (Ends st))
    (hnext : ∀ ws f, Leaves st f → Grows ws f next (Ends st)) : Grows ws f (orSkip body what next) (Ends st) :=
  .orSkip (S := fun _ f' => Leaves st f') hbody
    (fun _ _ hf => (grows_expectedAndAdvance hf.formed).mono fun _ _ _ ⟨_, _, h⟩ => h.leaves) hnext

end

end GoFront.Source
