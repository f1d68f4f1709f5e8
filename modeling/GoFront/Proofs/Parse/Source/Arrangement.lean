import GoFront.Ast.Source
import GoFront.Parse.Source.File
import GoFront.Proofs.Parse.Growth
import GoFront.Proofs.Parse.Source.Basic
import GoFront.Proofs.Tree.Stem

/-!
# The arrangement of parts

Where nothing is reported below a node, its parts are arranged by its kind (`Arranged`): a call has what is called in
front of its arguments, a binary operator stands between two operands, and between the `if` and the block of an `if`
statement there is a header. What stands where an operand is expected need not be an expression. It can also be a type,
as in `make([]int, n)`.

`Single` and `Row` carry this along a production. The first is for a production that grows one sprout, the second for
the parts of a node that is not finished. Everything else that is grown only has to be such as a node may have among its
parts, whatever that is (`Inherited`, `Keeps`).
-/

namespace GoFront

namespace Stem

mutual

/-- The kinds of the words in a stem. -/
def leaves : Stem → List Kind
  | .leaf k => [k]
  | .branch _ ps => leavesIn ps

/-- The kinds of the words in stems that follow one another. -/
def leavesIn : List Stem → List Kind
  | [] => []
  | p :: ps => leaves p ++ leavesIn ps

end

lemma mem_leavesIn {c : Kind} {ps : List Stem} : c ∈ leavesIn ps ↔ ∃ p ∈ ps, c ∈ p.leaves := by
  induction ps with
  | nil => simp [leavesIn]
  | cons p ps ih => simp [leavesIn, ih]

/-- Among the words is one that is no semicolon. A semicolon can be without characters, other words cannot. -/
def Firm (ps : List Stem) : Prop := ∃ c ∈ leavesIn ps, c ≠ .semicolon

/-- A node of a kind that `q` allows. -/
inductive Fills (q : Kind → Bool) : Stem → Prop
  | branch {k : Kind} {ps : List Stem} (kind : q k = true) (firm : Firm ps) : Fills q (.branch k ps)

variable {q q' : Kind → Bool} {ps qs : List Stem} {s : Stem}

lemma Fills.mono (h : s.Fills q) (hq : ∀ k, q k = true → q' k = true) : s.Fills q' := by
  cases h with
  | branch kind firm => exact .branch (hq _ kind) firm

lemma Firm.subset (h : Firm ps) (hps : ps ⊆ qs) : Firm qs := by
  obtain ⟨c, hc, hne⟩ := h
  obtain ⟨p, hp, hcp⟩ := mem_leavesIn.1 hc
  exact ⟨c, mem_leavesIn.2 ⟨p, hps hp, hcp⟩, hne⟩

lemma Firm.append (h : Firm ps) (qs : List Stem) : Firm (ps ++ qs) := h.subset (List.subset_append_left ps qs)

lemma firm_of_leaf {c : Kind} (hc : c ≠ .semicolon) (h : .leaf c ∈ ps) : Firm ps :=
  ⟨c, mem_leavesIn.2 ⟨_, h, List.mem_singleton_self c⟩, hc⟩

lemma Fills.firm (h : s.Fills q) (hs : s ∈ ps) : Firm ps := by
  cases h with
  | branch _ firm =>
    obtain ⟨c, hc, hne⟩ := firm
    exact ⟨c, mem_leavesIn.2 ⟨_, hs, hc⟩, hne⟩

end Stem

namespace Sprout

@[simp] lemma stemsIn_append (ss ts : List Sprout) : stemsIn (ss ++ ts) = stemsIn ss ++ stemsIn ts := by
  induction ss with
  | nil => rfl
  | cons s ss ih => simp [stemsIn, ih]

end Sprout

/-- What is known of every answer. -/
lemma Parser.Grows.always {α : Type} {ws : List Word} {f : List Sprout} {p : Parser α}
    {Q : α → List Word → List Sprout → Prop} {R : α → Prop} (h : Grows ws f p Q) (hR : ∀ s, R (p.run s).1) :
    Grows ws f p fun v ws' f' => R v ∧ Q v ws' f' :=
  fun s hs hf hcalm => ⟨hR s, h s hs hf hcalm⟩

end GoFront

namespace GoFront.Source

open GoFront.Parser

/-! ## Kinds -/

/-- Kinds of nodes that are expressions. -/
def isExpression (k : Kind) : Bool :=
  k == .literal || k == .nameRef || k == .binaryExpression || k == .unaryExpression || k == .callExpression ||
    Expression.isOther k

/-- Kinds of types that can stand where an operand is expected. -/
def isOperandType : Kind → Bool
  | .functionType | .arrayType | .sliceType | .mapType | .channelType | .structType | .interfaceType => true
  | _ => false

/-- Kinds of nodes that can stand where an operand is expected. -/
def isOperand (k : Kind) : Bool := isExpression k || isOperandType k

/-- Kinds of values: an operand, or several with commas between them. -/
def isValue (k : Kind) : Bool := isOperand k || k == .expressionList

/-- Kinds of simple statements, and of the clause of a `range` loop where it is allowed. -/
def isSimple (allowRange : Bool) (k : Kind) : Bool :=
  isValue k || k == .assignStatement || k == .shortVariableDeclaration || k == .stepStatement || k == .sendStatement ||
    (allowRange && k == .rangeClause)

/-- Kinds of the types that start with a word of a kind. -/
def isTypeAt : Kind → Kind → Bool
  | .star, k => k == .pointerType
  | .leftBracket, k => k == .sliceType || k == .arrayType
  | .leftParen, k => k == .parenType
  | .mapKeyword, k => k == .mapType
  | .chanKeyword, k => k == .channelType
  | .arrow, k => k == .channelType
  | .funcKeyword, k => k == .functionType
  | .structKeyword, k => k == .structType
  | .interfaceKeyword, k => k == .interfaceType
  | _, k => k == .typeName

/-- Kinds of nodes whose parts are arranged. -/
def isArranged : Kind → Bool
  | .callExpression | .argumentList | .expressionList | .binaryExpression | .unaryExpression | .returnStatement
  | .ifStatement => true
  | _ => false

/-! ## Arrangements -/

/-- What can stand between the `if` and the block of an `if` statement. -/
inductive IfHeader : List Stem → Prop
  /-- One simple statement. -/
  | plain {s : Stem} (hs : s.Fills (isSimple false)) : IfHeader [s]
  /-- A semicolon, and a simple statement on each side of it, each of which may be missing. -/
  | split {init condition : Option Stem} (hinit : ∀ s ∈ init, s.Fills (isSimple false))
    (hcondition : ∀ s ∈ condition, s.Fills (isSimple false)) :
    IfHeader (init.toList ++ .leaf .semicolon :: condition.toList)

/-- What can stand behind the block of an `if` statement. -/
inductive IfRest : List Stem → Prop
  | none : IfRest []
  /-- Another `if` statement or a block. -/
  | other {s : Stem} (hs : s.Fills fun k => k == .ifStatement || k == .block) : IfRest [.leaf .elseKeyword, s]

/-- The arrangement of parts of a node of a kind. -/
def Arranged : Kind → List Stem → Prop
  | .callExpression, ps => ∃ f as, ps = [f, as] ∧ f.Fills isOperand ∧ as.Fills (· == .argumentList)
  | .argumentList, ps | .expressionList, ps => ∀ k qs, .branch k qs ∈ ps → isOperand k = true
  | .binaryExpression, ps => ∃ l c r, ps = [l, .leaf c, r] ∧ l.Fills isOperand ∧ r.Fills isOperand
  | .unaryExpression, ps => ∃ c x, ps = [.leaf c, x] ∧ x.Fills isOperand
  | .returnStatement, ps => ∃ c, ps = [.leaf c] ∨ ∃ v, ps = [.leaf c, v] ∧ v.Fills isValue
  | .ifStatement, ps => ∃ header body rest, ps = .leaf .ifKeyword :: (header ++ body :: rest) ∧ IfHeader header ∧
      body.Fills (· == .block) ∧ IfRest rest
  | _, _ => True

lemma arranged_of_not_isArranged {k : Kind} (hk : isArranged k = false) (ps : List Stem) : Arranged k ps := by
  unfold Arranged
  split
  iterate 7 exact absurd hk (by decide)
  trivial

/-- What the nodes that are grown hand on from their parts. The parts are arranged where nothing is reported; `if`
statements are left out, since they are counted. -/
structure Inherited (P : Sprout → Prop) : Prop where
  word : ∀ w, P (.word w)
  error : ∀ e r, P (.error e r)
  node : ∀ {k cs}, k ≠ .ifStatement → (∀ c ∈ cs, P c) →
    (Sprout.reportsIn cs = [] → Arranged k (Sprout.stemsIn cs)) → P (.node k cs)

/-! ## What was grown -/

/-- Sprouts with `P` were grown on top of `f`. -/
def Extends (P : Sprout → Prop) (f f' : List Sprout) : Prop := ∃ ys, f' = ys ++ f ∧ ∀ y ∈ ys, P y

/-- One sprout with `P` was grown on top of `f`; if it reports nothing, it is a node of a kind that `q` allows. -/
def Single (P : Sprout → Prop) (q : Kind → Bool) (f f' : List Sprout) : Prop :=
  ∃ x, f' = x :: f ∧ P x ∧ (x.reports = [] → ∃ s : Stem, x.stems = [s] ∧ s.Fills q)

/-- One sprout was grown, or nothing if there is no answer. -/
def Meets (P : Sprout → Prop) (q : Kind → Bool) (f : List Sprout) : Option Kind → List Word → List Sprout → Prop
  | none, _, f' => f' = f
  | some _, _, f' => Single P q f f'

/-- The parts of a node that is being grown, last first. -/
structure Row (P : Sprout → Prop) (A : List Stem → Prop) (f : List Sprout) : Prop where
  all : ∀ x ∈ f, P x
  /-- Where they report nothing, they are arranged as asked. -/
  arranged : Sprout.reportsIn f.reverse = [] → A (Sprout.stemsIn f.reverse)

section

variable {P P' : Sprout → Prop} {q q' : Kind → Bool} {A A' : List Stem → Prop} {f f' f'' : List Sprout}

lemma Extends.refl (f : List Sprout) : Extends P f f := ⟨[], rfl, fun _ hx => absurd hx List.not_mem_nil⟩

lemma Extends.trans (h : Extends P f f') (h' : Extends P f' f'') : Extends P f f'' := by
  obtain ⟨ys, rfl, hys⟩ := h
  obtain ⟨zs, rfl, hzs⟩ := h'
  exact ⟨zs ++ ys, (List.append_assoc zs ys f).symm, List.forall_mem_append.2 ⟨hzs, hys⟩⟩

lemma Extends.cons {x : Sprout} (h : Extends P f f') (hx : P x) : Extends P f (x :: f') :=
  h.trans ⟨[x], rfl, List.forall_mem_singleton.2 hx⟩

lemma Extends.mono (h : Extends P f f') (hP : ∀ x, P x → P' x) : Extends P' f f' := by
  obtain ⟨ys, rfl, hys⟩ := h
  exact ⟨ys, rfl, fun x hx => hP x (hys x hx)⟩

lemma Extends.all (h : Extends P [] f) : ∀ x ∈ f, P x := by
  obtain ⟨ys, rfl, hys⟩ := h
  rwa [List.append_nil]

lemma Single.extends (h : Single P q f f') : Extends P f f' := by
  obtain ⟨x, rfl, hx, -⟩ := h
  exact (Extends.refl f).cons hx

lemma Single.mono (h : Single P q f f') (hP : ∀ x, P x → P' x) (hq : ∀ k, q k = true → q' k = true) :
    Single P' q' f f' := by
  obtain ⟨x, rfl, hx, hfills⟩ := h
  exact ⟨x, rfl, hP x hx, fun hclean => (hfills hclean).imp fun _ hs => ⟨hs.1, hs.2.mono hq⟩⟩

lemma Single.allow (h : Single P q f f') (hq : ∀ k, q k = true → q' k = true) : Single P q' f f' :=
  h.mono (fun _ hx => hx) hq

/-- A sprout that reports something is as good as any other. -/
lemma Single.of_reports {x : Sprout} (hx : P x) (hreports : x.reports ≠ []) : Single P q f (x :: f) :=
  ⟨x, rfl, hx, fun hclean => absurd hclean hreports⟩

lemma Meets.extends {v : Option Kind} {ws : List Word} (h : Meets P q f v ws f') : Extends P f f' := by
  cases v with
  | none =>
    obtain rfl : f' = f := h
    exact .refl f'
  | some _ => exact Single.extends h

lemma Meets.mono {v : Option Kind} {ws : List Word} (h : Meets P q f v ws f') (hP : ∀ x, P x → P' x) :
    Meets P' q f v ws f' := by
  cases v with
  | none => exact h
  | some _ => exact Single.mono h hP fun _ hk => hk

/-! ### Rows -/

namespace Row

lemma mono (h : Row P A f) (hA : ∀ ps, A ps → A' ps) : Row P A' f := ⟨h.all, fun hclean => hA _ (h.arranged hclean)⟩

lemma nil (h : A []) : Row P A [] := ⟨fun _ hx => absurd hx List.not_mem_nil, fun _ => h⟩

/-- A word is put behind the parts. -/
lemma word {w : Word} (h : Row P A f) (hw : P (.word w)) (hA : ∀ ps, A ps → A' (ps ++ [.leaf w.kind])) :
    Row P A' (.word w :: f) := by
  refine ⟨List.forall_mem_cons.2 ⟨hw, h.all⟩, fun hclean => ?_⟩
  rw [List.reverse_cons, Sprout.reportsIn_append, List.append_eq_nil_iff] at hclean
  rw [List.reverse_cons, Sprout.stemsIn_append]
  exact hA _ (h.arranged hclean.1)

/-- Where an error is reported, nothing is asked of the arrangement. -/
lemma error {e : Problem} {r : Span} (h : Row P A f) (he : P (.error e r)) : Row P A' (.error e r :: f) := by
  refine ⟨List.forall_mem_cons.2 ⟨he, h.all⟩, fun hclean => ?_⟩
  rw [List.reverse_cons, Sprout.reportsIn_append, List.append_eq_nil_iff] at hclean
  exact absurd hclean.2 (List.cons_ne_nil _ _)

/-- One sprout is put behind the parts. -/
lemma single (h : Row P A f) (hs : Single P q f f') (hA : ∀ ps s, A ps → s.Fills q → A' (ps ++ [s])) : Row P A' f' := by
  obtain ⟨x, rfl, hx, hfills⟩ := hs
  refine ⟨List.forall_mem_cons.2 ⟨hx, h.all⟩, fun hclean => ?_⟩
  rw [List.reverse_cons, Sprout.reportsIn_append, List.append_eq_nil_iff, Sprout.reportsIn, Sprout.reportsIn,
    List.append_nil] at hclean
  obtain ⟨s, hstems, hs⟩ := hfills hclean.2
  rw [List.reverse_cons, Sprout.stemsIn_append, Sprout.stemsIn, Sprout.stemsIn, List.append_nil, hstems]
  exact hA _ s (h.arranged hclean.1) hs

/-- Sprouts are put behind the parts. -/
lemma append (h : Row P A f) (hf : Extends P f f') (hA : ∀ ps qs, A ps → A' (ps ++ qs)) : Row P A' f' := by
  obtain ⟨ys, rfl, hys⟩ := hf
  refine ⟨List.forall_mem_append.2 ⟨hys, h.all⟩, fun hclean => ?_⟩
  rw [List.reverse_append, Sprout.reportsIn_append, List.append_eq_nil_iff] at hclean
  rw [List.reverse_append, Sprout.stemsIn_append]
  exact hA _ _ (h.arranged hclean.1)

/-- One sprout alone. -/
lemma of_single (h : Single P q f f') : ∃ x, f' = x :: f ∧ Row P (fun ps => ∃ s, ps = [s] ∧ s.Fills q) [x] := by
  obtain ⟨x, rfl, hx, hfills⟩ := h
  have hrow : Row P (fun ps : List Stem => ps = []) [] := .nil rfl
  exact ⟨x, rfl, hrow.single ⟨x, rfl, hx, hfills⟩ fun ps s hps hs => ⟨s, by rw [hps]; rfl, hs⟩⟩

/-- A node around the parts. -/
lemma node {k : Kind} (h : Row P (Arranged k) f) (hP : Inherited P) (hk : k ≠ .ifStatement) : P (.node k f.reverse) :=
  hP.node hk (fun x hx => h.all x (List.mem_reverse.1 hx)) h.arranged

/-- A node around the parts is one sprout. -/
lemma toSingle {k : Kind} (h : Row P (fun ps => Arranged k ps ∧ Stem.Firm ps) f') (hx : P (.node k f'.reverse))
    (hq : q k = true) : Single P q f (.node k f'.reverse :: f) :=
  ⟨_, rfl, hx, fun hclean => ⟨_, rfl, .branch hq (h.arranged hclean).2⟩⟩

end Row

end

/-! ## Rules -/

section

variable {α β : Type} {P : Sprout → Prop} {q q' : Kind → Bool} {ws : List Word} {f f' : List Sprout}

/-- A parser grows sprouts with `P`. -/
def Keeps (P : Sprout → Prop) (p : Parser α) : Prop := ∀ ws f, Grows ws f p fun _ _ f' => Extends P f f'

namespace Keeps

variable {p : Parser α} {k : α → Parser β} {body : Parser Unit}

lemma mono {P' : Sprout → Prop} (h : Keeps P p) (hP : ∀ x, P x → P' x) : Keeps P' p :=
  fun ws f => (h ws f).mono fun _ _ _ hf => hf.mono hP

lemma pure (v : α) : Keeps P (Pure.pure v) := fun _ f => .pure (.refl f)

lemma bind (hp : Keeps P p) (hk : ∀ v, Keeps P (k v)) : Keeps P (p >>= k) :=
  fun ws f => (hp ws f).bind fun v ws' f' hf => (hk v ws' f').mono fun _ _ _ hf' => hf.trans hf'

lemma map (hp : Keeps P p) {g : α → β} : Keeps P (g <$> p) := fun ws f => (hp ws f).map fun _ _ _ hf => hf

lemma discard (hp : Keeps P p) : Keeps P (Functor.discard p) := hp.map

lemma fail {e : Panic} : Keeps P (Parser.fail e) := fun _ _ => .fail

/-! ### Looking -/

lemma nth {i : Nat} {k : Kind → Parser β} (h : ∀ c, Keeps P (k c)) : Keeps P (Parser.nth i >>= k) :=
  fun ws f => .nth (h _ ws f)

lemma peek {k : Kind → Parser β} (h : ∀ c, Keeps P (k c)) : Keeps P (Parser.peek >>= k) := nth h

lemma look {σ : Type} {g : Parser.State → σ} {k : σ → Parser β} (h : ∀ v, Keeps P (k v)) :
    Keeps P (Parser.look g >>= k) := fun ws f => .look fun v => h v ws f

lemma ask {q : Parser Bool} {Y N : List Word → Prop} {n : Nat} (hq : ∀ ws, Asks ws q (Y ws) (N ws) n) : Keeps P q := by
  intro ws f
  have h : Grows ws f (q >>= Pure.pure) fun _ _ f' => Extends P f f' :=
    .ask (hq ws) (fun _ => .pure (.refl f)) fun _ => .pure (.refl f)
  rwa [bind_pure] at h

lemma isAt {c : Kind} : Keeps P (Parser.isAt c) := ask fun _ => .isAt c

lemma isAtAny {ks : KindSet} : Keeps P (Parser.isAtAny ks) := ask fun _ => .isAtAny ks

/-! ### Choices -/

lemma choose {q : Parser Bool} {yes no : Parser α} (hq : Keeps P q) (hyes : Keeps P yes) (hno : Keeps P no) :
    Keeps P (do if ← q then yes else no) :=
  hq.bind fun v => by
    cases v with
    | true => exact hyes
    | false => exact hno

lemma given {q : Parser Bool} (hq : Keeps P q) (h : Keeps P body) : Keeps P (Parser.given q body) :=
  hq.choose h (pure ())

lemma otherwise {q : Parser Bool} (hq : Keeps P q) (h : Keeps P body) : Keeps P (Parser.otherwise q body) :=
  hq.choose (pure ()) h

/-! ### Repetition -/

lemma withComposites {v : Bool} (h : Keeps P p) : Keeps P (Parser.withComposites v p) :=
  fun ws f => .withComposites (h ws f)

lemma loop {σ : Type} {body : σ → Parser (ForInStep σ)} {x : σ} (h : ∀ x, Keeps P (body x)) :
    Keeps P (Parser.loop x body) := fun ws f =>
  .loop (I := fun _ _ f' => Extends P f f') (.refl f) fun x ws' f' hf => (h x ws' f').mono fun v _ _ hf' => by
    cases v <;> exact hf.trans hf'

lemma repeatWhile {body : Parser Bool} (h : Keeps P body) : Keeps P (Parser.repeatWhile body) :=
  loop fun _ => h.choose (pure _) (pure _)

/-! ### Words, errors and nodes -/

variable (hP : Inherited P)

include hP

lemma advance : Keeps P Parser.advance := by
  intro ws f
  cases ws with
  | nil => exact .advance_nil (.refl f)
  | cons w ws => exact .advance ((Extends.refl f).cons (hP.word w))

lemma eat (c : Kind) : Keeps P (Parser.eat c) := isAt.choose ((advance hP).bind fun _ => pure true) (pure false)

lemma error {e : Problem} : Keeps P (Parser.error e) := fun _ f => .error fun r => (Extends.refl f).cons (hP.error e r)

lemma expected {what : String} : Keeps P (Parser.expected what) := peek fun _ => error hP

lemma expect (c : Kind) : Keeps P (Parser.expect c) := (eat hP c).choose (pure ()) (expected hP)

/-- A node around sprouts of which nothing is asked as its parts. -/
lemma node_of_extends {c : Kind} {ys : List Sprout} (h : Extends P [] ys) (hc : isArranged c = false) :
    P (.node c ys.reverse) := by
  refine hP.node ?_ (fun x hx => h.all x (List.mem_reverse.1 hx)) fun _ => arranged_of_not_isArranged hc _
  rintro rfl
  exact absurd hc (by decide)

/-- A node of whose parts nothing is asked. -/
lemma plain {c : Kind} (hc : isArranged c = false) (h : Keeps P body) : Keeps P (Parser.node c body) := by
  intro ws f
  exact .node ((h ws []).mono fun _ _ _ hg => (Extends.refl f).cons (node_of_extends hP hg hc))

lemma expectedAndAdvance {what : String} : Keeps P (Parser.expectedAndAdvance what) :=
  peek fun _ => plain hP rfl ((error hP).bind fun _ => advance hP)

lemma orSkip {next : Parser Unit} {what : String} (hbody : Keeps P body) (hnext : Keeps P next) :
    Keeps P (Parser.orSkip body what next) := by
  refine look fun _ => hbody.bind fun _ => look fun _ => ?_
  split
  · exact expectedAndAdvance hP
  · exact hnext

end Keeps

/-! ### One sprout -/

/-- What follows the first parts of a row. -/
lemma Row.keeps {A A' : List Stem → Prop} {p : Parser α} (h : Row P A f) (hp : Keeps P p)
    (hA : ∀ ps qs, A ps → A' (ps ++ qs)) : Grows ws f p fun _ _ f' => Row P A' f' :=
  (hp ws f).mono fun _ _ _ hf => h.append hf hA

variable (hP : Inherited P)

include hP

/-- A row of parts that starts with a word. -/
lemma row_word {w : Word} : Row P (· = [.leaf w.kind]) [.word w] :=
  (Row.nil (P := P) (A := (· = [])) rfl).word (hP.word w) fun _ h => by rw [h]; rfl

/-- A node that is grown on its own, of whose parts nothing is asked but that the first is a word. -/
lemma single_nodeBy {K : Kind → Prop} {k : Unit → Parser Kind} (hK : K (kindAt ws 0)) (hend : ¬ K .endOfInput)
    (hsemicolon : ¬ K .semicolon) (hk : Keeps P (k ()))
    (hq : ∀ s, isArranged ((k ()).run s).1 = false ∧ q ((k ()).run s).1 = true) :
    Grows ws f (nodeBy (advance >>= k)) fun _ _ => Single P q f := by
  refine .nodeBy (.take hK hend fun w ws' _ hw => ?_)
  refine ((hk ws' [.word w]).always (R := fun c => isArranged c = false ∧ q c = true) hq).mono fun c _ g ⟨hc, hg⟩ => ?_
  have hrow : Row P (fun ps => Arranged c ps ∧ Stem.Firm ps) g :=
    (row_word hP).append hg fun ps qs hps => by
      subst hps
      refine ⟨arranged_of_not_isArranged hc.1 _, Stem.firm_of_leaf (c := w.kind) ?_ List.mem_cons_self⟩
      rintro hkind
      exact hsemicolon (hkind ▸ hw)
  refine hrow.toSingle ((hrow.mono fun _ h => h.1).node hP ?_) hc.2
  rintro rfl
  exact absurd hc.1 (by decide)

/-- A node that is grown around the last sprout. -/
lemma single_wrapBy {p : Parser Kind} (hf : Single P q f f')
    (h : ∀ x, Row P (fun ps => ∃ s, ps = [s] ∧ s.Fills q) [x] → Grows ws [x] p fun k _ g =>
      (k ≠ .ifStatement ∧ q' k = true) ∧ Row P (fun ps => Arranged k ps ∧ Stem.Firm ps) g) :
    Grows ws f' (wrapBy p) fun _ _ => Single P q' f := by
  obtain ⟨x, rfl, hrow⟩ := Row.of_single hf
  refine .wrapBy ((h x hrow).mono fun k _ g ⟨hk, hg⟩ => hg.toSingle ?_ hk.2)
  exact (hg.mono fun _ h => h.1).node hP hk.1

/-- A node that is grown around the last sprout, and of whose parts nothing is asked. -/
lemma single_wrapPlain {p : Parser Kind} (hf : Single P q f f') (hp : Keeps P p)
    (hq : ∀ s, isArranged (p.run s).1 = false ∧ q' (p.run s).1 = true) :
    Grows ws f' (wrapBy p) fun _ _ => Single P q' f := by
  refine single_wrapBy hP hf fun x hrow =>
    ((hp ws [x]).always (R := fun c => isArranged c = false ∧ q' c = true) hq).mono fun k _ g ⟨hk, hg⟩ => ?_
  refine ⟨⟨?_, hk.2⟩, hrow.append hg fun ps qs hps => ?_⟩
  · rintro rfl
    exact absurd hk.1 (by decide)
  · obtain ⟨s, rfl, hs⟩ := hps
    exact ⟨arranged_of_not_isArranged hk.1 _, (hs.firm (List.mem_singleton_self s)).append qs⟩

/-- A node of a kind around the last sprout. -/
lemma single_wrap {c : Kind} {body : Parser Unit} (hc : isArranged c = false) (hf : Single P q f f')
    (h : Keeps P body) : Grows ws f' (wrap c body) fun _ _ => Single P (fun _ => true) f := by
  have hwrap : Grows ws f' (wrapBy (body >>= fun _ => Pure.pure c)) fun _ _ => Single P (fun _ => true) f :=
    single_wrapPlain hP hf (h.bind fun _ => .pure c) fun _ => ⟨hc, rfl⟩
  exact hwrap.discard fun _ _ _ hf => hf

/-- An error node that starts with its error. -/
lemma single_error {w : List Word} {e : Problem} {p : Parser Unit} (hp : Keeps P p) :
    Grows w f (nodeBy do
      error e
      p
      pure .error) fun _ _ => Single P q f := by
  refine .nodeBy (.bind (Q := fun _ _ g => Row P (fun _ => False) g) (.error fun r => ?_) fun _ ws' g hg => ?_)
  · exact (Row.nil (P := P) (A := fun _ => True) trivial).error (hP.error e r)
  · refine .andPure (Q := fun _ _ g => Row P (fun _ => False) g) (hg.keeps hp fun _ _ h => h) fun _ _ g hg => ?_
    have hnode : P (.node .error g.reverse) := (hg.mono fun _ h => h.elim).node hP (by decide)
    exact ⟨_, rfl, hnode, fun hclean => (hg.arranged hclean).elim⟩

/-- What stands in the place of something that is missing. -/
lemma single_expectedOr {what : String} {recovery : KindSet} :
    Grows ws f (expectedOr what recovery) fun _ _ => Single P q f := by
  refine .ite ((Asks.isAtAny recovery).or (Asks.isAt .endOfInput)) (fun _ => ?_) fun _ => .peek ?_
  · exact .expected fun k r => .of_reports (hP.error _ r) (List.cons_ne_nil _ _)
  · exact Grows.discard (single_error hP (.advance hP)) fun _ _ _ h => h

end

end GoFront.Source
