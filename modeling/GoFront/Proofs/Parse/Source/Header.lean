import GoFront.Parse.Source.File
import GoFront.Proofs.Parse.Bearing
import GoFront.Proofs.Parse.Source.Basic
import GoFront.Proofs.Tree.Stem

/-!
# Composite literals in the headers of statements

Between the keyword of an `if`, `for` or `switch` and its block, a brace behind the plain name of a type opens the block
and not a literal, unless brackets stand around the name. A part of a tree is `Exposed` if it holds a literal with a
plain name and nothing around that literal shields it. `Headed` says of a statement with a header that no part of it is
exposed, but for the clauses of a `switch`.

While a parser grows sprouts, they are bound for a place (`Place`): where literals are not allowed, nothing that is
exposed may be grown (`Parser.Shelters`). The rules of this file are those of `Parser.Bears` for sprouts that fit their
place.
-/

namespace GoFront.Source

open GoFront.Parser

/-! ## Exposed literals -/

/-- Statements with a header. -/
def hasHeader : Kind → Bool
  | .ifStatement | .forStatement | .switchStatement => true
  | _ => false

/-- Nodes inside which literals are allowed. -/
def isShield : Kind → Bool
  | .parenExpression | .argumentList | .literalValue | .block => true
  | _ => false

/-- Nodes behind whose first operand literals are allowed. -/
def isSubscript : Kind → Bool
  | .indexExpression | .sliceExpression => true
  | _ => false

/-- Plain names of types. -/
def isPlainName : Kind → Bool
  | .nameRef | .selectorExpression | .indexExpression => true
  | _ => false

/-- The first node among the parts of a node. -/
def firstNode? (ps : List Stem) : Option Stem := ps.find? fun
  | .leaf _ => false
  | .branch _ _ => true

/-- A literal that starts with the plain name of a type, or a node in which nothing shields one. -/
inductive Exposed : Stem → Prop
  /-- A literal with a plain name. -/
  | literal {k : Kind} {ps qs : List Stem} (first : firstNode? ps = some (.branch k qs)) (hk : isPlainName k = true) :
    Exposed (.branch .compositeLiteral ps)
  /-- A node that has it among its parts. -/
  | inner {k : Kind} {p : Stem} {ps : List Stem} (hheader : hasHeader k = false) (hshield : isShield k = false)
    (hsubscript : isSubscript k = false) (hp : p ∈ ps) (h : Exposed p) : Exposed (.branch k ps)
  /-- A subscript that has it in its first operand. -/
  | operand {k : Kind} {p : Stem} {ps : List Stem} (hk : isSubscript k = true) (first : firstNode? ps = some p)
    (h : Exposed p) : Exposed (.branch k ps)

/-- A clause of a `switch`. -/
def IsCase (p : Stem) : Prop := ∃ ps, p = .branch .caseClause ps

/-- The header of a statement exposes no literal. -/
def Headed (k : Kind) (ps : List Stem) : Prop := hasHeader k = true → ∀ p ∈ ps, Exposed p → IsCase p

section

variable {k : Kind} {ps : List Stem}

lemma mem_of_firstNode? {p : Stem} (h : firstNode? ps = some p) : p ∈ ps := List.mem_of_find?_eq_some h

lemma not_exposed_leaf : ¬ Exposed (.leaf k) := nofun

/-- A node that is no literal exposes only what its parts do. -/
lemma not_exposed_branch (hk : k ≠ .compositeLiteral) (h : ∀ p ∈ ps, ¬ Exposed p) : ¬ Exposed (.branch k ps) := by
  intro hexposed
  cases hexposed with
  | literal => exact hk rfl
  | inner _ _ _ hp hpart => exact h _ hp hpart
  | operand _ first hpart => exact h _ (mem_of_firstNode? first) hpart

lemma not_exposed_of_shield (hk : isShield k = true) : ¬ Exposed (.branch k ps) := by
  intro hexposed
  cases hexposed with
  | literal => exact absurd hk (by decide)
  | inner _ hshield => exact absurd (hk.symm.trans hshield) (by decide)
  | operand hsubscript => revert hk hsubscript; cases k <;> decide

lemma not_exposed_of_header (hk : hasHeader k = true) : ¬ Exposed (.branch k ps) := by
  intro hexposed
  cases hexposed with
  | literal => exact absurd hk (by decide)
  | inner hheader => exact absurd (hk.symm.trans hheader) (by decide)
  | operand hsubscript => revert hk hsubscript; cases k <;> decide

/-- A subscript exposes only what its first operand does. -/
lemma not_exposed_of_subscript {p : Stem} (hk : isSubscript k = true) (hp : firstNode? ps = some p)
    (h : ¬ Exposed p) : ¬ Exposed (.branch k ps) := by
  intro hexposed
  cases hexposed with
  | literal => exact absurd hk (by decide)
  | inner _ _ hsubscript => exact absurd (hk.symm.trans hsubscript) (by decide)
  | operand _ first hpart =>
    obtain rfl := Option.some.inj (hp.symm.trans first)
    exact h hpart

end

/-! ## Places -/

/-- Where sprouts are grown. -/
inductive Place where
  /-- Where literals are allowed. -/
  | free
  /-- Where they are not. -/
  | header
  /-- Among the parts of a statement with a header. -/
  | statement

/-- What may stand in a place. -/
def Place.Admits : Place → Stem → Prop
  | .free, _ => True
  | .header, p => ¬ Exposed p
  | .statement, p => Exposed p → IsCase p

/-- The place where a parser grows what it may. -/
def placeOf : (allowed : Bool) → Place
  | true => .free
  | false => .header

/-- A sprout that may stand in a place, and in which no header exposes a literal. -/
def Fits (pl : Place) (x : Sprout) : Prop := ∀ p ∈ x.stems, p.All Headed ∧ pl.Admits p

/-- Sprouts that may stand in a place. -/
def FitsIn (pl : Place) (f : List Sprout) : Prop := ∀ x ∈ f, Fits pl x

/-- Kinds of nodes that have no header and are no literals. -/
def isOrdinary (k : Kind) : Bool := !hasHeader k && k != .compositeLiteral

section

variable {pl : Place} {k : Kind} {cs f : List Sprout} {x : Sprout}

lemma mem_stemsIn {p : Stem} {ss : List Sprout} : p ∈ Sprout.stemsIn ss ↔ ∃ s ∈ ss, p ∈ s.stems := by
  induction ss with
  | nil => simp [Sprout.stemsIn]
  | cons s ss ih => simp [Sprout.stemsIn, ih]

lemma FitsIn.all (h : FitsIn pl cs) : ∀ p ∈ Sprout.stemsIn cs, p.All Headed ∧ pl.Admits p := by
  intro p hp
  obtain ⟨x, hx, hp⟩ := mem_stemsIn.1 hp
  exact h x hx p hp

lemma FitsIn.reverse (h : FitsIn pl f) : FitsIn pl f.reverse := fun x hx => h x (List.mem_reverse.1 hx)

lemma FitsIn.append {f' : List Sprout} (h : FitsIn pl f) (h' : FitsIn pl f') : FitsIn pl (f ++ f') :=
  List.forall_mem_append.2 ⟨h, h'⟩

lemma fitsIn_singleton : FitsIn pl [x] ↔ Fits pl x := List.forall_mem_singleton

/-- Words may stand anywhere. -/
lemma fits_word {w : Word} : Fits pl (.word w) := by
  refine List.forall_mem_singleton.2 ⟨trivial, ?_⟩
  cases pl with
  | free => trivial
  | header => exact not_exposed_leaf
  | statement => exact fun h => absurd h not_exposed_leaf

lemma fits_error {e : Problem} {r : Span} : Fits pl (.error e r) := by
  intro p hp
  exact absurd hp List.not_mem_nil

lemma Fits.free (h : Fits pl x) : Fits .free x := fun p hp => ⟨(h p hp).1, trivial⟩

/-- What exposes nothing may stand anywhere. -/
lemma Fits.of_header (h : Fits .header x) : Fits pl x := by
  refine fun p hp => ⟨(h p hp).1, ?_⟩
  cases pl with
  | free => trivial
  | header => exact (h p hp).2
  | statement => exact fun hexposed => absurd hexposed (h p hp).2

/-- A node whose parts are sound is sound if its header exposes nothing. -/
lemma fits_branch (h : FitsIn .free cs) (hhead : Headed k (Sprout.stemsIn cs))
    (hpl : pl.Admits (.branch k (Sprout.stemsIn cs))) : Fits pl (.node k cs) :=
  List.forall_mem_singleton.2 ⟨⟨hhead, Stem.allIn_iff.2 fun p hp => (h.all p hp).1⟩, hpl⟩

lemma headed_of_not_hasHeader (hk : hasHeader k = false) (ps : List Stem) : Headed k ps :=
  fun h => absurd (hk.symm.trans h) (by decide)

lemma FitsIn.free (h : FitsIn pl f) : FitsIn .free f := fun x hx => (h x hx).free

/-- An ordinary node may stand where its parts may. -/
lemma fits_ordinary {allowed : Bool} (hk : isOrdinary k = true) (h : FitsIn (placeOf allowed) cs) :
    Fits (placeOf allowed) (.node k cs) := by
  simp only [isOrdinary, Bool.and_eq_true, Bool.not_eq_true', bne_iff_ne] at hk
  refine fits_branch h.free (headed_of_not_hasHeader hk.1 _) ?_
  cases allowed with
  | true => trivial
  | false => exact not_exposed_branch hk.2 fun p hp => (h.all p hp).2

/-- A shield may stand anywhere. -/
lemma fits_shield (hk : isShield k = true) (h : FitsIn .free cs) : Fits pl (.node k cs) := by
  have hheader : hasHeader k = false := by revert hk; cases k <;> decide
  have hfits : Fits .header (.node k cs) :=
    fits_branch h (headed_of_not_hasHeader hheader _) (not_exposed_of_shield hk)
  exact hfits.of_header

/-- A statement with a header may stand anywhere. -/
lemma fits_statement (hk : hasHeader k = true) (h : FitsIn .statement cs) : Fits pl (.node k cs) := by
  have hfits : Fits .header (.node k cs) :=
    fits_branch h.free (fun _ p hp => (h.all p hp).2) (not_exposed_of_header hk)
  exact hfits.of_header

/-- A subscript may stand where its first operand may. -/
lemma fits_subscript {allowed : Bool} {k' : Kind} {cs' : List Sprout} (hk : isSubscript k = true)
    (hx : Fits (placeOf allowed) (.node k' cs')) (h : FitsIn .free cs) :
    Fits (placeOf allowed) (.node k (.node k' cs' :: cs)) := by
  have hheader : hasHeader k = false := by revert hk; cases k <;> decide
  refine fits_branch (List.forall_mem_cons.2 ⟨hx.free, h⟩) (headed_of_not_hasHeader hheader _) ?_
  cases allowed with
  | true => trivial
  | false =>
    -- The later parts stand in brackets.
    refine not_exposed_of_subscript (p := .branch k' (Sprout.stemsIn cs')) hk rfl ?_
    exact (hx _ (List.mem_singleton_self _)).2

/-- A literal may stand where it was allowed to open. -/
lemma fits_literal {allowed : Bool} {cs' : List Sprout} (hk : opensLiteral k allowed = true)
    (hx : Fits (placeOf allowed) (.node k cs')) (h : FitsIn (placeOf allowed) cs) :
    Fits (placeOf allowed) (.node .compositeLiteral (.node k cs' :: cs)) := by
  have hall : FitsIn (placeOf allowed) (.node k cs' :: cs) := List.forall_mem_cons.2 ⟨hx, h⟩
  refine fits_branch hall.free (headed_of_not_hasHeader rfl _) ?_
  cases allowed with
  | true => trivial
  | false =>
    intro hexposed
    cases hexposed with
    | literal first hplain =>
      -- Behind a plain name none opens here.
      obtain ⟨rfl, -⟩ := Stem.branch.inj (Option.some.inj first)
      revert hk hplain
      cases k <;> decide
    | inner _ _ _ hp hpart => exact (hall.all _ hp).2 hpart
    | operand hsubscript => exact absurd hsubscript (by decide)

end

/-! ## What is added to what was grown -/

/-- Sprouts that may stand in a place were grown on top of `f`. -/
def Adds (pl : Place) (f f' : List Sprout) : Prop := ∃ ys, f' = ys ++ f ∧ FitsIn pl ys

/-- One node of the kind that is the answer was grown, or something if there is no answer. -/
def Puts (pl : Place) (f : List Sprout) : Option Kind → List Sprout → Prop
  | none, f' => Adds pl f f'
  | some k, f' => ∃ cs, f' = .node k cs :: f ∧ Fits pl (.node k cs)

section

variable {pl : Place} {f f' f'' : List Sprout}

lemma Adds.refl (f : List Sprout) : Adds pl f f := ⟨[], rfl, fun _ hx => absurd hx List.not_mem_nil⟩

lemma Adds.trans (h : Adds pl f f') (h' : Adds pl f' f'') : Adds pl f f'' := by
  obtain ⟨ys, rfl, hys⟩ := h
  obtain ⟨zs, rfl, hzs⟩ := h'
  exact ⟨zs ++ ys, (List.append_assoc zs ys f).symm, hzs.append hys⟩

lemma Adds.cons {x : Sprout} (h : Adds pl f f') (hx : Fits pl x) : Adds pl f (x :: f') :=
  h.trans ⟨[x], rfl, fitsIn_singleton.2 hx⟩

lemma Adds.mono {pl' : Place} (h : Adds pl f f') (hpl : ∀ x, Fits pl x → Fits pl' x) : Adds pl' f f' := by
  obtain ⟨ys, rfl, hys⟩ := h
  exact ⟨ys, rfl, fun x hx => hpl x (hys x hx)⟩

lemma Adds.fitsIn (h : Adds pl [] f) : FitsIn pl f := by
  obtain ⟨ys, rfl, hys⟩ := h
  rwa [List.append_nil]

lemma Puts.adds {v : Option Kind} (h : Puts pl f v f') : Adds pl f f' := by
  cases v with
  | none => exact h
  | some k =>
    obtain ⟨cs, rfl, hfits⟩ := h
    exact (Adds.refl f).cons hfits

end

/-! ## Parsers -/

section

variable {α β : Type} {a : Bool} {pl : Place}

/-- With composite literals allowed as `a` tells, a parser grows sprouts that may stand in a place. -/
def Shelters (a : Bool) (pl : Place) (p : Parser α) : Prop := ∀ f, Bears a f p fun _ f' => Adds pl f f'

/-- A parser whose answer is the kind of the node that it grows. -/
def Offers (a : Bool) (pl : Place) (p : Parser (Option Kind)) : Prop := ∀ f, Bears a f p (Puts pl f)

/-- A parser that grows one node, whose kind is the answer. -/
def Makes (a : Bool) (pl : Place) (p : Parser Kind) : Prop := ∀ f, Bears a f p fun k => Puts pl f (some k)

/-- A parser that puts the last node into one whose kind is the answer. -/
def Wraps (a : Bool) (pl : Place) (p : Parser Kind) : Prop :=
  ∀ f k f', Puts pl f (some k) f' → Bears a f' p fun k' => Puts pl f (some k')

namespace Shelters

variable {p : Parser α} {k : α → Parser β} {body : Parser Unit}

lemma mono {pl' : Place} (h : Shelters a pl p) (hpl : ∀ x, Fits pl x → Fits pl' x) : Shelters a pl' p :=
  fun f => (h f).mono fun _ _ hadds => hadds.mono hpl

lemma pure (v : α) : Shelters a pl (Pure.pure v) := fun f => .pure (.refl f)

lemma bind (hp : Shelters a pl p) (hk : ∀ v, Shelters a pl (k v)) : Shelters a pl (p >>= k) :=
  fun f => (hp f).bind fun v f' hadds => (hk v f').mono fun _ _ hadds' => hadds.trans hadds'

lemma map (hp : Shelters a pl p) {g : α → β} : Shelters a pl (g <$> p) := fun f => (hp f).map fun _ _ hadds => hadds

lemma discard (hp : Shelters a pl p) : Shelters a pl (Functor.discard p) := hp.map

lemma fail {e : Panic} : Shelters a pl (Parser.fail e) := fun f => .fail (.refl f)

/-! ### Looking -/

lemma nth {i : Nat} {k : Kind → Parser β} (h : ∀ c, Shelters a pl (k c)) : Shelters a pl (Parser.nth i >>= k) :=
  fun f => .nth fun c => h c f

lemma peek {k : Kind → Parser β} (h : ∀ c, Shelters a pl (k c)) : Shelters a pl (Parser.peek >>= k) := nth h

lemma look {σ : Type} {g : Parser.State → σ} {k : σ → Parser β} (h : ∀ v, Shelters a pl (k v)) :
    Shelters a pl (Parser.look g >>= k) :=
  fun f => .look fun v => h v f

lemma ask {q : Parser Bool} {Y N : List Word → Prop} {n : Nat} (hq : ∀ ws, Asks ws q (Y ws) (N ws) n) :
    Shelters a pl q := by
  intro f
  have h : Bears a f (q >>= Pure.pure) fun _ f' => Adds pl f f' := .ask hq fun v => .pure (.refl f)
  rwa [bind_pure] at h

/-! ### Choices -/

lemma choose {q : Parser Bool} {yes no : Parser α} (hq : Shelters a pl q) (hyes : Shelters a pl yes)
    (hno : Shelters a pl no) : Shelters a pl (do if ← q then yes else no) :=
  hq.bind fun v => by
    cases v with
    | true => exact hyes
    | false => exact hno

lemma given {q : Parser Bool} (hq : Shelters a pl q) (h : Shelters a pl body) : Shelters a pl (Parser.given q body) :=
  hq.choose h (pure ())

lemma otherwise {q : Parser Bool} (hq : Shelters a pl q) (h : Shelters a pl body) :
    Shelters a pl (Parser.otherwise q body) := hq.choose (pure ()) h

/-! ### Words and errors -/

lemma advance : Shelters a pl Parser.advance := fun f => .advance (.refl f) fun _ => (Adds.refl f).cons fits_word

lemma eat (c : Kind) : Shelters a pl (Parser.eat c) :=
  (ask fun _ => .isAt c).choose (advance.bind fun _ => pure true) (pure false)

lemma error {e : Problem} : Shelters a pl (Parser.error e) := fun f => .error fun _ => (Adds.refl f).cons fits_error

lemma expected {what : String} : Shelters a pl (Parser.expected what) := peek fun _ => error

lemma expect (c : Kind) : Shelters a pl (Parser.expect c) := (eat c).choose (pure ()) expected

/-! ### Nodes -/

/-- A node of a kind, if the node may stand where it is grown. -/
lemma node {q : Place} {c : Kind} (h : Shelters a q body) (hc : ∀ cs, FitsIn q cs → Fits pl (.node c cs)) :
    Shelters a pl (Parser.node c body) := by
  intro f
  -- A fixed kind is the answer that the body comes to.
  have hbody : Bears a [] (body >>= fun _ => Pure.pure c) fun k g => Adds pl f (.node k g.reverse :: f) :=
    (h []).bind fun _ g hadds => .pure ((Adds.refl f).cons (hc _ hadds.fitsIn.reverse))
  exact (Bears.nodeBy (Q := fun _ => Adds pl f) hbody).map fun _ _ hadds => hadds

/-- A node of an ordinary kind. -/
lemma ordinary {c : Kind} (h : Shelters a (placeOf a) body) (hc : isOrdinary c = true) :
    Shelters a (placeOf a) (Parser.node c body) := h.node fun _ => fits_ordinary hc

/-- A node of an ordinary kind where literals are allowed. -/
lemma plain {c : Kind} (h : Shelters true .free body) (hc : isOrdinary c = true) :
    Shelters true .free (Parser.node c body) := ordinary (a := true) h hc

/-- A node inside which literals are allowed. -/
lemma shield {c : Kind} (h : Shelters a .free body) (hc : isShield c = true) : Shelters a pl (Parser.node c body) :=
  h.node fun _ => fits_shield hc

lemma withComposites {v : Bool} (h : Shelters v pl p) : Shelters a pl (Parser.withComposites v p) :=
  fun f => .withComposites (h f)

/-! ### Repetition and recovery -/

lemma loop {σ : Type} {body : σ → Parser (ForInStep σ)} {x : σ} (h : ∀ x, Shelters a pl (body x)) :
    Shelters a pl (Parser.loop x body) :=
  fun f => .loop (I := fun _ f' => Adds pl f f') (.refl f) fun x f' hadds =>
    (h x f').mono fun _ _ hadds' => hadds.trans hadds'

lemma repeatWhile {body : Parser Bool} (h : Shelters a pl body) : Shelters a pl (Parser.repeatWhile body) :=
  loop fun _ => h.choose (pure _) (pure _)

lemma expectedAndAdvance {what : String} : Shelters a pl (Parser.expectedAndAdvance what) := by
  refine peek fun _ => node (q := placeOf false) (error.bind fun _ => advance) fun cs hcs => ?_
  have hfits : Fits (placeOf false) (.node .error cs) := fits_ordinary rfl hcs
  exact hfits.of_header

lemma orSkip {next : Parser Unit} {what : String} (hbody : Shelters a pl body) (hnext : Shelters a pl next) :
    Shelters a pl (Parser.orSkip body what next) := by
  refine look fun _ => hbody.bind fun _ => look fun _ => ?_
  split
  · exact expectedAndAdvance
  · exact hnext

lemma expectedOr {what : String} {recovery : KindSet} : Shelters a pl (Parser.expectedOr what recovery) :=
  (ask fun _ => (Asks.isAtAny recovery).or (.isAt .endOfInput)).choose expected expectedAndAdvance

end Shelters

lemma Offers.shelters {p : Parser (Option Kind)} (h : Offers a pl p) : Shelters a pl p :=
  fun f => (h f).mono fun _ _ hputs => hputs.adds

lemma Offers.none : Offers a pl (pure none) := fun f => .pure (.refl f)

lemma Offers.choose {q : Parser Bool} {yes no : Parser (Option Kind)} {Y N : List Word → Prop} {n : Nat}
    (hq : ∀ ws, Asks ws q (Y ws) (N ws) n) (hyes : Offers a pl yes) (hno : Offers a pl no) :
    Offers a pl (do if ← q then yes else no) :=
  fun f => .ask hq fun v => by
    cases v with
    | true => exact hyes f
    | false => exact hno f

lemma Makes.offers {p : Parser Kind} (h : Makes a pl p) : Offers a pl (some <$> p) :=
  fun f => (h f).map fun _ _ hputs => hputs

lemma Makes.shelters {p : Parser Kind} (h : Makes a pl p) : Shelters a pl p :=
  fun f => (h f).mono fun _ _ hputs => hputs.adds

/-- A node whose kind the parser decides, if the node may stand where it is grown. -/
lemma Makes.nodeBy {pl' : Place} {p : Parser Kind} (h : Shelters a pl' p)
    (hp : ∀ s cs, FitsIn pl' cs → Fits pl (.node (p.run s).1 cs)) : Makes a pl (Parser.nodeBy p) :=
  fun _ => .nodeBy (((h []).always (A := fun k => ∀ cs, FitsIn pl' cs → Fits pl (.node k cs)) hp).mono
    fun _ _ ⟨hk, hadds⟩ => ⟨_, rfl, hk _ hadds.fitsIn.reverse⟩)

lemma Makes.ordinary {p : Parser Kind} (h : Shelters a (placeOf a) p) (hp : ∀ s, isOrdinary (p.run s).1 = true) :
    Makes a (placeOf a) (Parser.nodeBy p) := nodeBy h fun s _ => fits_ordinary (hp s)

/-- A node around the last one whose kind the parser decides, if it is an ordinary one. -/
lemma Wraps.ordinary {p : Parser Kind} (h : Shelters a (placeOf a) p) (hp : ∀ s, isOrdinary (p.run s).1 = true) :
    Wraps a (placeOf a) (Parser.wrapBy p) := by
  rintro f k f' ⟨cs, rfl, hx⟩
  refine .wrapBy (((h [.node k cs]).always (A := fun k => isOrdinary k = true) hp).mono fun k' g ⟨hk, hadds⟩ => ?_)
  obtain ⟨ys, rfl, hys⟩ := hadds
  exact ⟨_, rfl, fits_ordinary hk (hys.append (fitsIn_singleton.2 hx)).reverse⟩

/-- A node of an ordinary kind around the last one. -/
lemma Wraps.wrap {body : Parser Unit} {c k : Kind} {f f' : List Sprout} (h : Shelters a (placeOf a) body)
    (hc : isOrdinary c = true) (hf : Puts (placeOf a) f (some k) f') :
    Bears a f' (Parser.wrap c body) fun _ f'' => ∃ k', Puts (placeOf a) f (some k') f'' := by
  have hwraps : Wraps a (placeOf a) (Parser.wrapBy (body >>= fun _ => pure c)) :=
    .ordinary (h.bind fun _ => .pure c) fun _ => hc
  exact (hwraps f k f' hf).map fun k' _ hputs => ⟨k', hputs⟩

end

end GoFront.Source
