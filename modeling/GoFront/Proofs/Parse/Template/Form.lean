import GoFront.Proofs.Parse.Growth
import GoFront.Proofs.Parse.Template.Locality
import GoFront.Proofs.Tree.Edges

/-!
# The form of what the template grammar grows

A directive is an opening marker, what stands in it, and a closing marker, which is missing only where the input ends
(`Action`). Directives that stand alone, host text and blocks follow one another in sequences (`Row`, `Item`). A block is
the directive that opens it, its sequence, the `else` branches with theirs, and either an `end` or the error that it is
missing, over the stretch of the directive that opens the block (`BlockNode`). An `end` or `else` outside all blocks carries
an error of its own (`Stray`).

A form is one of sprouts in front of the words that are left; the words that were there before are those of the sprouts
and those that are left.
-/

namespace GoFront

/-- What can be wrong with what stands in a directive. -/
def Problem.isInner : Problem → Bool
  | .expected _ _ | .nestingTooDeep => true
  | .missingValue subject => subject ∈ ["command", "if", "range", "with"]
  | _ => false

/-- What can be wrong with a template. -/
def Problem.Arises (d : Delimiters) : Problem → Prop
  | .unclosedAction => True
  | .missingEnd d' _ | .elseBehindElse d' | .chainedElse d' _ | .stray d' _ => d' = d
  | .outsideLoop d' keyword => d' = d ∧ (keyword = "break" ∨ keyword = "continue")
  | p => p.isInner = true

/-- Whether a problem is that a block has no `end`. -/
def Problem.isMissingEnd : Problem → Bool
  | .missingEnd _ _ => true
  | _ => false

namespace Template

open GoFront.Parser Sprout

/-! ## Words -/

/-- Words that lead from a mode of the lexer on. -/
def Flows : Bool → List Word → Prop
  | _, [] => True
  | m, w :: ws => ∃ m', Turns m w.kind m' ∧ Flows m' ws

namespace Flows

variable {m : Bool} {w : Word} {ws : List Word}

lemma nil : Flows m [] := trivial

/-- Behind a word of a directive the directive goes on. -/
lemma inner (h : Flows true (w :: ws)) (hw : w.kind ≠ .rightDelimiter) : w.kind ∉ foreignKinds ∧ Flows true ws := by
  obtain ⟨m, hturn, hws⟩ := h
  generalize w.kind = k at hturn hw
  cases hturn with
  | closes => exact absurd rfl hw
  | inner hk => exact ⟨hk, hws⟩

/-- Behind a closing marker the directive has ended. -/
lemma close (h : Flows true (w :: ws)) (hw : w.kind = .rightDelimiter) : Flows false ws := by
  obtain ⟨m, hturn, hws⟩ := h
  rw [hw] at hturn
  cases hturn with
  | closes => exact hws
  | inner hk => exact absurd (by decide) hk

/-- Behind an opening marker a directive has started. -/
lemma start (h : Flows false (w :: ws)) (hw : w.kind = .leftDelimiter) : Flows true ws := by
  obtain ⟨m, hturn, hws⟩ := h
  rw [hw] at hturn
  cases hturn with
  | opens => exact hws
  | host hk => exact absurd hk (by decide)

/-- Host text starts no directive. -/
lemma host (h : Flows false (w :: ws)) (hw : w.kind ≠ .leftDelimiter) : w.kind ≠ .rightDelimiter ∧ Flows false ws := by
  obtain ⟨m, hturn, hws⟩ := h
  generalize w.kind = k at hturn hw
  cases hturn with
  | opens => exact absurd rfl hw
  | host hk => exact ⟨by rintro rfl; exact absurd hk (by decide), hws⟩

/-- Only at its end does an input seem to end. -/
lemma eq_nil (h : Flows m ws) (hend : kindAt ws 0 = .endOfInput) : ws = [] := by
  cases ws with
  | nil => rfl
  | cons w ws =>
    obtain ⟨m', hturn, -⟩ := h
    replace hend : w.kind = .endOfInput := hend
    rw [hend] at hturn
    cases hturn with
    | host hk => exact absurd hk (by decide)
    | inner hk => exact absurd (by decide) hk

end Flows

/-- The words of tokens that the lexer yields lead on from its mode. -/
lemma flows_words {m : Bool} {ts : List Drawn} (h : Alternates m ts) (fresh : Bool) (gap : List Token) :
    Flows m (Words.group isTrivia fresh gap (ts.map Drawn.token)).words := by
  induction ts generalizing m fresh gap with
  | nil => trivial
  | cons t ts ih =>
    obtain ⟨hturn, hrest⟩ := h
    rw [List.map_cons, Words.group]
    split
    · next hblank =>
      have hkind : t.token.kind = .whitespace := by simpa [isTrivia] using hblank
      rw [hkind] at hturn
      generalize t.inAction = m' at hturn hrest
      cases hturn with
      | host => exact ih hrest _ _
      | inner => exact ih hrest _ _
    · exact ⟨_, hturn, ih hrest _ _⟩

/-! ## Directives -/

/-- The kinds of the nodes that directives and their sequences make. -/
def directiveKinds : List Kind :=
  [.template, .templateList, .templateAction, .templateIf, .templateRange, .templateWith, .templateDefine,
    .templateBlock, .templateCall, .templateElse, .templateEnd, .templateBreak, .templateContinue, .templateReturn]

/-- What stands in a directive. -/
inductive IsPart : Sprout → Prop
  /-- A word. -/
  | word {w : Word} (hw : w.kind ∉ foreignKinds) : IsPart (.word w)
  /-- An error. -/
  | error {p : Problem} {r : Span} (hp : p.isInner = true) : IsPart (.error p r)
  /-- A node of a pipeline, or around words that were skipped. -/
  | node {k : Kind} {cs : List Sprout} (hk : k ∉ directiveKinds) (hcs : ∀ c ∈ cs, IsPart c) : IsPart (.node k cs)

/-- How a directive ends: with its closing marker, or with the input. At the end of the input that is an error, unless
one has been found before. -/
inductive Closing : List Sprout → List Word → Prop
  /-- The closing marker. -/
  | marker {w : Word} {ws : List Word} (hw : w.kind = .rightDelimiter) : Closing [.word w] ws
  /-- The error that the directive is not closed. -/
  | unclosed {r : Span} : Closing [.error .unclosedAction r] []
  /-- Nothing, where words were skipped up to the end of the input. -/
  | lost : Closing [] []

/-- A directive. -/
inductive Action : List Sprout → List Word → Prop
  | intro {w : Word} {us cs : List Sprout} {ws : List Word} (hw : w.kind = .leftDelimiter) (hus : ∀ u ∈ us, IsPart u)
    (hcs : Closing cs ws) : Action (.word w :: (us ++ cs)) ws

/-- A directive that takes nothing but its keyword: what else stands in it is skipped. -/
structure Bare (xs : List Sprout) : Prop where
  /-- Only that it is not closed is an error of the directive itself. -/
  own : ∀ x ∈ Sprout.own xs, x.1 = .unclosedAction
  /-- It ends with a word. -/
  ends : ∃ w, EndsWith w xs

/-- The kind of the word behind the opening marker of a directive. -/
abbrev keywordOf (xs : List Sprout) (ws : List Word) : Kind := kindAt (wordsIn xs ++ ws) 1

/-! ## Sequences -/

/-- Sprouts in a row in front of some words, of each of which `P` holds in front of what follows it. -/
inductive Row (P : Sprout → List Word → Prop) : List Sprout → List Word → Prop
  /-- Nothing. -/
  | nil {ws : List Word} : Row P [] ws
  /-- One more sprout in front. -/
  | cons {x : Sprout} {xs : List Sprout} {ws : List Word} (hx : P x (wordsIn xs ++ ws)) (hxs : Row P xs ws) :
    Row P (x :: xs) ws

lemma Row.concat {P : Sprout → List Word → Prop} {xs : List Sprout} {y : Sprout} {ws : List Word}
    (hxs : Row P xs (y.words ++ ws)) (hy : P y ws) : Row P (xs ++ [y]) ws := by
  generalize hvs : y.words ++ ws = vs at hxs
  induction hxs with
  | nil => exact .cons (by simpa [wordsIn] using hy) .nil
  | cons hx _ ih =>
    refine .cons ?_ (ih hvs)
    simpa [wordsIn, hvs] using hx

/-- A keyword of a directive that stands alone. -/
def IsPlain (k : Kind) : Prop := opensBlock k = false ∧ k ≠ .elseKeyword ∧ k ≠ .endKeyword

/-- The input ends, or an `else` or `end` follows. -/
def AtListEnd (ws : List Word) : Prop :=
  ws = [] ∨ kindAt ws 0 = .leftDelimiter ∧ (kindAt ws 1 = .elseKeyword ∨ kindAt ws 1 = .endKeyword)

section

variable (d : Delimiters) (block : Bool → Sprout → List Word → Prop)

/-- A part of a sequence. `block` says what a block is, one level down. -/
inductive Item (inLoop : Bool) : Sprout → List Word → Prop
  /-- Host text. -/
  | text {w : Word} {ws : List Word} (hw : w.kind ≠ .leftDelimiter) (hw' : w.kind ≠ .rightDelimiter) :
    Item inLoop (.word w) ws
  /-- A directive that stands alone. -/
  | simple {k : Kind} {xs : List Sprout} {ws : List Word}
    (hk : k ∈ [Kind.templateAction, .templateCall, .templateReturn]) (h : Action xs ws)
    (hplain : IsPlain (keywordOf xs ws)) : Item inLoop (.node k xs) ws
  /-- A `break` or `continue`, with an error if there is no loop. -/
  | jump {k : Kind} {keyword : String} {xs : List Sprout} {ws : List Word}
    (hk : (k, keyword) ∈ [(Kind.templateBreak, "break"), (.templateContinue, "continue")]) (h : Action xs ws)
    (hplain : IsPlain (keywordOf xs ws)) (hbare : Bare xs) :
    Item inLoop
      (.node k (xs ++ if inLoop then [] else [Sprout.error (.outsideLoop d keyword) (Word.spanOf (wordsIn xs))])) ws
  /-- A block. -/
  | block {x : Sprout} {ws : List Word} (h : block inLoop x ws) : Item inLoop x ws

/-- The sequence in a block. -/
inductive IsList (inLoop : Bool) : Sprout → List Word → Prop
  | intro {xs : List Sprout} {ws : List Word} (hxs : Row (Item d block inLoop) xs ws) (hend : AtListEnd ws) :
    IsList inLoop (.node .templateList xs) ws

/-- The error of an `else` branch as a whole, if there is one. -/
def IsElseFault (es : List Sprout) : Prop :=
  es = [] ∨ ∃ p r, es = [.error p r] ∧ (p = .elseBehindElse d ∨ ∃ keyword, p = .chainedElse d keyword)

/-- An `else` branch: the directive and its sequence. -/
inductive IsElse (inLoop : Bool) : Sprout → List Word → Prop
  | intro {xs es : List Sprout} {l : Sprout} {ws : List Word} (h : Action xs (l.words ++ ws))
    (hkey : keywordOf xs (l.words ++ ws) = .elseKeyword) (hes : IsElseFault d es) (hl : IsList d block inLoop l ws) :
    IsElse inLoop (.node .templateElse (xs ++ (es ++ [l]))) ws

/-- The `end` of a block, or the error that it is missing. -/
inductive Ending (keyword : String) (opener : Span) : Sprout → List Word → Prop
  /-- The `end`. -/
  | closed {xs : List Sprout} {ws : List Word} (h : Action xs ws) (hkey : keywordOf xs ws = .endKeyword) :
    Ending keyword opener (.node .templateEnd xs) ws
  /-- The error. -/
  | missing {ws : List Word} (h : ¬ (kindAt ws 0 = .leftDelimiter ∧ kindAt ws 1 = .endKeyword)) :
    Ending keyword opener (.error (.missingEnd d keyword) opener) ws

/-- The block directives. -/
structure BlockForm where
  /-- The keyword that opens the block. -/
  keyword : Kind
  /-- The kind of the node. -/
  kind : Kind
  /-- The keyword in messages. -/
  label : String
  /-- Whether the block is a definition, which has no `else` branches. -/
  named : Bool
  deriving DecidableEq

/-- The block directives. -/
def blockForms : List BlockForm :=
  [⟨.ifKeyword, .templateIf, "if", false⟩, ⟨.rangeKeyword, .templateRange, "range", false⟩,
    ⟨.withKeyword, .templateWith, "with", false⟩, ⟨.defineKeyword, .templateDefine, "define", true⟩,
    ⟨.blockKeyword, .templateBlock, "block", true⟩]

/-- Whether the sequence of a block is in a loop. -/
def BlockForm.loops (b : BlockForm) (inLoop : Bool) : Bool :=
  if b.named then false else inLoop || b.kind == .templateRange

/-- A block whose sequences hold blocks of which `block` holds. -/
inductive BlockNode (inLoop : Bool) : Sprout → List Word → Prop
  | intro {b : BlockForm} {xs es : List Sprout} {l y : Sprout} {ws : List Word} (hb : b ∈ blockForms)
    (h : Action xs (l.words ++ (wordsIn es ++ (y.words ++ ws))))
    (hkey : keywordOf xs (l.words ++ (wordsIn es ++ (y.words ++ ws))) = b.keyword)
    (hl : IsList d block (b.loops inLoop) l (wordsIn es ++ (y.words ++ ws)))
    (hes : Row (IsElse d block inLoop) es (y.words ++ ws)) (hnamed : b.named = true → es = [])
    (hcontrol : b.named = false → ¬ (kindAt (y.words ++ ws) 0 = .leftDelimiter ∧ kindAt (y.words ++ ws) 1 = .elseKeyword))
    (hy : Ending d b.label (Word.spanOf (wordsIn xs)) y ws) : BlockNode inLoop (.node b.kind (xs ++ (l :: (es ++ [y])))) ws

end

/-- What is left behind blocks that are skipped when `depth` of them are open: the `else` or `end` of the block around
them all, or nothing. -/
def skipped (depth : Nat) : List Word → List Word
  | [] => []
  | w :: ws =>
    if w.kind = .leftDelimiter then
      if (kindAt ws 0 = .elseKeyword ∨ kindAt ws 0 = .endKeyword) ∧ depth = 0 then w :: ws
      else skipped (depthBehind depth (kindAt ws 0)) ws
    else skipped depth ws

/-- A block that is nested too deep. -/
inductive TooDeep : Sprout → List Word → Prop
  | intro {vs ws : List Word} {r : Span} (h : skipped 0 (vs ++ ws) = ws) :
    TooDeep (.node .error (.error .nestingTooDeep r :: vs.map .word)) ws

/-- A block when `levels` further levels may be entered. -/
def IsBlock (d : Delimiters) : (levels : Nat) → (inLoop : Bool) → Sprout → List Word → Prop
  | 0, _ => TooDeep
  | levels + 1, inLoop => BlockNode d (IsBlock d levels) inLoop

/-! ## Documents -/

/-- An `end` or `else` outside all blocks. -/
inductive Stray (d : Delimiters) : Sprout → List Word → Prop
  | intro {k keyword : Kind} {label : String} {xs : List Sprout} {ws : List Word}
    (hk : (k, keyword, label) ∈
      [(Kind.templateEnd, Kind.endKeyword, "end"), (.templateElse, .elseKeyword, "else")]) (h : Action xs ws)
    (hkey : keywordOf xs ws = keyword) : Stray d (.node k (xs ++ [Sprout.error (.stray d label) (Word.spanOf (wordsIn xs))])) ws

/-- A part of a document. -/
inductive TopItem (d : Delimiters) : Sprout → List Word → Prop
  /-- Host text or a directive. -/
  | item {x : Sprout} {ws : List Word} (h : Item d (IsBlock d nestingLimit) false x ws) : TopItem d x ws
  /-- An `end` or `else` outside all blocks. -/
  | stray {x : Sprout} {ws : List Word} (h : Stray d x ws) : TopItem d x ws

end Template

end GoFront
