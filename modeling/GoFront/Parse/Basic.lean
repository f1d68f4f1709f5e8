import GoFront.KindSet
import GoFront.Parse.Word
import GoFront.Problem

/-!
# Parsers

A parser reads words from the front of its input and grows a forest of sprouts: words, errors and
nodes around them. A parser can look ahead but never gives a word back, and each word it takes ends up
in the forest exactly once and in order, and no error is ever taken back; this is part of the type
(`Parser.forward`), so it holds of every grammar that is written with the operations of this file.

A parser asserts that it makes progress: looks at the kinds of the words ahead are counted, and there
may only be so many of them before the next word is taken. An assertion that fails is noted in the state
(`State.panic`) and stays there.

Repetition is bounded by the number of words left. A loop whose rounds each take a word ends before the
bound is met; one that meets the bound is stuck.
-/

namespace GoFront

/-- What a parser grows: the tree of a text without its blanks and comments, with the errors in the
places where they were found. -/
inductive Sprout where
  /-- A word. -/
  | word (w : Word)
  /-- An error. -/
  | error (problem : Problem) (span : Span)
  /-- A node and its parts. -/
  | node (kind : Kind) (children : List Sprout)

namespace Sprout

mutual

/-- The words of a sprout, in order. -/
def words : Sprout → List Word
  | .word w => [w]
  | .error _ _ => []
  | .node _ cs => wordsIn cs

/-- The words of sprouts that follow one another. -/
def wordsIn : List Sprout → List Word
  | [] => []
  | s :: ss => words s ++ wordsIn ss

end

@[simp] theorem wordsIn_append (ss ts : List Sprout) : wordsIn (ss ++ ts) = wordsIn ss ++ wordsIn ts := by
  induction ss with
  | nil => simp [wordsIn]
  | cons s ss ih => simp [wordsIn, ih]

mutual

/-- The errors in a sprout, in order. -/
def errors : Sprout → List (Problem × Span)
  | .word _ => []
  | .error p r => [(p, r)]
  | .node _ cs => errorsIn cs

/-- The errors in sprouts that follow one another. -/
def errorsIn : List Sprout → List (Problem × Span)
  | [] => []
  | s :: ss => errors s ++ errorsIn ss

end

@[simp] theorem errorsIn_append (ss ts : List Sprout) :
    errorsIn (ss ++ ts) = errorsIn ss ++ errorsIn ts := by
  induction ss with
  | nil => simp [errorsIn]
  | cons s ss ih => simp [errorsIn, ih]

end Sprout

namespace Parser

/-- Why a parser gives up. -/
inductive Panic where
  /-- The parser goes on looking at the words ahead without taking one. -/
  | stuck
  /-- A production is entered at a word that cannot start it. -/
  | unreachable
  /-- A stretch of text ends before it starts. -/
  | reversedSpan
  deriving DecidableEq, Repr

/-- Where a parser stands. -/
structure State where
  /-- The stretch of the document that is parsed. -/
  span : Span
  /-- The last word taken. -/
  previous : Option Word := none
  /-- The words still to come. -/
  rest : List Word
  /-- Their number. -/
  left : Nat := rest.length
  /-- The number is that of the words still to come. -/
  left_eq : left = rest.length := by rfl
  /-- Whether a brace behind the name of a type opens a literal, rather than a block. -/
  composites : Bool := true
  /-- The number of looks at the words ahead since the last word was taken. -/
  looks : Nat := 0
  /-- The first assertion that failed. -/
  panic : Option Panic := none
  /-- What has grown in the innermost unfinished node, last first. -/
  grown : List Sprout := []

namespace State

/-- Where a parser starts on the tokens of a text at an offset. -/
abbrev start (isTrivia : Kind → Bool) (text : Text) (offset : Nat) (ts : List Token) : State :=
  { span := ⟨offset, text.size⟩, rest := (Words.ofTokens isTrivia ts).words }

/-- The words in what has grown, in order. -/
def grownWords (s : State) : List Word := Sprout.wordsIn s.grown.reverse

/-- The errors in what has grown, in order. -/
def grownErrors (s : State) : List (Problem × Span) := Sprout.errorsIn s.grown.reverse

/-- The kind of the word `n` places ahead. -/
def nth (s : State) (n : Nat) : Kind := (s.rest[n]?.map Word.kind).getD .endOfInput

/-- Whether the word `n` places ahead is the first on its line. -/
def nthLineStart (s : State) (n : Nat) : Bool := s.rest[n]?.any Word.lineStart

/-- The offset behind the last word taken. -/
def previousStop (s : State) : Nat := (s.previous.map fun w => w.token.stop).getD s.span.start

/-- The stretch of the next word. -/
def currentSpan (s : State) : Span := (s.rest.head?.map fun w => w.token.span).getD (.emptyAt s.span.stop)

/-- Where an error at this point is reported: at the next word if it stands on the line of the last
one, else right behind the last one. -/
def errorSpan (s : State) : Span :=
  if s.rest.isEmpty || (s.previous.isSome && s.nthLineStart 0) then .emptyAt s.previousStop
  else s.currentSpan

/-- The state after an assertion has failed; only the first one counts. -/
def halt (s : State) (p : Panic) : State := { s with panic := s.panic.or (some p) }

end State

/-- How often a parser may look at the words ahead before it takes one. -/
def lookLimit : Nat := 10000000

/-- The state after a look at a word ahead. -/
def State.looked (s : State) : State :=
  { s with
    looks := s.looks + 1
    panic := if s.looks ≤ lookLimit then s.panic else s.panic.or (some .stuck) }

/-- From `s` a parser can come to `t`: some words were taken from the front of the input, and they now
end the words in what has grown; some errors were found; and no failed assertion was forgotten. -/
structure Reaches (s t : State) : Prop where
  /-- The stretch that is parsed stays the same. -/
  span : t.span = s.span
  /-- The words taken moved from the input into what has grown. -/
  moved : ∃ taken, s.rest = taken ++ t.rest ∧ t.grownWords = s.grownWords ++ taken ∧
    t.previous = taken.getLast?.or s.previous
  /-- The errors found follow those found before. -/
  errors : ∃ found, t.grownErrors = s.grownErrors ++ found
  /-- An assertion that has failed stays failed. -/
  calm : t.panic = none → s.panic = none

namespace Reaches

/-- Standing still takes nothing. -/
theorem refl (s : State) : Reaches s s := ⟨rfl, ⟨[], by simp⟩, ⟨[], by simp⟩, id⟩

/-- One move after another. -/
theorem trans {s t u : State} (h : Reaches s t) (k : Reaches t u) : Reaches s u := by
  obtain ⟨hs, ⟨a, ha, ha', ha''⟩, ⟨e, he⟩, hcalm⟩ := h
  obtain ⟨ks, ⟨b, hb, hb', hb''⟩, ⟨f, hf⟩, kcalm⟩ := k
  refine ⟨ks.trans hs, ⟨a ++ b, by simp [ha, hb], by simp [hb', ha'], ?_⟩, ⟨e ++ f, by simp [hf, he]⟩, hcalm ∘ kcalm⟩
  rw [hb'', ha'', List.getLast?_append, Option.or_assoc]

/-- The input never grows. -/
theorem length_rest_le {s t : State} (h : Reaches s t) : t.rest.length ≤ s.rest.length := by
  obtain ⟨a, ha, _⟩ := h.moved
  simp [ha]

end Reaches

end Parser

/-- A parser with a result. -/
structure Parser (α : Type) where
  /-- What the parser does. -/
  run : Parser.State → α × Parser.State
  /-- It only moves forward, and every word it takes is grown. -/
  forward : ∀ s, Parser.Reaches s (run s).2

namespace Parser

variable {α β σ : Type}

@[ext] theorem ext {p q : Parser α} (h : ∀ s, p.run s = q.run s) : p = q := by
  cases p; cases q; congr; exact funext h

instance : Monad Parser where
  pure a := ⟨fun s => (a, s), Reaches.refl⟩
  bind p f := ⟨fun s =>
      let r := p.run s
      (f r.1).run r.2,
    fun s => (p.forward s).trans ((f (p.run s).1).forward (p.run s).2)⟩

@[simp] theorem run_pure (a : α) (s : State) : (pure a : Parser α).run s = (a, s) := rfl

@[simp] theorem run_bind (p : Parser α) (f : α → Parser β) (s : State) :
    (p >>= f).run s = (f (p.run s).1).run (p.run s).2 := rfl

instance : LawfulMonad Parser := LawfulMonad.mk' Parser
  (fun _ => rfl) (fun _ _ => rfl) (fun _ _ _ => rfl)

instance [Inhabited α] : Inhabited (Parser α) := ⟨pure default⟩

/-! ## Assertions -/

theorem reaches_halt (s : State) (p : Panic) : Reaches s (s.halt p) :=
  ⟨rfl, ⟨[], by simp [State.halt, State.grownWords]⟩, ⟨[], by simp [State.halt, State.grownErrors]⟩,
    fun h => (Option.or_eq_none_iff.1 h).1⟩

/-- Gives up. -/
def fail (p : Panic) : Parser Unit := ⟨fun s => ((), s.halt p), fun s => reaches_halt s p⟩

/-! ## Choices -/

/-- Runs the first parser if the answer is yes, and else the second. -/
def choose (question : Parser Bool) (yes no : Parser α) : Parser α := do
  if ← question then yes else no

/-- Runs a parser if the answer is yes. -/
def given (question : Parser Bool) (body : Parser Unit) : Parser Unit := choose question body (pure ())

/-- Runs a parser if the answer is no. -/
def otherwise (question : Parser Bool) (body : Parser Unit) : Parser Unit := choose question (pure ()) body

/-! ## Looking -/

/-- Reads something off the state. -/
def look (f : State → α) : Parser α := ⟨fun s => (f s, s), Reaches.refl⟩

theorem reaches_looked (s : State) : Reaches s s.looked := by
  refine ⟨rfl, ⟨[], by simp [State.looked, State.grownWords]⟩, ⟨[], by simp [State.looked, State.grownErrors]⟩, ?_⟩
  unfold State.looked
  dsimp only
  split
  · exact id
  · exact fun h => (Option.or_eq_none_iff.1 h).1

/-- The kind of the word `n` places ahead. -/
def nth (n : Nat) : Parser Kind := ⟨fun s => (s.nth n, s.looked), reaches_looked⟩

/-- The kind of the next word. -/
def peek : Parser Kind := nth 0

/-- Whether the word `n` places ahead has a kind. -/
def nthIs (n : Nat) (k : Kind) : Parser Bool := do return (← nth n) == k

/-- Whether the next word has a kind. -/
def isAt (k : Kind) : Parser Bool := nthIs 0 k

/-- Whether the kind of the next word is in a set. -/
def isAtAny (ks : KindSet) : Parser Bool := do return ks.contains (← peek)

/-- Whether the word `n` places ahead is the first on its line. -/
def nthLineStart (n : Nat) : Parser Bool := look (·.nthLineStart n)

/-- Whether the next word has a kind and nothing stands between it and the last one. -/
def isAdjacent (k : Kind) : Parser Bool :=
  isAt k <&&> look fun s => s.currentSpan.start == s.previousStop

/-- The number of words left. -/
def remaining : Parser Nat := look (·.left)

/-- The offset of the next word. -/
def currentStart : Parser Nat := look (·.currentSpan.start)

/-- Whether a brace behind the name of a type opens a literal. -/
def compositesAllowed : Parser Bool := look (·.composites)

/-- The stretch from an offset to the end of the last word taken, which must not lie before it. -/
def spanSince (start : Nat) : Parser Span where
  run s := (.between start s.previousStop, if start ≤ s.previousStop then s else s.halt .reversedSpan)
  forward s := by
    dsimp only
    split
    · exact .refl s
    · exact reaches_halt s _

/-! ## Taking words -/

/-- The state after the next word is taken; at the end of the input nothing changes. -/
def State.advance (s : State) : State :=
  match h : s.rest with
  | [] => s
  | w :: ws =>
    { s with
      previous := some w
      rest := ws
      left := s.left - 1
      left_eq := by simp [s.left_eq, h]
      looks := 0
      grown := .word w :: s.grown }

theorem reaches_advance (s : State) : Reaches s s.advance := by
  unfold State.advance
  split
  · exact .refl s
  · next w ws h =>
    exact ⟨rfl, ⟨[w], by simp [h, State.grownWords, Sprout.wordsIn, Sprout.words]⟩,
      ⟨[], by simp [State.grownErrors, Sprout.errorsIn, Sprout.errors]⟩, id⟩

/-- Takes the next word. -/
def advance : Parser Unit := ⟨fun s => ((), s.advance), reaches_advance⟩

/-- Takes the next word if it has a kind, and tells whether it did. -/
def eat (k : Kind) : Parser Bool := do
  if ← isAt k then
    advance
    pure true
  else pure false

/-! ## Errors -/

/-- The state after an error. -/
def State.withError (s : State) (p : Problem) (r : Span) : State :=
  { s with grown := .error p r :: s.grown }

theorem reaches_withError (s : State) (p : Problem) (r : Span) : Reaches s (s.withError p r) :=
  ⟨rfl, ⟨[], by simp [State.withError, State.grownWords, Sprout.wordsIn, Sprout.words]⟩,
    ⟨[(p, r)], by simp [State.withError, State.grownErrors, Sprout.errorsIn, Sprout.errors]⟩, id⟩

/-- Reports an error at this point; where that is takes a look at the next word. -/
def error (p : Problem) : Parser Unit :=
  ⟨fun s => ((), s.looked.withError p s.errorSpan),
    fun s => (reaches_looked s).trans (reaches_withError s.looked p _)⟩

/-- Reports an error for a stretch. -/
def errorAt (r : Span) (p : Problem) : Parser Unit :=
  ⟨fun s => ((), s.withError p r), fun s => reaches_withError s p _⟩

/-- Reports an error for the stretch from an offset to the end of the last word taken. -/
def errorSince (start : Nat) (p : Problem) : Parser Unit := do errorAt (← spanSince start) p

/-- Reports that something else stands where `what` had to stand. -/
def expected (what : String) : Parser Unit := do error (.expected what (← peek))

/-- Takes the next word if it has a kind, and else reports that it has not. -/
def expect (k : Kind) : Parser Unit := do
  unless ← eat k do expected k.describe

/-! ## Nodes -/

/-- The state in which the parts of a new node are grown. -/
def State.inner (s : State) : State := { s with grown := [] }

/-- The state `s` with the node whose parts were grown in `t`. -/
def State.close (s t : State) (k : Kind) : State :=
  { t with grown := .node k t.grown.reverse :: s.grown }

theorem reaches_close {s t : State} (k : Kind) (h : Reaches s.inner t) : Reaches s (s.close t k) := by
  obtain ⟨hs, ⟨a, ha, ha', ha''⟩, ⟨e, he⟩, hcalm⟩ := h
  refine ⟨hs, ⟨a, ha, ?_, ha''⟩, ⟨e, ?_⟩, hcalm⟩
  · simp_all [State.close, State.inner, State.grownWords, Sprout.wordsIn, Sprout.words]
  · simp_all [State.close, State.inner, State.grownErrors, Sprout.errorsIn, Sprout.errors]

/-- Puts what a parser grows into a node whose kind the parser decides. -/
def nodeBy (body : Parser Kind) : Parser Kind where
  run s :=
    let (k, t) := body.run s.inner
    (k, s.close t k)
  forward s := reaches_close _ (body.forward s.inner)

/-- Puts what a parser grows into a node of a kind. -/
def node (k : Kind) (body : Parser Unit) : Parser Unit := discard <| nodeBy do
  body
  pure k

/-- The state in which the last sprout has become the first part of a new node. -/
def State.taken (s : State) : State := { s with grown := s.grown.take 1 }

/-- The state `s` whose last sprout has been replaced by the node grown in `t`. -/
def State.closeOver (s t : State) (k : Kind) : State :=
  { t with grown := .node k t.grown.reverse :: s.grown.drop 1 }

theorem reaches_closeOver {s t : State} (k : Kind) (h : Reaches s.taken t) :
    Reaches s (s.closeOver t k) := by
  obtain ⟨hs, ⟨a, ha, ha', ha''⟩, ⟨e, he⟩, hcalm⟩ := h
  have key : s.grown.reverse = (s.grown.drop 1).reverse ++ (s.grown.take 1).reverse := by
    rw [← List.reverse_append, List.take_append_drop]
  refine ⟨hs, ⟨a, ha, ?_, ha''⟩, ⟨e, ?_⟩, hcalm⟩
  · simp only [State.taken, State.grownWords] at ha'
    simp only [State.closeOver, State.grownWords, List.reverse_cons, Sprout.wordsIn_append, key, ha',
      Sprout.wordsIn, Sprout.words, List.append_nil, List.append_assoc]
  · simp only [State.taken, State.grownErrors] at he
    simp only [State.closeOver, State.grownErrors, List.reverse_cons, Sprout.errorsIn_append, key, he,
      Sprout.errorsIn, Sprout.errors, List.append_nil, List.append_assoc]

/-- Puts the last sprout, and what a parser grows behind it, into a node whose kind the parser
decides. -/
def wrapBy (body : Parser Kind) : Parser Kind where
  run s :=
    let (k, t) := body.run s.taken
    (k, s.closeOver t k)
  forward s := reaches_closeOver _ (body.forward s.taken)

/-- Puts the last sprout, and what a parser grows behind it, into a node of a kind. -/
def wrap (k : Kind) (body : Parser Unit) : Parser Unit := discard <| wrapBy do
  body
  pure k

/-- The state `s` with what was grown in `t`. -/
def State.splice (s t : State) : State := { t with grown := t.grown ++ s.grown }

theorem reaches_splice {s t : State} (h : Reaches s.inner t) : Reaches s (s.splice t) := by
  obtain ⟨hs, ⟨a, ha, ha', ha''⟩, ⟨e, he⟩, hcalm⟩ := h
  refine ⟨hs, ⟨a, ha, ?_, ha''⟩, ⟨e, ?_⟩, hcalm⟩
  · simp only [State.inner, State.grownWords, List.reverse_nil, Sprout.wordsIn,
      List.nil_append] at ha'
    simp [State.splice, State.grownWords, ha']
  · simp only [State.inner, State.grownErrors, List.reverse_nil, Sprout.errorsIn,
      List.nil_append] at he
    simp [State.splice, State.grownErrors, he]

/-- Puts what a parser grows into a node of a kind if the parser asks for it, and else leaves it where
it is. -/
def nodeIf (k : Kind) (body : Parser Bool) : Parser Unit where
  run s :=
    let (wanted, t) := body.run s.inner
    ((), if wanted then s.close t k else s.splice t)
  forward s := by
    have h := body.forward s.inner
    dsimp only
    split
    · exact reaches_close _ h
    · exact reaches_splice h

/-- Runs a parser with composite literals allowed or not, and restores what was allowed before. -/
def withComposites (allowed : Bool) (body : Parser α) : Parser α where
  run s :=
    let (a, t) := body.run { s with composites := allowed }
    (a, { t with composites := s.composites })
  forward s := by
    obtain ⟨hs, ⟨a, ha, ha', ha''⟩, ⟨e, he⟩, hcalm⟩ := body.forward { s with composites := allowed }
    exact ⟨hs, ⟨a, ha, ha', ha''⟩, ⟨e, he⟩, hcalm⟩

/-! ## Repetition -/

/-- Runs `body` over and over for at most `n` rounds; if that is not enough, it is stuck. -/
def rounds (body : σ → Parser (ForInStep σ)) : Nat → σ → Parser σ
  | 0, x => do
    fail .stuck
    pure x
  | n + 1, x => do
    match ← body x with
    | .done y => pure y
    | .yield y => rounds body n y

/-- Runs `body` until it is done. There is one round more than there are words, so a body that takes a
word in every round but the last always comes to its end. -/
def loop (init : σ) (body : σ → Parser (ForInStep σ)) : Parser σ := do
  rounds body ((← remaining) + 1) init

/-- Runs `body` as long as it answers true. -/
def repeatWhile (body : Parser Bool) : Parser Unit :=
  loop () fun _ => do
    if ← body then pure (.yield ()) else pure (.done ())

/-! ## Recovery -/

/-- Puts the next word into an error node. -/
def errorAndAdvance (p : Problem) : Parser Unit := do
  node .error do
    error p
    advance

/-- Reports that `what` is missing, and skips the next word in its place. -/
def expectedAndAdvance (what : String) : Parser Unit := do
  errorAndAdvance (.expected what (← peek))

/-- Runs `body`. If it takes no word, the next one is skipped in place of `what`; else `next` follows. -/
def orSkip (body : Parser Unit) (what : String) (next : Parser Unit) : Parser Unit := do
  let before ← remaining
  body
  if (← remaining) = before then expectedAndAdvance what else next

/-- Reports that `what` is missing. The next word is skipped unless it is one of those that recovery
must not swallow. -/
def expectedOr (what : String) (recovery : KindSet) : Parser Unit := do
  if ← isAtAny recovery <||> isAt .endOfInput then expected what else expectedAndAdvance what

end Parser

end GoFront
