import GoFront.Parse.Weave
import GoFront.Tree.Builder

/-!
# Replay

The way from what a parser grows to a tree that checks every step. The sprouts are read as a record of
events: a node starts, a word is taken, an error is found, a node is finished. The events are replayed
into a builder, with the blanks and comments put back on the way, and the builder refuses whatever does
not fit.

`Parser.tree?` is the tree of a parse whose assertions all hold, those of the parser as well as those of
the replay.

Events need no numbers here, since a node that is put around what has been read is a sprout around it. Where they are
numbered, and for the numbers that the builder gives, the assumption stated in `GoFront.Tree.Builder` applies.
-/

namespace GoFront

/-- What a parser did. -/
inductive ParseEvent where
  /-- It started a node. -/
  | start (kind : Kind)
  /-- It finished the node started last. -/
  | finish
  /-- It took a word. -/
  | word
  /-- It found an error. -/
  | error (problem : Problem) (span : Span)

namespace Sprout

mutual

/-- The events that grow a sprout. -/
def events : Sprout → List ParseEvent
  | .word _ => [.word]
  | .error p r => [.error p r]
  | .node k cs => .start k :: (eventsIn cs ++ [.finish])

/-- The events that grow sprouts one after another. -/
def eventsIn : List Sprout → List ParseEvent
  | [] => []
  | s :: ss => events s ++ eventsIn ss

end

end Sprout

/-- Why a text gets no tree. -/
inductive ParseFailure where
  /-- The stretch to be parsed is reversed, leaves the document or cuts a character. -/
  | brokenRange
  /-- An assertion of the parser fails. -/
  | panic (reason : Parser.Panic)
  /-- More nodes are finished than were started. -/
  | unbalanced
  /-- More words are taken than there are. -/
  | noWord
  /-- The builder refuses a step. -/
  | refused (reason : BuildError)
  deriving DecidableEq, Repr

/-- A replay under way. -/
structure Replay where
  /-- The tree so far. -/
  builder : Builder
  /-- The words to come; the gap before the first may already be in the tree. -/
  words : List Word
  /-- The blanks and comments behind the last word. -/
  tail : List Token
  /-- The number of open nodes. -/
  depth : Nat := 0

namespace Replay

/-- A step of a builder as part of a replay. -/
def lift : Except BuildError Builder → Except ParseFailure Builder
  | .ok b => .ok b
  | .error e => .error (.refused e)

/-- Adds a token; one that stands for a lexical error brings its error with it. -/
def addToken (b : Builder) (t : Token) : Except ParseFailure Builder :=
  lift <| Builder.token
    (if t.kind.isLexicalError then b.report (.lexical t.kind t.text) t.span .statement else b) t.kind t.span

/-- Adds tokens one after another. -/
def addTokens (b : Builder) : List Token → Except ParseFailure Builder
  | [] => .ok b
  | t :: ts =>
    match addToken b t with
    | .ok b' => addTokens b' ts
    | .error e => .error e

/-- The replay after its builder has taken steps. -/
def after (r : Replay) : Except ParseFailure Builder → Except ParseFailure Replay
  | .ok b => .ok { r with builder := b }
  | .error e => .error e

/-- Adds the blanks and comments before the next word. -/
def addGap (r : Replay) : Except ParseFailure Replay :=
  match r.words with
  | [] => { r with tail := [] }.after (addTokens r.builder r.tail)
  | w :: ws => { r with words := { w with gap := [] } :: ws }.after (addTokens r.builder w.gap)

/-- Adds the next word and the blanks and comments before it. -/
def addWord (r : Replay) : Except ParseFailure Replay :=
  match r.words with
  | [] => .error .noWord
  | w :: ws => { r with words := ws }.after (addTokens r.builder (w.gap ++ [w.token]))

/-- Adds everything that is left. -/
def addRest (r : Replay) : Except ParseFailure Replay :=
  { r with words := [], tail := [] }.after (addTokens r.builder (Words.mk r.words r.tail).toTokens)

/-- Starts a node. -/
def startNode (r : Replay) (k : Kind) : Except ParseFailure Replay :=
  { r with depth := r.depth + 1 }.after (lift (r.builder.start k))

/-- Finishes a node. -/
def finishNode (r : Replay) : Except ParseFailure Replay := r.after (lift r.builder.finish)

/-- Replays one event. Blanks and comments before a word stand in front of the outermost node that starts
with the word, but inside the outermost node of all, which also takes those behind the last word. -/
def step (r : Replay) : ParseEvent → Except ParseFailure Replay
  | .start k => if r.depth = 0 then r.startNode k else r.addGap >>= (·.startNode k)
  | .finish =>
    match r.depth with
    | 0 => .error .unbalanced
    | 1 => { r with depth := 0 }.addRest >>= finishNode
    | n + 1 => { r with depth := n }.finishNode
  | .word => r.addWord
  | .error p s => .ok { r with builder := r.builder.report p s .innermost }

/-- Replays events one after another. -/
def run (r : Replay) : List ParseEvent → Except ParseFailure Replay
  | [] => .ok r
  | e :: es => r.step e >>= (run · es)

/-- The tree of a text at an offset, given its words and what a parser grew from them. -/
def tree? (sprout : Sprout) (text : Text) (offset : Nat) (ws : Words) : Except ParseFailure SyntaxTree :=
  match run { builder := .new text offset, words := ws.words, tail := ws.tail } sprout.events with
  | .error e => .error e
  | .ok r =>
    match r.builder.tree with
    | .ok t => .ok t
    | .error e => .error (.refused e)

end Replay

/-- The tree that a parser for the parts of the outermost node makes of a text at an offset, if no
assertion fails on the way. -/
def Parser.tree? (k : Kind) (body : Parser Unit) (isTrivia : Kind → Bool) (text : Text) (offset : Nat)
    (tokens : List Token) : Except ParseFailure SyntaxTree :=
  let ws := Words.ofTokens isTrivia tokens
  let s := (body.run (.start isTrivia text offset tokens)).2
  match s.panic with
  | some p => .error (.panic p)
  | none => Replay.tree? (.node k s.grown.reverse) text offset ws

end GoFront
