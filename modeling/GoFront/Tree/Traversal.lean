import GoFront.Tree.Arena

/-!
# Going through an arena

A walker goes through an arena with a stack: the nodes it is in, innermost first, each with the parts that are still to
come. It comes to a node before its parts and leaves it behind them, and it can be told to leave out the parts of the
node it came to last. A walk over nodes passes over the tokens in between, and may be directed by what is said of each
node it comes to.

The smallest part around a stretch of text is found on the way down from a node, which goes into the first part that
covers the stretch and never comes back.

A parent map is filled on one walk from the root. It knows the node around every node and every token, so it can climb
from a node to the root.
-/

namespace GoFront

/-- One step of a walk, by number. -/
inductive Visit where
  /-- The walk comes to a node. -/
  | enter (id : Nat)
  /-- The walk leaves a node. -/
  | leave (id : Nat)
  /-- The walk passes a token. -/
  | token (id : Nat)
  deriving DecidableEq, Repr

namespace Visit

/-- The number of the node a step comes to. -/
def entered? : Visit → Option Nat
  | .enter i => some i
  | _ => none

/-- The number of the token a step passes. -/
def token? : Visit → Option Nat
  | .token i => some i
  | _ => none

/-- The nodes a walk is in behind a step, innermost first. A walk leaves the innermost node only, and passes tokens
inside nodes only. -/
def open? (inside : List Nat) : Visit → Option (List Nat)
  | .enter i => some (i :: inside)
  | .leave i => if inside.head? = some i then some inside.tail else none
  | .token _ => if inside.isEmpty then none else some inside

/-- A walk that leaves every node it comes to, the innermost one first. -/
def Balanced (vs : List Visit) : Prop := vs.foldlM open? [] = some []

instance (vs : List Visit) : Decidable (Balanced vs) := inferInstanceAs (Decidable (_ = _))

end Visit

/-- A step of a walk by the number of what it comes to. -/
def WalkEvent.visit : WalkEvent → Visit
  | .enter n => .enter n.id
  | .leave n => .leave n.id
  | .token l => .token l.id

namespace Arena

/-- A walk through an arena that has come to some place. -/
structure Walker where
  /-- The node to start from, until the walk has come to it. -/
  start : Option Nat
  /-- The nodes the walk is in, innermost first, each with the parts still to come. -/
  stack : List (Nat × List Child) := []

namespace Walker

/-- The next step of a walk, and where it leads. -/
def next? (a : Arena) (w : Walker) : Option (Visit × Walker) :=
  match w.stack with
  | [] => w.start.map fun i => (.enter i, { start := none, stack := [(i, a.parts i)] })
  | (i, []) :: os => some (.leave i, { w with stack := os })
  | (i, .node j :: cs) :: os => some (.enter j, { w with stack := (j, a.parts j) :: (i, cs) :: os })
  | (i, .token j :: cs) :: os => some (.token j, { w with stack := (i, cs) :: os })

/-- The number of parts of the innermost node that are still to come. -/
def pending (w : Walker) : Nat := (w.stack.head?.map (·.2.length)).getD 0

/-- A walk that passes a token has one part less in front of it. -/
theorem pending_lt {a : Arena} {w w' : Walker} {j : Nat} (h : w.next? a = some (.token j, w')) :
    w'.pending < w.pending := by
  obtain ⟨start, stack⟩ := w
  match stack with
  | [] => cases start <;> simp [next?] at h
  | (i, []) :: os => simp [next?] at h
  | (i, .node k :: cs) :: os => simp [next?] at h
  | (i, .token k :: cs) :: os =>
    obtain ⟨-, rfl⟩ := Prod.mk.inj (Option.some.inj h)
    simp [pending]

/-- The next step of a walk over nodes, which does not stop at tokens, and where it leads. -/
def nextNode? (a : Arena) (w : Walker) : Option (Visit × Walker) :=
  match _h : w.next? a with
  | some (.token _, w') => w'.nextNode? a
  | r => r
termination_by w.pending
decreasing_by exact pending_lt _h

/-- Leaves out the parts of the innermost node that are still to come. -/
def skipSubtree (w : Walker) : Walker :=
  match w.stack with
  | [] => w
  | (i, _) :: os => { w with stack := (i, []) :: os }

/-- The next step of a walk that leaves out the parts of the nodes `skip` chooses. -/
def step? (a : Arena) (skip : Nat → Bool) (w : Walker) : Option (Visit × Walker) :=
  (w.next? a).map fun r =>
    match r.1 with
    | .enter i => (.enter i, if skip i then r.2.skipSubtree else r.2)
    | v => (v, r.2)

/-- The steps of a walk, `n` of them at most. -/
def take (a : Arena) (skip : Nat → Bool) : Nat → Walker → List Visit
  | 0, _ => []
  | n + 1, w =>
    match w.step? a skip with
    | none => []
    | some (v, w') => v :: take a skip n w'

/-- The nodes a walk over nodes comes to as `decide` directs it, if it ends within `n` steps. -/
def steer? (a : Arena) (decide : Nat → Decision) : Nat → Walker → Option (List Nat)
  | 0, _ => none
  | n + 1, w =>
    match w.nextNode? a with
    | none => some []
    | some (.enter i, w') =>
      match decide i with
      | .proceed => (steer? a decide n w').map (i :: ·)
      | .skipChildren => (steer? a decide n w'.skipSubtree).map (i :: ·)
      | .stop => some [i]
    | some (_, w') => steer? a decide n w'

end Walker

/-- The walk from a node. It comes to every node and leaves it, and passes every token, at most once. -/
def visits (a : Arena) (i : Nat) : List Visit :=
  Walker.take a (fun _ => false) (2 * a.nodes.length + a.tokens.length) { start := some i }

/-- The nodes a walk from a node comes to. -/
def below (a : Arena) (i : Nat) : List Nat := (a.visits i).filterMap Visit.entered?

/-! ## Going down -/

/-- The first part of a node that covers a stretch. An empty part covers only empty stretches. -/
def coveringPart? (a : Arena) (r : Span) (i : Nat) : Option Child :=
  (a.parts i).find? fun c => (a.span? c).any fun s => s.covers r && !(s.length = 0 && r.length ≠ 0)

/-- Where the way down from a node ends, if it ends within `n` steps: each of them goes into the first part that covers a
stretch, until there is none or it is a token. -/
def covering? (a : Arena) (r : Span) : Nat → Nat → Option Child
  | 0, _ => none
  | n + 1, i =>
    match a.coveringPart? r i with
    | some (.node j) => a.covering? r n j
    | some (.token j) => some (.token j)
    | none => some (.node i)

end Arena

/-- The node around every node and every token. -/
structure ParentMap where
  /-- The number of the node around a node. -/
  nodes : List (Option Nat)
  /-- The number of the node around a token. -/
  tokens : List Nat

namespace ParentMap

/-- Notes a part of a node. -/
def link (m : ParentMap) (parent : Nat) : Child → ParentMap
  | .node i => { m with nodes := m.nodes.set i (some parent) }
  | .token i => { m with tokens := m.tokens.set i parent }

/-- Notes the parts of a node. -/
def linkAll (m : ParentMap) (parent : Nat) (cs : List Child) : ParentMap := cs.foldl (·.link parent) m

/-- The parent map of an arena, filled on a walk from the root. -/
def of (a : Arena) : ParentMap :=
  (a.below 0).foldl (fun m i => m.linkAll i (a.parts i))
    { nodes := .replicate a.nodes.length none, tokens := .replicate a.tokens.length 0 }

/-- The number of the node around a node. -/
def parent? (m : ParentMap) (i : Nat) : Option Nat := m.nodes[i]?.join

/-- The number of the node around a token. -/
def tokenParent? (m : ParentMap) (i : Nat) : Option Nat := m.tokens[i]?

/-- A node and the nodes around it from the inside out, `n` of them at most. -/
def climb (m : ParentMap) : Nat → Nat → List Nat
  | 0, _ => []
  | n + 1, i =>
    match m.parent? i with
    | none => [i]
    | some p => i :: m.climb n p

/-- A node and the nodes around it from the inside out. Every node has a smaller number than those inside it. -/
def ancestors (m : ParentMap) (i : Nat) : List Nat := m.climb (i + 1) i

end ParentMap

end GoFront
