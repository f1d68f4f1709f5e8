import GoFront.Proofs.Tree.Traversal
import Mathlib.Data.List.TakeWhile

/-!
# Walks that leave nodes out

A walk over nodes asks at each node it comes to how to go on. What it comes to can be told without the walk: all nodes
but those below one at which it was told to leave the parts out, up to the first at which it was told to stop
(`Node.directed`). The nodes come one after another (`Element.cut_append`), and what is left out below one node lies
below no other (`Element.shown_append`).

A walker with a stack does as it is told with the node it came to last: its entry is the innermost one on the stack
until the walk goes on (`steers_element`), whatever tokens it has passed over. A walk with tokens that leaves out the
parts of some nodes still leaves every node it comes to (`Visit.Prunes`).

The main statement is `Builder.walks_directed`.
-/

namespace GoFront

/-! ## The nodes a walk comes to -/

namespace Node

/-- Whether a node lies below another one at which a walk is told to leave the parts out. -/
def hides (decide : Node → Decision) (above m : Node) : Bool :=
  decide above = .skipChildren && (Element.descendantsIn above.children).any (·.id == m.id)

/-- Those of some nodes that lie below none of them at which a walk is told to leave the parts out. -/
def shown (decide : Node → Decision) (ns : List Node) : List Node :=
  ns.filter fun m => !ns.any fun above => above.hides decide m

/-- Nodes up to the first at which a walk is told to stop, that one included. -/
def cut (decide : Node → Decision) (ns : List Node) : List Node :=
  ns.takeWhile (decide · ≠ .stop) ++ (ns.find? (decide · = .stop)).toList

/-- The nodes a walk from a node comes to: those at and below it, in the order in which they start, that lie below no
node at which it is told to leave the parts out, up to the first at which it is told to stop. -/
def directed (n : Node) (decide : Node → Decision) : List Node := cut decide (shown decide n.descendants)

end Node

namespace Element

open Node (cut shown hides)

variable {decide : Node → Decision}

/-! ### Up to the first stop -/

lemma cut_append (ms ns : List Node) :
    cut decide (ms ++ ns) = cut decide ms ++ if ms.any (decide · = .stop) then [] else cut decide ns := by
  induction ms with
  | nil => simp [cut]
  | cons m ms ih =>
    by_cases hstop : decide m = .stop
    · simp [cut, hstop]
    · have hfirst (l : List Node) : cut decide (m :: l) = m :: cut decide l := by simp [cut, hstop]
      rw [List.cons_append, hfirst, hfirst, ih]
      simp [hstop]

lemma cut_of_not_stop {ns : List Node} (h : ∀ m ∈ ns, decide m ≠ .stop) : cut decide ns = ns := by
  have hnone : ns.find? (decide · = .stop) = none := by simpa using h
  rw [cut, hnone, List.takeWhile_eq_self_iff.2 (by simpa using h)]
  simp

/-- The nodes at which a walk is told to leave the parts out. -/
abbrev skips (decide : Node → Decision) (m : Node) : Bool := decide m = .skipChildren

mutual

/-- A walk comes to the nodes below none whose parts it leaves out, up to the first at which it is told to stop. -/
lemma visit_eq_cut : (e : Element) →
    e.visit decide = (cut decide (kept (skips decide) e), (kept (skips decide) e).any (decide · = .stop))
  | .token _ _ => rfl
  | .node i k s cs => by
    have hinner := visitIn_eq_cut cs
    rw [visit, kept]
    cases hdecide : decide ⟨i, k, s, cs⟩ with
    | stop => simp [cut, hdecide]
    | skipChildren => simp [cut, hdecide]
    | proceed => simp [cut, hdecide, hinner]

lemma visitIn_eq_cut : (es : List Element) →
    visitIn decide es = (cut decide (keptIn (skips decide) es), (keptIn (skips decide) es).any (decide · = .stop))
  | [] => rfl
  | e :: es => by
    rw [visitIn, keptIn, visit_eq_cut e, visitIn_eq_cut es, cut_append]
    cases hstop : (kept (skips decide) e).any (decide · = .stop) <;> simp_all

end

/-! ### Below no node whose parts are left out -/

/-- Nodes with everything below them. -/
def Closed (ns : List Node) : Prop := ∀ m ∈ ns, descendantsIn m.children ⊆ ns

lemma closed_descendants (e : Element) : Closed (descendants e) := fun _ hm => (subset_of_mem_descendants e hm).1

lemma closed_descendantsIn (es : List Element) : Closed (descendantsIn es) := fun _ hm =>
  (subset_of_mem_descendantsIn es hm).1

/-- A node hides only what is below it. -/
lemma hides_eq_false {above m : Node} (hm : m.id ∉ (descendantsIn above.children).map Node.id) :
    above.hides decide m = false := by
  have hnone : (descendantsIn above.children).any (·.id == m.id) = false := by
    rw [List.any_eq_false]
    intro x hx heq
    exact hm (beq_iff_eq.1 heq ▸ List.mem_map_of_mem hx)
  rw [hides, hnone, Bool.and_false]

lemma any_hides_eq_false {ns : List Node} {m : Node} (h : Closed ns) (hm : m.id ∉ ns.map Node.id) :
    ns.any (fun above => above.hides decide m) = false := by
  rw [List.any_eq_false]
  intro above habove
  rw [hides_eq_false fun hmem => hm (List.map_subset _ (h above habove) hmem)]
  exact Bool.false_ne_true

/-- What is hidden among nodes is hidden by those it is among. -/
lemma shown_append {ms ns : List Node} (hms : Closed ms) (hns : Closed ns) (hids : ((ms ++ ns).map Node.id).Nodup) :
    shown decide (ms ++ ns) = shown decide ms ++ shown decide ns := by
  rw [List.map_append, List.nodup_append] at hids
  obtain ⟨-, -, hdisjoint⟩ := hids
  rw [shown, List.filter_append]
  congr 1
  · refine List.filter_congr fun m hm => ?_
    have hother : m.id ∉ ns.map Node.id := fun hmem => hdisjoint _ (List.mem_map_of_mem hm) _ hmem rfl
    rw [List.any_append, any_hides_eq_false hns hother, Bool.or_false]
  · refine List.filter_congr fun m hm => ?_
    have hother : m.id ∉ ms.map Node.id := fun hmem => hdisjoint _ hmem _ (List.mem_map_of_mem hm) rfl
    rw [List.any_append, any_hides_eq_false hms hother, Bool.false_or]

mutual

/-- If nodes are told apart by their numbers, the nodes kept are those that no other one hides. -/
lemma kept_eq_shown : (e : Element) → ((descendants e).map Node.id).Nodup →
    kept (skips decide) e = shown decide (descendants e)
  | .token _ _, _ => rfl
  | .node i k s cs, hids => by
    rw [descendants, List.map_cons, List.nodup_cons] at hids
    obtain ⟨hfresh, hids⟩ := hids
    have hinner := keptIn_eq_shown cs hids
    -- Nothing hides the node itself, and it hides all below it or nothing.
    have hself : (⟨i, k, s, cs⟩ :: descendantsIn cs).any (fun above => above.hides decide ⟨i, k, s, cs⟩) = false := by
      rw [List.any_cons, hides_eq_false hfresh, any_hides_eq_false (closed_descendantsIn cs) hfresh, Bool.or_false]
    have hbelow : ∀ m ∈ descendantsIn cs,
        hides decide ⟨i, k, s, cs⟩ m = (decide ⟨i, k, s, cs⟩ = .skipChildren : Bool) := by
      intro m hm
      have hany : (descendantsIn cs).any (·.id == m.id) = true := List.any_eq_true.2 ⟨m, hm, beq_self_eq_true _⟩
      rw [hides, hany, Bool.and_true]
    rw [kept, descendants, shown, List.filter_cons_of_pos (by rw [hself]; rfl)]
    congr 1
    split
    next hskip =>
      refine (List.filter_eq_nil_iff.2 fun m hm => ?_).symm
      rw [List.any_cons, hbelow m hm]
      simp [hskip]
    next hskip =>
      rw [hinner, shown]
      refine List.filter_congr fun m hm => ?_
      rw [List.any_cons, hbelow m hm]
      simp [hskip]

lemma keptIn_eq_shown : (es : List Element) → ((descendantsIn es).map Node.id).Nodup →
    keptIn (skips decide) es = shown decide (descendantsIn es)
  | [], _ => rfl
  | e :: es, hids => by
    rw [descendantsIn] at hids ⊢
    rw [shown_append (closed_descendants e) (closed_descendantsIn es) hids, keptIn]
    rw [List.map_append] at hids
    rw [kept_eq_shown e hids.of_append_left, keptIn_eq_shown es hids.of_append_right]

end

end Element

namespace Node

variable {n : Node}

/-- A walk comes to the nodes that can be told without it. -/
lemma visit_eq_directed (h : (n.descendants.map id).Nodup) (decide : Node → Decision) :
    n.visit decide = n.directed decide := by
  rw [visit, Element.visit_eq_cut, Element.kept_eq_shown n.element h]
  rfl

/-- A walk that is never told to stop comes to all nodes below none whose parts it leaves out. -/
lemma kept_eq_directed (h : (n.descendants.map id).Nodup) (decide : Node → Decision) (hstop : ∀ m, decide m ≠ .stop) :
    n.element.kept (Element.skips decide) = n.directed decide := by
  rw [directed, Element.cut_of_not_stop fun m _ => hstop m, Element.kept_eq_shown n.element h]
  rfl

end Node

/-! ## A walker that is directed -/

namespace Arena

open Element

variable {a : Arena} {decide : Nat → Decision} {w : Walker} {is : List Nat} {j k : Nat}

/-- From `w` on a walker that is directed comes to these nodes. It ends within `k` steps. -/
def Steers (a : Arena) (decide : Nat → Decision) (k : Nat) (w : Walker) (is : List Nat) : Prop :=
  ∀ m, k ≤ m → w.steer? a decide m = some is

namespace Steers

lemma mono {k' : Nat} (h : a.Steers decide k w is) (hk : k ≤ k') : a.Steers decide k' w is :=
  fun m hm => h m (hk.trans hm)

lemma done (h : w.nextNode? a = none) : a.Steers decide 1 w [] := by
  intro m hm
  obtain ⟨m, rfl⟩ := Nat.exists_eq_add_of_le' hm
  rw [Walker.steer?, h]

/-- A walker passes over a token. -/
lemma token {s : Option Nat} {i : Nat} {cs : List Child} {os : List (Nat × List Child)}
    (h : a.Steers decide k ⟨s, (i, cs) :: os⟩ is) : a.Steers decide k ⟨s, (i, .token j :: cs) :: os⟩ is := by
  intro m hm
  have hnext : Walker.nextNode? a ⟨s, (i, .token j :: cs) :: os⟩ = Walker.nextNode? a ⟨s, (i, cs) :: os⟩ := by
    rw [Walker.nextNode?]
    rfl
  have hbehind := h m hm
  cases m with
  | zero => cases hbehind
  | succ m => rwa [Walker.steer?, hnext, ← Walker.steer?]

/-- A walker leaves a node none of whose parts is still to come. -/
lemma leave {s : Option Nat} {i : Nat} {os : List (Nat × List Child)} (h : a.Steers decide k ⟨s, os⟩ is) :
    a.Steers decide (k + 1) ⟨s, (i, []) :: os⟩ is := by
  intro m hm
  obtain ⟨m, rfl⟩ := Nat.exists_eq_add_of_le' (Nat.le_of_add_left_le hm)
  have hnext : Walker.nextNode? a ⟨s, (i, []) :: os⟩ = some (.leave i, ⟨s, os⟩) := by
    rw [Walker.nextNode?]
    rfl
  rw [Walker.steer?, hnext]
  exact h m (by omega)

/-- A walker that comes to a node does as it is told: it goes on with the parts of that node, or behind it, or ends. -/
lemma enter {ps : List Child} {os : List (Nat × List Child)}
    (hnext : w.nextNode? a = some (.enter j, ⟨none, (j, ps) :: os⟩))
    (hproceed : decide j = .proceed → a.Steers decide k ⟨none, (j, ps) :: os⟩ is)
    (hskip : decide j = .skipChildren → a.Steers decide k ⟨none, (j, []) :: os⟩ is)
    (hstop : decide j = .stop → is = []) : a.Steers decide (k + 1) w (j :: is) := by
  intro m hm
  obtain ⟨m, rfl⟩ := Nat.exists_eq_add_of_le' (Nat.le_of_add_left_le hm)
  have hk : k ≤ m := by omega
  rw [Walker.steer?, hnext]
  cases hdecide : decide j with
  | proceed => simp [hdecide, hproceed hdecide m hk]
  | skipChildren => simp [hdecide, Walker.skipSubtree, hskip hdecide m hk]
  | stop => simp [hdecide, hstop hdecide]

/-- A walker that comes to a node walks over it as it is told, given that it does so with the parts. -/
lemma node {n : Node} {os : List (Nat × List Child)}
    (hnext : w.nextNode? a = some (.enter n.id, ⟨none, (n.id, n.children.map child) :: os⟩))
    (hparts : a.Steers decide (k + 1 + 2 * (descendantsIn n.children).length)
      ⟨none, (n.id, n.children.map child) :: os⟩ ((visitIn (fun m => decide m.id) n.children).1.map Node.id ++
        if (visitIn (fun m => decide m.id) n.children).2 then [] else is))
    (hbehind : a.Steers decide k ⟨none, os⟩ is) :
    a.Steers decide (k + 2 * (descendants n.element).length) w
      ((n.element.visit fun m => decide m.id).1.map Node.id ++
        if (n.element.visit fun m => decide m.id).2 then [] else is) := by
  have hlength : k + 2 * (descendants n.element).length = k + 1 + 2 * (descendantsIn n.children).length + 1 := by
    rw [Node.element, descendants, List.length_cons]
    omega
  rw [hlength, Node.element, visit]
  cases hdecide : decide n.id with
  | proceed => exact .enter hnext (fun _ => hparts) (by simp [hdecide]) (by simp [hdecide])
  | skipChildren =>
    exact .enter hnext (by simp [hdecide]) (fun _ => hbehind.leave.mono (Nat.le_add_right _ _)) (by simp [hdecide])
  | stop => exact .enter hnext (by simp [hdecide]) (by simp [hdecide]) fun _ => rfl

end Steers

mutual

/-- A walker that comes to an element walks over it as it is told and, unless it is told to stop, goes on behind it. -/
lemma steers_element {i k : Nat} {cs : List Child} {os : List (Nat × List Child)} {is : List Nat} : (e : Element) →
    a.Holds (descendants e) → a.Steers decide k ⟨none, (i, cs) :: os⟩ is →
    a.Steers decide (k + 2 * (descendants e).length) ⟨none, (i, e.child :: cs) :: os⟩
      ((e.visit fun m => decide m.id).1.map Node.id ++ if (e.visit fun m => decide m.id).2 then [] else is)
  | .token _ _, _, h => h.token
  | .node j l s ps, hholds, h => by
    have hparts : a.parts j = ps.map child := hholds ⟨j, l, s, ps⟩ List.mem_cons_self
    have hinner := steers_elements ps (fun m hm => hholds m (List.mem_cons_of_mem _ hm)) (h.leave (i := j))
    refine Steers.node (n := ⟨j, l, s, ps⟩) ?_ hinner h
    rw [Walker.nextNode?, ← hparts]
    rfl

lemma steers_elements {i k : Nat} {os : List (Nat × List Child)} {is : List Nat} : (es : List Element) →
    a.Holds (descendantsIn es) → a.Steers decide k ⟨none, (i, []) :: os⟩ is →
    a.Steers decide (k + 2 * (descendantsIn es).length) ⟨none, (i, es.map child) :: os⟩
      ((visitIn (fun m => decide m.id) es).1.map Node.id ++ if (visitIn (fun m => decide m.id) es).2 then [] else is)
  | [], _, h => h
  | e :: es, hholds, h => by
    have hrest := steers_elements es (fun m hm => hholds m (List.mem_append_right _ hm)) h
    have hfirst := steers_element e (fun m hm => hholds m (List.mem_append_left _ hm)) hrest
    have hlength : k + 2 * (descendantsIn (e :: es)).length =
        k + 2 * (descendantsIn es).length + 2 * (descendants e).length := by
      rw [descendantsIn, List.length_append]
      omega
    rw [hlength, visitIn]
    cases hstop : (e.visit fun m => decide m.id).2 <;> simpa [hstop] using hfirst

end

/-- A walker that starts from a node comes to the nodes of the walk over it. -/
lemma steers_node {n : Node} (h : a.Holds n.descendants) :
    a.Steers decide (2 * n.descendants.length + 1) { start := some n.id } ((n.visit fun m => decide m.id).map Node.id) := by
  have hparts : a.parts n.id = n.children.map child := h n n.mem_descendants_self
  have hend : a.Steers decide 1 ⟨none, []⟩ [] := .done (by rw [Walker.nextNode?]; rfl)
  have hinner := steers_elements n.children (fun m hm => h m (List.mem_cons_of_mem _ hm)) (hend.leave (i := n.id))
  have hwalk : a.Steers decide (1 + 2 * (descendants n.element).length) { start := some n.id } _ :=
    Steers.node (by rw [Walker.nextNode?, ← hparts]; rfl) hinner hend
  simpa [Nat.add_comm, Node.visit, Node.descendants] using hwalk

end Arena

/-! ## Walks that leave the parts of nodes out -/

namespace Visit

variable {skip : Nat → Bool} {us vs : List Visit} {v : Visit}

/-- Each of the chosen nodes a walk comes to is left in the step behind that. -/
def Prunes (skip : Nat → Bool) (vs : List Visit) : Prop :=
  ∀ i k, skip i = true → vs[k]? = some (.enter i) → vs[k + 1]? = some (.leave i)

namespace Prunes

lemma nil : Prunes skip [] := fun _ _ _ h => nomatch h

lemma cons (hv : ∀ i, skip i = true → v = .enter i → vs[0]? = some (.leave i)) (h : Prunes skip vs) :
    Prunes skip (v :: vs) := by
  intro i k hskip hk
  cases k with
  | zero => exact hv i hskip (Option.some.inj hk)
  | succ k => exact h i k hskip hk

lemma append (hus : Prunes skip us) (hvs : Prunes skip vs) : Prunes skip (us ++ vs) := by
  induction us with
  | nil => exact hvs
  | cons u us ih =>
    refine cons (fun i hskip hu => ?_) (ih fun i k hskip hk => hus i (k + 1) hskip hk)
    have hleave : us[0]? = some (.leave i) := hus i 0 hskip (congrArg some hu)
    obtain ⟨hlt, -⟩ := List.getElem?_eq_some_iff.1 hleave
    exact (List.getElem?_append_left hlt).trans hleave

end Prunes

/-- A walk that is back in the nodes it was in when it began left every node as often as it came to it. -/
lemma count_of_foldlM {inside outside : List Nat} (h : vs.foldlM open? inside = some outside) (i : Nat) :
    inside.count i + vs.count (.enter i) = outside.count i + vs.count (.leave i) := by
  induction vs generalizing inside with
  | nil => simp_all
  | cons v vs ih =>
    rw [List.foldlM_cons, Option.bind_eq_bind, Option.bind_eq_some_iff] at h
    obtain ⟨next, hnext, hrest⟩ := h
    have hcount := ih hrest
    cases v with
    | enter j =>
      obtain rfl := Option.some.inj hnext
      simp only [List.count_cons, beq_iff_eq, enter.injEq, reduceCtorEq, if_false] at hcount ⊢
      omega
    | leave j =>
      cases inside with
      | nil => cases hnext
      | cons l inside =>
        obtain ⟨rfl, rfl⟩ : l = j ∧ inside = next := by simpa [open?] using hnext
        simp only [List.count_cons, beq_iff_eq, leave.injEq, reduceCtorEq, if_false] at hcount ⊢
        omega
    | token j =>
      obtain ⟨-, rfl⟩ : inside ≠ [] ∧ inside = next := by simpa [open?] using hnext
      simpa [List.count_cons] using hcount

/-- A walk that leaves every node it comes to leaves none more often than it comes to it. -/
lemma Balanced.count_leave (h : Balanced vs) (i : Nat) : vs.count (.leave i) = vs.count (.enter i) := by
  simpa using (count_of_foldlM h i).symm

end Visit

namespace Element

mutual

/-- A walk over an element leaves a node right behind coming to it, if it leaves out the parts. -/
lemma prunes_events (skip : Nat → Bool) : (e : Element) →
    Visit.Prunes skip ((e.events fun m => skip m.id).map WalkEvent.visit)
  | .token _ _ => .cons (fun _ _ h => by cases h) .nil
  | .node j k s cs => by
    have hinner := prunes_eventsIn skip cs
    have hleave : Visit.Prunes skip [.leave j] := .cons (fun _ _ h => by cases h) .nil
    rw [events, List.map_cons, List.map_append]
    cases hskip : skip j with
    | true =>
      refine .cons (fun i _ h => ?_) hleave
      obtain rfl := Visit.enter.inj h
      rfl
    | false =>
      refine .cons (fun i hi h => ?_) (hinner.append hleave)
      obtain rfl := Visit.enter.inj h
      exact absurd (hskip.symm.trans hi) Bool.false_ne_true

lemma prunes_eventsIn (skip : Nat → Bool) : (es : List Element) →
    Visit.Prunes skip ((eventsIn (fun m => skip m.id) es).map WalkEvent.visit)
  | [] => .nil
  | e :: es => by
    rw [eventsIn, List.map_append]
    exact (prunes_events skip e).append (prunes_eventsIn skip es)

end

end Element

/-- The walk `vs` from a node in an arena that leaves out the parts of the nodes `skip` chooses. -/
structure Arena.WalksPruned (a : Arena) (n : Node) (skip : Nat → Bool) (vs : List Visit) : Prop where
  /-- A walker that is told so as soon as it has come to one of them takes its steps, and no others. -/
  yields : a.Yields skip { start := some n.id } vs
  /-- It leaves every node it comes to, the innermost one first. -/
  balanced : Visit.Balanced vs
  /-- It leaves a node as often as it comes to it. -/
  counts : ∀ i, vs.count (.leave i) = vs.count (.enter i)
  /-- It leaves each of the chosen nodes in the step behind the one that comes to it. -/
  pruned : Visit.Prunes skip vs
  /-- It comes to the nodes below none of the chosen ones. -/
  entered : vs.filterMap Visit.entered? =
    (n.directed fun m => if skip m.id then .skipChildren else .proceed).map Node.id

namespace SyntaxTree.Assembled

open Element

variable {text : Text} {offset : Nat} {t : SyntaxTree} {n : Node}

/-- The nodes at and below a node are told apart by their numbers. -/
lemma nodup_ids (h : t.Assembled text offset) (hn : n ∈ t.root.descendants) : (n.descendants.map Node.id).Nodup := by
  rw [h.ids_eq_range' hn]
  exact List.nodup_range'

/-- The arena of a tree holds what is at and below a node. -/
lemma holds_below (h : t.Assembled text offset) (hn : n ∈ t.root.descendants) : t.arena.Holds n.descendants :=
  fun m hm => h.holds m ((infix_descendants t.root.element hn).1.subset hm)

/-- A walker in the arena of a tree that leaves out the parts of nodes. -/
lemma walks_pruned (h : t.Assembled text offset) (hn : n ∈ t.root.descendants) (skip : Nat → Bool) :
    t.arena.WalksPruned n skip ((n.events fun m => skip m.id).map WalkEvent.visit) := by
  have hbalanced := balanced_events (fun m => skip m.id) n
  refine ⟨Arena.yields_node (h.holds_below hn), hbalanced, hbalanced.count_leave, prunes_events skip n.element, ?_⟩
  have hkept := Node.kept_eq_directed (h.nodup_ids hn) (fun m => if skip m.id then .skipChildren else .proceed)
    fun m => by split <;> simp
  rw [Node.events, entered_events, ← hkept]
  congr 2
  funext m
  cases hskip : skip m.id <;> simp [skips, hskip]

end SyntaxTree.Assembled

/-- **Directed walks.** In a tree that is built from steps, a walk over nodes comes to the nodes at and below the one it
starts from that lie below none at which it is told to leave the parts out, up to the first at which it is told to stop.
So does a walker with a stack, and it comes to an end. A walk with tokens that leaves out the parts of some nodes still
leaves every node it comes to, those nodes in the next step. -/
theorem Builder.walks_directed {text : Text} {offset : Nat} {ss : List BuildStep} {t : SyntaxTree}
    (h : Builder.build text offset ss = .ok t) {n : Node} (hn : n ∈ t.root.descendants) :
    (∀ decide, n.visit decide = n.directed decide) ∧
    (∀ (decide : Nat → Decision) (k : Nat), 2 * t.arena.nodes.length < k →
      Arena.Walker.steer? t.arena decide k { start := some n.id } =
        some ((n.directed fun m => decide m.id).map Node.id)) ∧
    ∀ skip : Nat → Bool, t.arena.WalksPruned n skip ((n.events fun m => skip m.id).map WalkEvent.visit) := by
  have hassembled := Builder.assembled_of_build h
  have hvisit := Node.visit_eq_directed (hassembled.nodup_ids hn)
  refine ⟨hvisit, fun decide k hk => ?_, hassembled.walks_pruned hn⟩
  rw [← hvisit]
  refine Arena.steers_node (hassembled.holds_below hn) k ?_
  have hlength : n.descendants.length ≤ t.root.descendants.length :=
    (Element.infix_descendants t.root.element hn).1.length_le
  rw [SyntaxTree.Assembled.length_nodes] at hk
  omega

/-- The steps that build a file of three names, the first of them in a list. -/
def Builder.listSteps : List BuildStep := [.start .sourceFile, .start .argumentList, .start .nameRef,
  .token .identifier 0 1, .finish, .finish, .start .nameRef, .token .identifier 1 2, .finish,
  .start .nameRef, .token .identifier 2 3, .finish, .finish]

/-- A walk that leaves out the list and is stopped at the name behind it comes to neither of the other names. -/
theorem Builder.walks_directed_list :
    ∃ t, Builder.build ['a', 'b', 'c'] 0 listSteps = .ok t ∧
      (t.root.directed fun m => if m.id = 1 then .skipChildren else if m.id = 3 then .stop else .proceed).map Node.id =
        [0, 1, 3] ∧
      Arena.Walker.steer? t.arena (fun i => if i = 1 then .skipChildren else if i = 3 then .stop else .proceed) 11
        { start := some 0 } = some [0, 1, 3] ∧
      t.arena.WalksPruned t.root (· = 1) [.enter 0, .enter 1, .leave 1, .enter 3, .token 1, .leave 3, .enter 4,
        .token 2, .leave 4, .leave 0] := by
  have hrun : (Builder.build ['a', 'b', 'c'] 0 listSteps).toOption.map (fun t => (t.root.id, t.arena.nodes.length,
      (t.root.directed fun m => if m.id = 1 then .skipChildren else if m.id = 3 then .stop else .proceed).map Node.id,
      (t.root.events fun m => m.id = 1).map WalkEvent.visit)) =
      some (0, 5, [0, 1, 3], [.enter 0, .enter 1, .leave 1, .enter 3, .token 1, .leave 3, .enter 4,
        .token 2, .leave 4, .leave 0]) := by decide +kernel
  generalize hbuild : Builder.build ['a', 'b', 'c'] 0 listSteps = built at hrun ⊢
  cases built with
  | error e => cases hrun
  | ok t =>
    obtain ⟨hroot, hfields⟩ := Prod.mk.inj (Option.some.inj hrun)
    obtain ⟨hlength, hfields⟩ := Prod.mk.inj hfields
    obtain ⟨hdirected, hevents⟩ := Prod.mk.inj hfields
    obtain ⟨-, hsteers, hpruned⟩ := Builder.walks_directed hbuild t.root.mem_descendants_self
    have hsteer := hsteers (fun i => if i = 1 then .skipChildren else if i = 3 then .stop else .proceed) 11
      (by rw [hlength]; decide)
    rw [hdirected, hroot] at hsteer
    have hwalk := hpruned (· = 1)
    rw [hevents] at hwalk
    exact ⟨t, rfl, hdirected, hsteer, hwalk⟩

end GoFront
