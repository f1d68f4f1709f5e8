import GoFront.Proofs.Parse.Template.Matching
import GoFront.Proofs.Tree.Parents

/-!
# `break` and `continue` in a tree

Whether a `break` or `continue` stands in a loop is handed down while a template is read: the sequence of a loop is in a
loop, that of a definition is in none, and all others, those of `else` branches among them, are where their blocks are.
The nodes around the directive in the tree tell the same (`loopsAlong_iff`), so it carries the error that there is no
loop if and only if no sequence of a loop is around it, up to the nearest definition.
-/

namespace GoFront.Template

open GoFront.Parser Sprout

variable {d : Delimiters}

/-! ## The nodes around a node -/

/-- Whether a node is a definition, which no loop around it reaches into. -/
def isDefinition (k : Kind) : Bool := k == .templateDefine || k == .templateBlock

/-- On the way from a node up to the nearest definition there is the sequence of a loop. -/
def LoopAround (path : List Node) : Prop :=
  ∃ l r : Node, [l, r] <:+: path.takeWhile (fun m => !isDefinition m.kind) ∧
    l.kind = .templateList ∧ r.kind = .templateRange

/-- Whether a part of a node is in a loop, when it is known whether the node is. -/
def loopsBelow (parent : Kind) (inLoop : Bool) (k : Kind) : Bool :=
  !isDefinition parent && (inLoop || (k == .templateList && parent == .templateRange))

/-- Whether a node is in a loop, as it is handed down to it along the nodes around it. -/
def loopsAlong : List Node → Bool
  | n :: m :: path => loopsBelow m.kind (loopsAlong (m :: path)) n.kind
  | _ => false

lemma loopsBelow_of_ne {parent k : Kind} {inLoop : Bool} (hdefinition : isDefinition parent = false)
    (hrange : parent ≠ .templateRange) : loopsBelow parent inLoop k = inLoop := by
  rw [loopsBelow, hdefinition, beq_false_of_ne hrange, Bool.and_false, Bool.or_false]
  rfl

lemma not_infix_singleton {α : Type} {x y z : α} : ¬[x, y] <:+: [z] := fun h => Nat.not_succ_le_self 1 h.length_le

lemma loopsAlong_cons_iff {n : Node} {path : List Node} : loopsAlong (n :: path) = true ↔ ∃ l r : Node,
    [l, r] <:+: n :: path.takeWhile (fun m => !isDefinition m.kind) ∧ l.kind = .templateList ∧ r.kind = .templateRange := by
  induction path generalizing n with
  | nil => exact ⟨Bool.noConfusion, fun ⟨_, _, h, _⟩ => (not_infix_singleton h).elim⟩
  | cons m path ih =>
    rw [loopsAlong, loopsBelow, List.takeWhile_cons]
    cases isDefinition m.kind with
    | true => exact ⟨Bool.noConfusion, fun ⟨_, _, h, _⟩ => (not_infix_singleton h).elim⟩
    | false =>
      rw [Bool.not_false, Bool.true_and, if_pos rfl, Bool.or_eq_true, ih, Bool.and_eq_true, beq_iff_eq, beq_iff_eq]
      constructor
      · rintro (⟨l, r, h, hl, hr⟩ | ⟨hn, hm⟩)
        · exact ⟨l, r, List.infix_cons h, hl, hr⟩
        · exact ⟨n, m, ⟨[], _, rfl⟩, hn, hm⟩
      · rintro ⟨l, r, h, hl, hr⟩
        refine (List.infix_cons_iff.1 h).symm.imp (fun h => ⟨l, r, h, hl, hr⟩) fun h => ?_
        obtain ⟨hln, h⟩ := List.cons_prefix_cons.1 h
        obtain ⟨hrm, -⟩ := List.cons_prefix_cons.1 h
        exact ⟨hln ▸ hl, hrm ▸ hr⟩

/-- What is handed down to a node is what the nodes around it tell. -/
lemma loopsAlong_iff {n : Node} {path : List Node} (hn : isDefinition n.kind = false) :
    loopsAlong (n :: path) = true ↔ LoopAround (n :: path) := by
  rw [LoopAround, List.takeWhile_cons, hn]
  exact loopsAlong_cons_iff

/-! ## What grows -/

/-- The kinds of the nodes of loop controls, each with its keyword. -/
abbrev loopControls : List (Kind × String) := [(Kind.templateBreak, "break"), (.templateContinue, "continue")]

/-- The parts of a loop control: a directive, and outside loops the error that there is none. -/
def IsJump (d : Delimiters) (keyword : String) (inLoop : Bool) (cs : List Sprout) : Prop :=
  ∃ xs, Bare xs ∧ cs = xs ++ if inLoop then [] else [Sprout.error (.outsideLoop d keyword) (Word.spanOf (wordsIn xs))]

/-- The loop controls at and below a node carry the error that there is no loop just where there is none, when it is
known whether the node is in one. -/
inductive TellsLoops (d : Delimiters) : Bool → Kind → List Sprout → Prop
  | intro {inLoop : Bool} {k : Kind} {cs : List Sprout}
    (hself : ∀ keyword, (k, keyword) ∈ loopControls → IsJump d keyword inLoop cs)
    (hparts : ∀ k' ds, Sprout.node k' ds ∈ cs → TellsLoops d (loopsBelow k inLoop k') k' ds) : TellsLoops d inLoop k cs

lemma mem_directiveKinds {k : Kind} {keyword : String} (h : (k, keyword) ∈ loopControls) : k ∈ directiveKinds := by
  have hall : ∀ p ∈ loopControls, p.1 ∈ directiveKinds := by decide
  exact hall _ h

section

variable {inLoop : Bool} {k : Kind} {cs xs : List Sprout} {ws : List Word}

lemma IsPart.tellsLoops (h : IsPart (.node k cs)) : TellsLoops d inLoop k cs := by
  generalize hx : Sprout.node k cs = x at h
  induction h generalizing k cs inLoop with
  | word => exact nomatch hx
  | error => exact nomatch hx
  | node hk _ ih =>
    obtain ⟨rfl, rfl⟩ := Sprout.node.inj hx
    exact .intro (fun _ hmem => absurd (mem_directiveKinds hmem) hk) fun k' ds hds => ih _ hds rfl

/-- A node that starts with a directive and is no loop control. -/
lemma Action.tellsLoops {ys : List Sprout} (h : Action xs ws) (hk : ∀ p ∈ loopControls, k ≠ p.1)
    (hys : ∀ k' ds, Sprout.node k' ds ∈ ys → TellsLoops d (loopsBelow k inLoop k') k' ds) :
    TellsLoops d inLoop k (xs ++ ys) :=
  .intro (fun _ hmem => absurd rfl (hk _ hmem)) fun k' ds hds =>
    (List.mem_append.1 hds).elim (fun hx => (h.isPart_of_node hx).tellsLoops) (hys k' ds)

lemma Action.tellsLoops_alone (h : Action xs ws) (hk : ∀ p ∈ loopControls, k ≠ p.1) : TellsLoops d inLoop k xs :=
  List.append_nil xs ▸ h.tellsLoops hk fun _ _ hds => nomatch hds

section

variable {block : Bool → Sprout → List Word → Prop}
  (hblock : ∀ {inLoop k cs ws}, block inLoop (.node k cs) ws → TellsLoops d inLoop k cs)

include hblock

lemma Item.tellsLoops (h : Item d block inLoop (.node k cs) ws) : TellsLoops d inLoop k cs := by
  generalize hx : Sprout.node k cs = x at h
  cases h with
  | text => exact nomatch hx
  | simple hk hxs =>
    obtain ⟨rfl, rfl⟩ := Sprout.node.inj hx
    have hkinds : ∀ k ∈ [Kind.templateAction, .templateCall, .templateReturn], ∀ p ∈ loopControls, k ≠ p.1 := by decide
    exact hxs.tellsLoops_alone (hkinds _ hk)
  | @jump k' keyword xs ws hk hxs _ hbare =>
    obtain ⟨rfl, rfl⟩ := Sprout.node.inj hx
    refine .intro (fun keyword' hk' => ?_) fun k' ds hds => ?_
    · have hkeys : ∀ p ∈ loopControls, ∀ q ∈ loopControls, p.1 = q.1 → p.2 = q.2 := by decide
      obtain rfl : keyword' = keyword := hkeys _ hk' _ hk rfl
      exact ⟨xs, hbare, rfl⟩
    · rcases List.mem_append.1 hds with hx | hx
      · exact (hxs.isPart_of_node hx).tellsLoops
      · split at hx
        · exact nomatch hx
        · exact nomatch List.mem_singleton.1 hx
  | block h => exact hblock (hx ▸ h)

lemma IsList.tellsLoops (h : IsList d block inLoop (.node k cs) ws) : k = .templateList ∧ TellsLoops d inLoop k cs := by
  cases h with
  | intro hxs =>
    have hkinds : ∀ p ∈ loopControls, Kind.templateList ≠ p.1 := by decide
    refine ⟨rfl, .intro (fun _ hmem => absurd rfl (hkinds _ hmem)) fun k' ds hds => ?_⟩
    obtain ⟨ws', hitem⟩ := hxs.exists_of_mem hds
    rw [loopsBelow_of_ne rfl (by decide)]
    exact hitem.tellsLoops hblock

lemma IsElse.tellsLoops (h : IsElse d block inLoop (.node k cs) ws) : k = .templateElse ∧ TellsLoops d inLoop k cs := by
  cases h with
  | intro hxs _ hes hl =>
    refine ⟨rfl, hxs.tellsLoops (by decide) fun k' ds hds => ?_⟩
    rcases List.mem_append.1 hds with he | hlist
    · rcases hes with rfl | ⟨p, r, rfl, -⟩
      · exact nomatch he
      · exact nomatch List.mem_singleton.1 he
    · rw [← List.mem_singleton.1 hlist] at hl
      rw [loopsBelow_of_ne rfl (by decide)]
      exact (hl.tellsLoops hblock).2

lemma BlockNode.tellsLoops (h : BlockNode d block inLoop (.node k cs) ws) : TellsLoops d inLoop k cs := by
  cases h with
  | @intro b xs es l y ws hb hxs _ hl hes hnamed _ hy =>
  have hkinds : ∀ b ∈ blockForms, ∀ p ∈ loopControls, b.kind ≠ p.1 := by decide
  have hbody : ∀ b ∈ blockForms, ∀ v, loopsBelow b.kind v .templateList = b.loops v := by decide
  have helse : ∀ b ∈ blockForms, b.named = false → ∀ v, loopsBelow b.kind v .templateElse = v := by decide
  refine hxs.tellsLoops (hkinds b hb) fun k' ds hds => ?_
  rcases List.mem_cons.1 hds with heq | hds
  · rw [← heq] at hl
    obtain ⟨rfl, hlist⟩ := hl.tellsLoops hblock
    rw [hbody b hb]
    exact hlist
  rcases List.mem_append.1 hds with he | hend
  · obtain ⟨ws', he'⟩ := hes.exists_of_mem he
    obtain ⟨rfl, hbranch⟩ := he'.tellsLoops hblock
    have hplain : b.named = false := by
      rw [Bool.eq_false_iff]
      exact fun hb => nomatch hnamed hb ▸ he
    rw [helse b hb hplain]
    exact hbranch
  · rw [← List.mem_singleton.1 hend] at hy
    cases hy with
    | closed hxs => exact hxs.tellsLoops_alone (by decide)

end

lemma tellsLoops_isBlock {levels : Nat} (h : IsBlock d levels inLoop (.node k cs) ws) : TellsLoops d inLoop k cs := by
  induction levels generalizing inLoop k cs ws with
  | zero =>
    have hkinds : ∀ p ∈ loopControls, Kind.error ≠ p.1 := by decide
    cases h with
    | intro =>
      refine .intro (fun _ hmem => absurd rfl (hkinds _ hmem)) fun k' ds hds => ?_
      rcases List.mem_cons.1 hds with heq | hds
      · exact nomatch heq
      · obtain ⟨v, -, heq⟩ := List.mem_map.1 hds
        exact nomatch heq
  | succ levels ih => exact BlockNode.tellsLoops ih h

/-- Nothing in a document is in a loop that is not in a block. -/
lemma TopItem.tellsLoops (h : TopItem d (.node k cs) ws) : TellsLoops d false k cs := by
  cases h with
  | item h => exact h.tellsLoops tellsLoops_isBlock
  | stray h =>
    cases h with
    | intro hk hxs =>
      have hkinds : ∀ p ∈ [(Kind.templateEnd, Kind.endKeyword, "end"), (.templateElse, .elseKeyword, "else")],
          ∀ q ∈ loopControls, p.1 ≠ q.1 := by decide
      exact hxs.tellsLoops (hkinds _ hk) fun _ _ hds => nomatch List.mem_singleton.1 hds

end

/-! ## The tree -/

section

variable {A : Nat → List (Problem × Span)} {cs : List Sprout} {n : Node}

/-- A node that ends with a word covers the stretch of its words. -/
lemma span_eq_spanOf {r : Node} {w : Word} (htiled : ∀ m ∈ r.descendants, Element.Tile m.span.start m.children m.span.stop)
    (hn : n ∈ r.descendants) (hparts : n.RendersParts isTrivia A cs) (hw : EndsWith w cs) :
    n.span = Word.spanOf (wordsIn cs) := by
  obtain ⟨z, hz, hlast⟩ := hparts.parts.last_of_endsWith hw
  obtain ⟨a, ls, hleaves⟩ := List.exists_cons_of_ne_nil (List.ne_nil_of_mem (List.mem_of_getLast? hz))
  have ha : n.leaves.head? = some a := congrArg List.head? hleaves
  have hwords := hparts.parts.map_token_leavesIn
  rw [hleaves, List.filter_cons_of_pos (by simp [hparts.lead a ha]), List.map_cons] at hwords
  obtain ⟨v, vs, hv, hfirst, -⟩ := List.map_eq_cons_iff.1 hwords.symm
  rw [Node.span_eq_between htiled hn ha hz, Word.spanOf, hw.getLast?_wordsIn, hv, ← hfirst, hlast]
  rfl

variable {host : HostLanguage} {offset : Nat} {text : Text} {es gap : List Element} {r : Node}

/-- Whether the nodes of the tree are in loops is handed down along the nodes around them. -/
lemma tellsLoops_along (hchildren : r.children = es ++ gap) (hgap : Element.IsGap isTrivia gap) (hroot : r.kind = .template)
    (hrenders : Renders isTrivia A (grownOf d host offset text) es) {path : List Node}
    (hchain : (n :: path).IsChain fun m n => m ∈ n.nodes) (hlast : path.getLast? = some r) :
    ∃ cs, n.RendersParts isTrivia A cs ∧ TellsLoops d (loopsAlong (n :: path)) n.kind cs := by
  induction path generalizing n with
  | nil => exact nomatch hlast
  | cons m path ih =>
    obtain ⟨hnm, hchain⟩ := List.isChain_cons_cons.1 hchain
    cases path with
    | nil =>
      obtain rfl : m = r := Option.some.inj hlast
      rw [Node.nodes, hchildren, List.filterMap_append, Renders.filterMap_node?_gap hgap, List.append_nil] at hnm
      obtain ⟨cs, hcs, hparts⟩ := hrenders.exists_part hnm
      obtain ⟨ws, hitem⟩ := (row_grownOf d host offset text).2.exists_of_mem hcs
      have hout : loopsAlong [n, m] = false := by
        rw [loopsAlong, hroot]
        simp [loopsBelow, loopsAlong]
      exact ⟨cs, hparts, hout ▸ hitem.tellsLoops⟩
    | cons m' path =>
      obtain ⟨cs, hparts, htells⟩ := ih hchain (by rwa [List.getLast?_cons_cons] at hlast)
      obtain ⟨ds, hds, hparts'⟩ := hparts.parts.exists_part hnm
      cases htells with
      | intro _ hbelow => exact ⟨ds, hparts', hbelow _ _ hds⟩

end

/-- What is told about a loop control. -/
lemma saying_outsideLoop {host : HostLanguage} {offset : Nat} {text : Text} {p : Kind × String} (hp : p ∈ loopControls)
    {n : Node} (hn : n ∈ (parse d host offset text).root.descendants) (hkind : n.kind = p.1) :
    let told := ((parse d host offset text).saying n (Problem.outsideLoop d p.2).message).map SyntaxError.report
    LoopAround ((parse d host offset text).ancestors n.id) ∧ told = [] ∨
      ¬LoopAround ((parse d host offset text).ancestors n.id) ∧ told = [(.outsideLoop d p.2, n.span)] := by
  obtain ⟨es, gap, hchildren, hgap, hrenders⟩ := renders_parse d host offset text
  have hcovers := (parse?_eq_ok d host offset text).2
  have hsaying := map_report_saying d host offset text n (p := .outsideLoop d p.2) trivial
  dsimp only
  rw [hsaying]
  generalize parse d host offset text = t at hn hchildren hrenders hcovers ⊢
  obtain ⟨⟨m, hfirst, hid⟩, ⟨r, hlast, rfl⟩, hchain, hmem⟩ := t.ancestors_spec (List.mem_map_of_mem hn)
  generalize t.ancestors n.id = path at hfirst hlast hchain hmem ⊢
  obtain ⟨path, rfl⟩ : ∃ up, path = m :: up := List.head?_eq_some_iff.1 hfirst
  have hnodup : (t.root.descendants.map Node.id).Nodup := hcovers.nodeIds ▸ List.nodup_range
  obtain rfl : m = n := List.inj_on_of_nodup_map hnodup (hmem m List.mem_cons_self) hn hid
  have hkinds : ∀ p ∈ loopControls, p.1 ≠ .template ∧ isDefinition p.1 = false := by decide
  replace hlast : path.getLast? = some t.root := by
    cases path with
    | nil =>
      obtain rfl : m = t.root := Option.some.inj hlast
      exact absurd (hkind.symm.trans hcovers.kind) (hkinds p hp).1
    | cons m' path => rwa [List.getLast?_cons_cons] at hlast
  obtain ⟨cs, hparts, htells⟩ := tellsLoops_along hchildren hgap hcovers.kind hrenders hchain hlast
  obtain ⟨xs, hbare, hcs⟩ : IsJump d p.2 (loopsAlong (m :: path)) cs := by
    cases htells with
    | intro hself => exact hself p.2 (hkind ▸ hp)
  rw [← loopsAlong_iff (hkind ▸ (hkinds p hp).2)]
  generalize loopsAlong (m :: path) = inLoop at hcs ⊢
  obtain ⟨w, hw⟩ := hbare.ends
  have hkeyword : ∀ p ∈ loopControls, p.2 = "break" ∨ p.2 = "continue" := by decide
  have hnone : (own xs).filter (fun x => x.1.message = (Problem.outsideLoop d p.2).message) = [] := by
    rw [List.filter_eq_nil_iff]
    intro x hx heq
    have hmessage : (Problem.outsideLoop d p.2).message = "unclosed action" := by
      rw [← of_decide_eq_true heq, hbare.own x hx]
      rfl
    have harises : (Problem.outsideLoop d p.2).Arises d := ⟨rfl, hkeyword p hp⟩
    exact nomatch Problem.eq_unclosedAction_of_message harises hmessage
  rw [hparts.own, hcs, own_append, List.filter_append, hnone, List.nil_append]
  cases inLoop with
  | true => exact .inl ⟨rfl, rfl⟩
  | false =>
    have hends : EndsWith w cs := hcs ▸ .error hw
    have hwords : wordsIn cs = wordsIn xs := by simp [hcs, wordsIn, words]
    rw [span_eq_spanOf hcovers.tiled hn hparts hends, hwords]
    exact .inr ⟨Bool.false_ne_true, by simp [own]⟩

/-- **A `break` or `continue` without a loop is reported exactly**: in the tree of every stretch of a document that is
parsed as a template, it carries one error that says so, over all of it, unless there is the sequence of a loop on the
way up to the nearest definition around it; and then it carries none. -/
theorem loop_controls_told (d : Delimiters) (host : HostLanguage) (before piece after : Text) : ∃ t,
    parseRange? d host (before ++ piece ++ after) before.size (before.size + piece.size) = .ok t ∧
      ∀ p ∈ [(Kind.templateBreak, "break"), (.templateContinue, "continue")],
        ∀ n ∈ t.root.descendants, n.kind = p.1 →
          (t.saying n (d.around p.2 ++ " outside " ++ d.around "range") = [] ↔ LoopAround (t.ancestors n.id)) ∧
          ((∃ e, t.saying n (d.around p.2 ++ " outside " ++ d.around "range") = [e] ∧ e.span = n.span) ↔
            ¬LoopAround (t.ancestors n.id)) := by
  refine ⟨_, parseRange?_eq_ok d host before piece after, fun p hp n hn hkind => ?_⟩
  have hsaying := saying_outsideLoop hp hn hkind
  generalize parse d host before.size piece = t at hsaying ⊢
  rw [show d.around p.2 ++ " outside " ++ d.around "range" = (Problem.outsideLoop d p.2).message from rfl]
  rcases hsaying with ⟨hloop, htold⟩ | ⟨hloop, htold⟩
  · have hnone := List.map_eq_nil_iff.1 htold
    refine ⟨iff_of_true hnone hloop, iff_of_false ?_ (not_not_intro hloop)⟩
    rintro ⟨e, he, -⟩
    exact List.cons_ne_nil _ _ (he.symm.trans hnone)
  · obtain ⟨e, he, hreport⟩ := List.map_eq_singleton_iff.1 htold
    have hspan : e.span = n.span := congrArg Prod.snd hreport
    refine ⟨iff_of_false (fun hnone => List.cons_ne_nil _ _ (he.symm.trans hnone)) hloop, iff_of_true ⟨e, he, hspan⟩ hloop⟩

end GoFront.Template
