import GoFront.Parse.Template.Document
import GoFront.Proofs.Parse.Locality
import GoFront.Proofs.Parse.Template.Reading
import GoFront.Proofs.Token.Modes

/-!
# Directives are parsed without a look past their end

A piece of a template that closes all blocks it opens is parsed in the same way whatever follows it (`Parser.Local`).
Blocks are counted by their keywords, without regard to how the grammar nests them: `Closes` says that so many are
open in front of a piece and none behind it. The grammar can leave a block early, at an `else` that does not belong
there, but never late. So inside a block at least one is open by the count, and the piece does not end there; and
inside a directive it does not end either, since the closing marker is still ahead.
-/

namespace GoFront.Template

open GoFront.Parser

/-! ## Pieces that close their blocks -/

/-- The number of open blocks behind an opening marker, given the kind of the word behind it. -/
def depthBehind (n : Nat) (k : Kind) : Nat := if opensBlock k then n + 1 else if k = .endKeyword then n - 1 else n

/-- Words at whose end no directive and no block is open, if `n` blocks are open in front of them, and a directive if
`inside` is true. -/
inductive Closes : (inside : Bool) → Nat → List Kind → Prop
  /-- No words, and no block is open. -/
  | nil : Closes false 0 []
  /-- Host text. -/
  | text {n : Nat} {ks : List Kind} (h : Closes false n ks) : Closes false n (.text :: ks)
  /-- An opening marker, behind which a block may open or end. -/
  | left {n : Nat} {ks : List Kind} (h : Closes true (depthBehind n (ahead ks 0)) ks) :
    Closes false n (.leftDelimiter :: ks)
  /-- A closing marker. -/
  | right {n : Nat} {ks : List Kind} (h : Closes false n ks) : Closes true n (.rightDelimiter :: ks)
  /-- Any other word of a directive. -/
  | inner {n : Nat} {k : Kind} {ks : List Kind} (hk : k ∉ foreignKinds) (h : Closes true n ks) :
    Closes true n (k :: ks)

/-- At least `n` blocks are open in front of what is left of a piece, and a directive if `inside` is true; if nothing
follows the piece, it may be anything. -/
def Within (more : List Word) (inside : Bool) (n : Nat) (ks : List Kind) : Prop :=
  more ≠ [] → ∃ i, n ≤ i ∧ Closes inside i ks

/-- A word has been taken, and at least `n` blocks are open. -/
abbrev Stands {α : Type} (more : List Word) (inside : Bool) (n : Nat) : α → Bool → List Kind → Prop :=
  fun _ m ks => m = true ∧ Within more inside n ks

variable {more : List Word} {base : List Sprout} {n i : Nat} {m inside : Bool} {k : Kind} {ks : List Kind}

lemma depthBehind_mono (h : n ≤ i) (k : Kind) : depthBehind n k ≤ depthBehind i k := by
  unfold depthBehind
  split
  · omega
  · split <;> omega

lemma depthBehind_of_opensBlock (h : opensBlock k = true) : depthBehind n k = n + 1 := if_pos h

lemma le_depthBehind (h : k ≠ .endKeyword) : n ≤ depthBehind n k := by
  unfold depthBehind
  rw [if_neg h]
  split <;> omega

lemma sees_cons (more : List Word) (k : Kind) (ks : List Kind) : Sees more (k :: ks) 0 := fun _ => Nat.zero_lt_succ _

lemma sees_succ (h : Sees more ks n) (k : Kind) : Sees more (k :: ks) (n + 1) :=
  fun hmore => Nat.succ_lt_succ (h hmore)

namespace Within

lemma mono (h : Within more inside n ks) (hle : i ≤ n) : Within more inside i ks := by
  intro hmore
  obtain ⟨j, hj, hcloses⟩ := h hmore
  exact ⟨j, Nat.le_trans hle hj, hcloses⟩

/-- Inside a directive the piece does not end. -/
lemma sees (h : Within more true n ks) : Sees more ks 0 := by
  intro hmore
  obtain ⟨j, -, hcloses⟩ := h hmore
  cases hcloses with
  | right | inner => exact Nat.zero_lt_succ _

/-- Inside a block the piece does not end. -/
lemma sees_block (h : Within more false n ks) (hn : 0 < n) : Sees more ks 0 := by
  intro hmore
  obtain ⟨j, hj, hcloses⟩ := h hmore
  cases hcloses with
  | nil => omega
  | text | left => exact Nat.zero_lt_succ _

lemma inner (h : Within more true n (k :: ks)) (hk : k ≠ .rightDelimiter) : Within more true n ks := by
  intro hmore
  obtain ⟨j, hj, hcloses⟩ := h hmore
  cases hcloses with
  | right => exact absurd rfl hk
  | inner _ h => exact ⟨j, hj, h⟩

lemma close (h : Within more true n (.rightDelimiter :: ks)) : Within more false n ks := by
  intro hmore
  obtain ⟨j, hj, hcloses⟩ := h hmore
  cases hcloses with
  | right h => exact ⟨j, hj, h⟩
  | inner hk => exact absurd (by decide) hk

lemma text (h : Within more false n (k :: ks)) (hk : k ≠ .leftDelimiter) : Within more false n ks := by
  intro hmore
  obtain ⟨j, hj, hcloses⟩ := h hmore
  cases hcloses with
  | text h => exact ⟨j, hj, h⟩
  | left => exact absurd rfl hk

lemma left (h : Within more false n (.leftDelimiter :: ks)) : Within more true (depthBehind n (ahead ks 0)) ks := by
  intro hmore
  obtain ⟨j, hj, hcloses⟩ := h hmore
  cases hcloses with
  | left h => exact ⟨_, depthBehind_mono hj _, h⟩

/-- An opening marker is never met inside a directive. -/
lemma not_left (h : Within more true n (.leftDelimiter :: ks)) : Within more false i (.leftDelimiter :: ks) := by
  intro hmore
  obtain ⟨j, -, hcloses⟩ := h hmore
  cases hcloses with
  | inner hk => exact absurd (by decide) hk

/-- Where the piece does not end, the end of the input is ahead only if nothing follows the piece. -/
lemma of_end (h : Within more inside n ks) (hsees : Sees more ks 0) (hend : ahead ks 0 = .endOfInput) {outside : Bool} :
    Within more outside i ks := by
  intro hmore
  obtain ⟨j, -, hcloses⟩ := h hmore
  cases hcloses with
  | nil => exact absurd (hsees hmore) (Nat.lt_irrefl 0)
  | text | left | right => exact nomatch hend
  | inner hk =>
    rw [ahead_zero] at hend
    exact absurd (hend ▸ by decide) hk

end Within

/-! ## Pipelines -/

/-- The productions one level down are local; if `top` is false, they are only used inside a block. -/
structure Nested.Local (more : List Word) (top : Bool) (g : Nested) : Prop where
  block : ∀ {base n m ks inLoop}, (top = false → m = true ∧ 0 < n) → Within more false n (.leftDelimiter :: ks) →
    opensBlock (ahead ks 0) = true →
    Parser.Local more base m (.leftDelimiter :: ks) (g.block inLoop) (Stands more false n)
  pipeline : ∀ {base n ks}, Within more true n ks → Parser.Local more base true ks g.pipeline (Stands more true n)

lemma local_fields (h : Within more true n ks) : Local more base true ks fields (Stands more true n) := by
  refine .repeatWhile (I := fun m ks => m = true ∧ Within more true n ks) ⟨rfl, h⟩ ?_
  rintro _ ks ⟨rfl, h⟩
  refine .ite (.isAdjacent h.sees .field) (fun hk => ?_) fun _ => .pure ⟨by simp, fun _ => ⟨rfl, h⟩⟩
  obtain ⟨ks, rfl⟩ := eq_cons_of_ahead hk (by decide)
  exact .take (.pure ⟨fun _ => ⟨rfl, h.inner (by decide)⟩, by simp⟩)

lemma local_leaf {label : Kind} (h : Within more true n (k :: ks)) (hk : k ≠ .rightDelimiter) :
    Local more base true (k :: ks) (leaf label) (Stands more true n) :=
  .nodeBy h.sees (.take (.pure ⟨rfl, h.inner hk⟩))

lemma local_skipParens {depth : Nat} (h : Within more true n ks) : Local more base true ks (skipParens depth)
    (Local.Goes (Stands more true n) (Stands more true n)) := by
  refine .ite (.or (.isAt h.sees _) fun _ => .isAt h.sees _) (fun _ => .pure ⟨rfl, h⟩) fun ⟨hend, hright⟩ => ?_
  refine .peek h.sees ?_
  obtain ⟨ks', hks⟩ := eq_cons_of_ahead (rfl : ahead ks 0 = _) hend
  generalize ahead ks 0 = k at hright hks
  subst hks
  have hrest := h.inner hright
  split
  · exact .take (.pure ⟨rfl, hrest⟩)
  · split
    · exact .pure ⟨rfl, h⟩
    · exact .take (.pure ⟨rfl, hrest⟩)
  · exact .take (.pure ⟨rfl, hrest⟩)

lemma local_skipPipeline (h : Within more true n ks) : Local more base true ks skipPipeline (Stands more true n) := by
  refine .node h.sees ((Local.error h.sees _).bind fun _ _ _ ⟨hm, hks⟩ => ?_)
  subst hm hks
  refine .map (Q := Stands more true n) (.loop (I := Stands more true n) ⟨rfl, h⟩ ?_) fun _ _ _ h => h
  rintro depth _ ks ⟨rfl, h⟩
  exact local_skipParens h

lemma leafKind?_eq_some_of_rightDelimiter {label : Kind} (h : leafKind? k = some label) :
    k ≠ .rightDelimiter ∧ k ≠ .endOfInput := by
  constructor <;> (rintro rfl; exact nomatch h)

lemma answers_isAtDeclaration (h : Within more true n ks) :
    Answers more base true ks isAtDeclaration (Declares ks) True := by
  refine (Answers.and (.isAt h.sees _) fun hk => (?_ : Answers more base true ks _ (Declares ks) True)).weaken
    And.right fun _ => trivial
  obtain ⟨ks, rfl⟩ := eq_cons_of_ahead hk (by decide)
  have h₁ := h.inner (by decide)
  have hsecond := sees_succ h₁.sees .variable
  refine .nth hsecond ?_
  rw [ahead_succ]
  split
  · next hk => exact (Answers.pure true).weaken (fun _ => ⟨rfl, .inl (by simp [hk])⟩) fun _ => trivial
  · next hk => exact (Answers.pure true).weaken (fun _ => ⟨rfl, .inl (by simp [hk])⟩) fun _ => trivial
  · next hk =>
    obtain ⟨ks, rfl⟩ := eq_cons_of_ahead hk (by decide)
    have h₂ := h₁.inner (by decide)
    refine (Answers.and (.nthIs (sees_succ (sees_succ h₂.sees _) _) _) fun hk => .nth ?_ (.pure _)).weaken
      (fun h => ?_) fun _ => trivial
    · obtain ⟨ks, rfl⟩ := eq_cons_of_ahead (show ahead ks 0 = _ from hk) (by decide)
      exact sees_succ (sees_succ (sees_succ (h₂.inner (by decide)).sees _) _) _
    · exact ⟨rfl, .inr ⟨rfl, h.1, by simpa using h.2⟩⟩
  · exact (Answers.pure false).weaken (by simp) fun _ => trivial

lemma local_declaration (h : Within more true n ks) (hks : Declares ks) :
    Local more base true ks declaration (Stands more true n) := by
  have hvariable : ∀ {k ks}, Local more [] true (k :: ks) declaredVariable (Stays ks) := by
    intro k ks
    exact .node (sees_cons more k ks) .advance
  have hsign : ∀ k ∈ [Kind.define, .assign], k ≠ .rightDelimiter ∧ k ≠ .comma := by decide
  obtain ⟨u, hu, js, rfl⟩ := declares_iff.1 hks
  obtain ⟨k, hk, rfl | rfl⟩ := mem_declarationWord.1 hu
  · have h₁ := h.inner (by decide)
    refine .node h.sees (hvariable.bind ?_)
    rintro _ _ _ ⟨rfl, rfl⟩
    refine Local.bind (Q := Stays (k :: js)) (.ifEat h₁.sees (by decide) (fun ks hks => ?_) fun _ => ?_) ?_
    · exact absurd (List.cons.inj hks).1 (hsign k hk).2
    · exact .pure ⟨rfl, rfl⟩
    · rintro _ _ _ ⟨rfl, rfl⟩
      exact Local.advance.mono fun _ _ _ ⟨hm, hks⟩ => ⟨hm, hks ▸ h₁.inner (hsign k hk).1⟩
  · have h₁ := h.inner (by decide)
    have h₃ := (h₁.inner (by decide)).inner (by decide)
    refine .node h.sees (hvariable.bind ?_)
    rintro _ _ _ ⟨rfl, rfl⟩
    refine Local.bind (Q := Stays (k :: js)) (.ifEat h₁.sees (by decide) (fun ks hks => ?_) fun hne => ?_) ?_
    · obtain rfl := (List.cons.inj hks).2
      exact hvariable
    · exact absurd rfl hne
    · rintro _ _ _ ⟨rfl, rfl⟩
      exact Local.advance.mono fun _ _ _ ⟨hm, hks⟩ => ⟨hm, hks ▸ h₃.inner (hsign k hk).1⟩

section

variable {top : Bool} {g : Nested} (hg : g.Local more top)

include hg

lemma local_term? (h : Within more true n ks) : Local more base true ks (term? g) (Stands more true n) := by
  refine .peek h.sees ?_
  split
  · next hk =>
    obtain ⟨ks, rfl⟩ := eq_cons_of_ahead hk (by decide)
    refine .map (Q := Stands more true n) (.nodeBy h.sees (.take ?_)) fun _ _ _ h => h
    exact (local_fields (h.inner (by decide))).bind fun _ _ _ h => .pure h
  · next hk =>
    obtain ⟨ks, rfl⟩ := eq_cons_of_ahead hk (by decide)
    refine .map (Q := Stands more true n) (.nodeBy h.sees (.take ?_)) fun _ _ _ h => h
    refine (hg.pipeline (h.inner (by decide))).bind ?_
    rintro _ _ ks ⟨rfl, h⟩
    refine (Local.expect h.sees (by decide)).bind ?_
    rintro _ _ ks' ⟨rfl, rfl | rfl⟩
    · exact .pure ⟨rfl, h⟩
    · exact .pure ⟨rfl, h.inner (by decide)⟩
  · split
    · next label hlabel =>
      obtain ⟨hright, hend⟩ := leafKind?_eq_some_of_rightDelimiter hlabel
      obtain ⟨ks', hks⟩ := eq_cons_of_ahead (rfl : ahead ks 0 = _) hend
      generalize ahead ks 0 = k at hright hks
      subst hks
      exact .map (local_leaf h hright) fun _ _ _ h => h
    · exact .pure ⟨rfl, h⟩

lemma local_operand (h : Within more true n ks) : Local more [] true ks (operand g) (Stands more true n) := by
  refine (local_term? hg h).bind ?_
  rintro (_ | label) _ ks ⟨rfl, h⟩
  · exact .pure ⟨rfl, h⟩
  · refine Local.bind (Q := Stands more true n) ?_ fun _ _ _ h => .pure h
    refine .given (.and (.pure _) fun _ => .isAdjacent h.sees .field) (fun _ => ?_) fun _ => ⟨rfl, h⟩
    exact .wrap h.sees (local_fields h)

lemma local_command (h : Within more true n ks) : Local more base true ks (command g) (Stands more true n) := by
  refine .node h.sees ((local_operand hg h).bind ?_)
  rintro v _ ks ⟨rfl, h⟩
  cases v with
  | true =>
    refine .repeatWhile (I := Stands more true n ()) ⟨rfl, h⟩ ?_
    rintro _ ks ⟨rfl, h⟩
    exact (local_operand hg h).mono fun _ _ _ h => ⟨fun _ => h, fun _ => h⟩
  | false => exact (Local.error h.sees _).mono fun _ _ _ ⟨hm, hks⟩ => ⟨hm, hks ▸ h⟩

lemma local_pipeline (h : Within more true n ks) : Local more base true ks (pipeline g) (Stands more true n) := by
  refine .node h.sees (Local.bind (Q := Stands more true n) ?_ ?_)
  · exact .given (answers_isAtDeclaration h) (fun hks => local_declaration h hks) fun _ => ⟨rfl, h⟩
  rintro _ _ ks ⟨rfl, h⟩
  refine .repeatWhile (I := Stands more true n ()) ⟨rfl, h⟩ ?_
  rintro _ ks ⟨rfl, h⟩
  refine (local_command hg h).bind ?_
  rintro _ _ ks ⟨rfl, h⟩
  refine (Local.eat h.sees (by decide)).mono ?_
  rintro v m ks' ⟨hyes, hno⟩
  refine ⟨fun hv => ?_, fun hv => ?_⟩
  · obtain ⟨rfl, rfl⟩ := hyes hv
    exact ⟨rfl, h.inner (by decide)⟩
  · obtain ⟨rfl, rfl, -⟩ := hno hv
    exact ⟨rfl, h⟩

end

/-! ## Opening and closing a directive -/

variable {d : Delimiters}

lemma local_skipAction (h : Within more true n ks) : Local more base true ks skipAction fun u m' ks' =>
    Stands more true n u m' ks' ∧ (ahead ks' 0 = .rightDelimiter ∨ ahead ks' 0 = .endOfInput) := by
  refine .repeatWhile (I := Stands more true n ()) ⟨rfl, h⟩ ?_
  rintro _ ks ⟨rfl, h⟩
  refine .ite (.or (.isAt h.sees _) fun _ => .isAt h.sees _) (fun hend => ?_) fun ⟨hright, hend⟩ => ?_
  · exact .pure ⟨by simp, fun _ => ⟨⟨rfl, h⟩, hend.imp_right And.right⟩⟩
  · obtain ⟨ks', hks⟩ := eq_cons_of_ahead (rfl : ahead ks 0 = _) hend
    generalize ahead ks 0 = k at hright hks
    subst hks
    exact .take (.pure ⟨fun _ => ⟨rfl, h.inner hright⟩, by simp⟩)

/-- The end of a directive. -/
lemma local_closeAction (h : Within more true n ks) : Local more base true ks (closeAction d) (Stands more false n) := by
  refine .ifEat h.sees (by decide) (fun ks' hks => ?_) fun hright => ?_
  · subst hks
    exact .pure ⟨rfl, h.close⟩
  refine .ite (.isAt h.sees _) (fun hend => ?_) fun hend => ?_
  · exact (Local.error h.sees _).mono fun _ _ _ ⟨hm, hks⟩ => ⟨hm, hks ▸ h.of_end h.sees hend⟩
  -- what is skipped ends in front of the closing marker
  refine Local.bind (Q := fun u m' ks' => Stands more true n u m' ks' ∧
    (ahead ks' 0 = .rightDelimiter ∨ ahead ks' 0 = .endOfInput)) (.node h.sees (Local.bind (Q := Stays ks) ?_ ?_)) ?_
  · exact .otherwise (.peek h.sees _) (fun _ => ⟨rfl, rfl⟩) fun _ => .expected h.sees _
  · rintro _ _ _ ⟨rfl, rfl⟩
    exact local_skipAction h
  · rintro _ _ ks ⟨⟨rfl, h⟩, hnext⟩
    refine .ifEat h.sees (by decide) (fun ks' hks => ?_) fun hright => ?_
    · subst hks
      exact .pure ⟨rfl, h.close⟩
    · exact .pure ⟨rfl, h.of_end h.sees (hnext.resolve_left hright)⟩

lemma local_templateName (h : Within more true n ks) : Local more base true ks templateName (Stands more true n) := by
  refine .ite (.or (.isAt h.sees _) fun _ => .isAt h.sees _) (fun hname => ?_) fun _ => ?_
  · have hstring : ahead ks 0 ∈ [Kind.string, .rawString] := by
      rcases hname with hk | ⟨-, hk⟩ <;> simp [hk]
    have hkinds : ∀ k ∈ [Kind.string, .rawString], k ≠ .rightDelimiter := by decide
    obtain ⟨k, hk, ks, rfl⟩ := eq_cons_of_ahead_mem hstring (by decide)
    exact Local.advance.mono fun _ _ _ ⟨hm, hks⟩ => ⟨hm, hks ▸ h.inner (hkinds k hk)⟩
  · refine (Local.expectedOr h.sees _ _).mono ?_
    rintro _ _ ks' ⟨rfl, rfl | ⟨j, rfl, hj⟩⟩
    · exact ⟨rfl, h⟩
    · refine ⟨rfl, h.inner ?_⟩
      rintro rfl
      exact absurd hj (by decide)

section

variable {top : Bool} {g : Nested} (hg : g.Local more top)

include hg

lemma local_pipelineIfAny (h : Within more true n ks) :
    Local more base true ks (pipelineIfAny g) (Stands more true n) :=
  .ite (.or (.isAt h.sees _) fun _ => .isAt h.sees _) (fun _ => .pure ⟨rfl, h⟩) fun _ => local_pipeline hg h

lemma local_requiredPipeline (h : Within more true n ks) (subject : String) :
    Local more base true ks (requiredPipeline g subject) (Stands more true n) := by
  refine .ite (.or (.isAt h.sees _) fun _ => .isAt h.sees _) (fun _ => ?_) fun _ => local_pipeline hg h
  exact (Local.error h.sees _).mono fun _ _ _ ⟨hm, hks⟩ => ⟨hm, hks ▸ h⟩

/-! ## Directives without a body -/

omit hg in
lemma local_openAction : Local more base m (.leftDelimiter :: k :: ks) openAction (Stays ks) := .take .advance

omit hg in
lemma local_loopControl {inLoop : Bool} {label : Kind} {keyword : String} (h : Within more true n ks) :
    Local more base m (.leftDelimiter :: k :: ks) (loopControl d inLoop label keyword) (Stands more false n) := by
  have hsees := sees_cons more .leftDelimiter (k :: ks)
  refine .node hsees (.currentStart hsees fun start => local_openAction.bind ?_)
  rintro _ _ _ ⟨rfl, rfl⟩
  refine (local_closeAction h).bind ?_
  rintro _ _ ks ⟨rfl, h⟩
  cases inLoop with
  | true => exact .pure ⟨rfl, h⟩
  | false => exact (Local.errorSince start _).mono fun _ _ _ ⟨hm, hks⟩ => ⟨hm, hks ▸ h⟩

lemma local_simpleAction {inLoop : Bool} (h : Within more true n ks) :
    Local more base m (.leftDelimiter :: ks) (simpleAction g d inLoop (ahead ks 0)) (Stands more false n) := by
  have hsees := sees_cons more .leftDelimiter ks
  have hclose : ∀ {ks : List Kind}, Within more true n ks →
      Local more [] true ks (do pipelineIfAny g; closeAction d) (Stands more false n) := by
    intro ks h
    refine (local_pipelineIfAny hg h).bind ?_
    rintro _ _ ks ⟨rfl, h⟩
    exact local_closeAction h
  unfold simpleAction
  split
  · next hk =>
    obtain ⟨ks, rfl⟩ := eq_cons_of_ahead hk (by decide)
    refine .node hsees (local_openAction.bind ?_)
    rintro _ _ _ ⟨rfl, rfl⟩
    refine (local_templateName (h.inner (by decide))).bind ?_
    rintro _ _ ks ⟨rfl, h⟩
    exact hclose h
  iterate 2
    · next hk =>
      obtain ⟨ks, rfl⟩ := eq_cons_of_ahead hk (by decide)
      exact local_loopControl (h.inner (by decide))
  · next hk =>
    obtain ⟨ks, rfl⟩ := eq_cons_of_ahead hk (by decide)
    refine .node hsees (local_openAction.bind ?_)
    rintro _ _ _ ⟨rfl, rfl⟩
    exact hclose (h.inner (by decide))
  iterate 2
    · next hk =>
      obtain ⟨ks, rfl⟩ := eq_cons_of_ahead hk (by decide)
      refine .node hsees (local_openAction.bind ?_)
      rintro _ _ _ ⟨rfl, rfl⟩
      exact local_closeAction (h.inner (by decide))
  · refine .node hsees (.take ((local_requiredPipeline hg h _).bind ?_))
    rintro _ _ ks ⟨rfl, h⟩
    exact local_closeAction h

/-! ## Sequences -/

/-- Host text or a directive. An `end` would close a block that is not its own. -/
lemma local_item {inLoop : Bool} (htop : top = false → m = true ∧ 0 < n) (h : Within more false n ks)
    (hks : ahead ks 0 ≠ .endOfInput) (hend : ahead ks 0 = .leftDelimiter → ahead ks 1 ≠ .endKeyword) :
    Local more base m ks (item g d inLoop) (Stands more false n) := by
  obtain ⟨ks', hcons⟩ := eq_cons_of_ahead (rfl : ahead ks 0 = _) hks
  generalize ahead ks 0 = k at hcons hend
  subst hcons
  refine .ite (.isAt (sees_cons more k ks') _) (fun hk => ?_) fun hk => ?_
  · obtain rfl : k = .leftDelimiter := hk
    refine .nth (sees_succ h.left.sees _) ?_
    rw [ahead_succ]
    split
    · next hopens => exact hg.block htop h hopens
    · exact local_simpleAction hg (h.left.mono (le_depthBehind (hend rfl)))
  · exact Local.advance.mono fun _ _ _ ⟨hm, hks⟩ => ⟨hm, hks ▸ h.text hk⟩

omit hg in
lemma answers_isAtListEnd (hsees : Sees more ks 0) (h : Within more false n ks) :
    Answers more base m ks isAtListEnd
      (ahead ks 0 = .leftDelimiter ∧ (ahead ks 1 = .elseKeyword ∨ ahead ks 1 = .endKeyword))
      (ahead ks 0 = .leftDelimiter → ahead ks 1 ≠ .elseKeyword ∧ ahead ks 1 ≠ .endKeyword) := by
  refine (Answers.and (.isAt hsees _) fun hk => .nth ?_ (.pure _)).weaken (fun h => ?_) fun h hk => ?_
  · obtain ⟨ks, rfl⟩ := eq_cons_of_ahead hk (by decide)
    exact sees_succ h.left.sees _
  · simpa using h
  · simpa [hk] using h

lemma local_list {inLoop : Bool} (hn : 0 < n) (h : Within more false n ks) :
    Local more base true ks (list g d inLoop) (Stands more false n) := by
  refine .node (h.sees_block hn) (.repeatWhile (I := Stands more false n ()) ⟨rfl, h⟩ ?_)
  rintro _ ks ⟨rfl, h⟩
  have hsees := h.sees_block hn
  refine .ite (.or (.isAt hsees _) fun _ => answers_isAtListEnd hsees h) (fun _ => .pure ⟨by simp, fun _ => ⟨rfl, h⟩⟩)
    fun ⟨hks, hlist⟩ => ?_
  refine (local_item hg (fun _ => ⟨rfl, hn⟩) h hks fun hk => (hlist hk).2).bind fun _ _ _ h => .pure ?_
  exact ⟨fun _ => h, by simp⟩

omit hg in
/-- One round of skipping keeps count of the blocks that it enters and leaves. -/
lemma local_skipDirectives {depth : Nat} (hn : 0 < n) (h : ∃ inside, Within more inside (n + depth) ks) :
    Local more base true ks (skipDirectives depth)
      (Local.Goes (fun e m' ks' => m' = true ∧ ∃ inside, Within more inside (n + e) ks') (Stands more false n)) := by
  obtain ⟨inside, h⟩ := h
  have hsees : Sees more ks 0 := by
    cases inside with
    | true => exact h.sees
    | false => exact h.sees_block (by omega)
  refine .ite (.isAt hsees _) (fun hend => .pure ⟨rfl, h.of_end hsees hend⟩) fun hend => ?_
  refine .ite (.isAt hsees _) (fun hleft => ?_) fun hleft => ?_
  · obtain ⟨ks, rfl⟩ := eq_cons_of_ahead hleft (by decide)
    have h : Within more false (n + depth) (.leftDelimiter :: ks) := by
      cases inside with
      | true => exact h.not_left
      | false => exact h
    refine .nth (sees_succ h.left.sees _) ?_
    rw [ahead_succ]
    split
    · exact .pure ⟨rfl, h.mono (Nat.le_add_right n depth)⟩
    · next hstop =>
      refine .take (.pure ⟨rfl, true, h.left.mono ?_⟩)
      simp only [Bool.and_eq_true, Bool.or_eq_true, decide_eq_true_eq, not_and] at hstop
      unfold depthBehind
      split
      · omega
      · split
        · next hkeyword =>
          have := hstop (.inr hkeyword)
          omega
        · exact Nat.le_refl _
  · obtain ⟨ks', hks⟩ := eq_cons_of_ahead (rfl : ahead ks 0 = _) hend
    generalize ahead ks 0 = k at hleft hks
    subst hks
    refine .take (.pure ⟨rfl, ?_⟩)
    cases inside with
    | true =>
      by_cases hright : k = .rightDelimiter
      · subst hright
        exact ⟨false, h.close⟩
      · exact ⟨true, h.inner hright⟩
    | false => exact ⟨false, h.text hleft⟩

omit hg in
lemma local_skipBlocks (hn : 0 < n) (h : Within more false n ks) :
    Local more base true ks skipBlocks (Stands more false n) := by
  have hsees := h.sees_block hn
  refine .node hsees ((Local.error hsees _).bind ?_)
  rintro _ _ _ ⟨rfl, rfl⟩
  refine .map (Q := Stands more false n) (.loop (I := fun e m ks => m = true ∧ ∃ inside, Within more inside (n + e) ks)
    (x := 0) ⟨rfl, false, h⟩ ?_) fun _ _ _ h => h
  rintro depth _ ks ⟨rfl, h⟩
  exact local_skipDirectives hn h

/-! ## Blocks -/

omit hg in
/-- The end of a block leaves at most one block fewer open. -/
lemma local_blockEnd {keyword : String} {opener : Span} (h : Within more false (n + 1) ks) :
    Local more base true ks (blockEnd d keyword opener) (Stands more false n) := by
  have hsees := h.sees_block (Nat.zero_lt_succ n)
  refine .ite (.and (.isAt hsees _) fun hk => .nthIs ?_ _) (fun ⟨hk, hend⟩ => ?_) fun _ => ?_
  · obtain ⟨ks, rfl⟩ := eq_cons_of_ahead hk (by decide)
    exact sees_succ h.left.sees _
  · obtain ⟨ks, rfl⟩ := eq_cons_of_ahead hk (by decide)
    obtain ⟨ks, rfl⟩ := eq_cons_of_ahead (show ahead ks 0 = _ from hend) (by decide)
    refine .node hsees (local_openAction.bind ?_)
    rintro _ _ _ ⟨rfl, rfl⟩
    exact local_closeAction (h.left.inner (by decide))
  · exact (Local.errorAt opener _).mono fun _ _ _ ⟨hm, hks⟩ => ⟨hm, hks ▸ h.mono (Nat.le_succ n)⟩

lemma local_chainedCondition (h : Within more true n ks) (hks : ahead ks 0 = .ifKeyword ∨ ahead ks 0 = .withKeyword) :
    Local more base true ks (chainedCondition g) (Stands more true n) := by
  have hmem : ahead ks 0 ∈ [Kind.ifKeyword, .withKeyword] := by simpa using hks
  have hkinds : ∀ k ∈ [Kind.ifKeyword, .withKeyword], k ≠ .rightDelimiter := by decide
  obtain ⟨k, hk, ks, rfl⟩ := eq_cons_of_ahead_mem hmem (by decide)
  exact .peek h.sees (.take (local_requiredPipeline hg (h.inner (hkinds k hk)) _))

omit hg in
lemma local_elseFault {start : Nat} {isLoop plainBefore chained : Bool} {keyword : String} :
    Local more base true ks (elseFault d start isLoop keyword plainBefore chained) (Stays ks) := by
  unfold elseFault
  split
  · exact .errorSince start _
  · split
    · exact .errorSince start _
    · exact .pure ⟨rfl, rfl⟩

lemma local_elseBranch {inLoop isLoop plainBefore chained : Bool} {keyword : String} (hn : 0 < n)
    (h : Within more true n ks) (hks : chained = true → ahead ks 0 = .ifKeyword ∨ ahead ks 0 = .withKeyword) :
    Local more base m (.leftDelimiter :: k :: ks) (elseBranch g d inLoop isLoop keyword plainBefore chained)
      (Stands more false n) := by
  have hsees := sees_cons more .leftDelimiter (k :: ks)
  refine .node hsees (.currentStart hsees fun start => local_openAction.bind ?_)
  rintro _ _ _ ⟨rfl, rfl⟩
  refine Local.bind (Q := Stands more true n) ?_ ?_
  · exact .given (.pure chained) (fun hc => local_chainedCondition hg h (hks hc)) fun _ => ⟨rfl, h⟩
  rintro _ _ ks ⟨rfl, h⟩
  refine (local_closeAction h).bind ?_
  rintro _ _ ks ⟨rfl, h⟩
  refine local_elseFault.bind ?_
  rintro _ _ _ ⟨rfl, rfl⟩
  exact local_list hg hn h

lemma local_elseRound {inLoop isLoop plainBefore : Bool} {keyword : String} (hn : 0 < n)
    (h : Within more false n ks) : Local more base true ks (elseRound g d inLoop isLoop keyword plainBefore)
      (Local.Goes (Stands more false n) (Stands more false n)) := by
  have hsees := h.sees_block hn
  refine .ite (.and (.isAt hsees _) fun hk => .nthIs ?_ _) (fun ⟨hk, helse⟩ => ?_) fun _ => .pure ⟨rfl, h⟩
  · obtain ⟨ks, rfl⟩ := eq_cons_of_ahead hk (by decide)
    exact sees_succ h.left.sees _
  obtain ⟨ks, rfl⟩ := eq_cons_of_ahead hk (by decide)
  obtain ⟨ks, rfl⟩ := eq_cons_of_ahead (show ahead ks 0 = _ from helse) (by decide)
  have hin : Within more true n ks := h.left.inner (by decide)
  refine .nth (sees_succ (sees_succ hin.sees _) _) ?_
  refine (local_elseBranch hg hn hin fun hc => ?_).bind fun _ _ _ h => .pure h
  simpa using hc

lemma local_elseBranches {inLoop isLoop : Bool} {keyword : String} (hn : 0 < n) (h : Within more false n ks) :
    Local more base true ks (elseBranches g d inLoop isLoop keyword) (Stands more false n) := by
  refine .map (Q := Stands more false n) (.loop (I := Stands more false n) ⟨rfl, h⟩ ?_) fun _ _ _ h => h
  rintro plainBefore _ ks ⟨rfl, h⟩
  exact local_elseRound hg hn h

lemma local_control {inLoop : Bool} {label : Kind} {keyword : String} (h : Within more true (n + 1) ks) :
    Local more base m (.leftDelimiter :: k :: ks) (control g d inLoop label keyword) (Stands more false n) := by
  have hsees := sees_cons more .leftDelimiter (k :: ks)
  have hpos := Nat.zero_lt_succ n
  refine .node hsees (.currentStart hsees fun start => local_openAction.bind ?_)
  rintro _ _ _ ⟨rfl, rfl⟩
  refine (local_requiredPipeline hg h keyword).bind ?_
  rintro _ _ ks ⟨rfl, h⟩
  refine (local_closeAction h).bind ?_
  rintro _ _ ks ⟨rfl, h⟩
  refine .spanSince fun opener => (local_list hg hpos h).bind ?_
  rintro _ _ ks ⟨rfl, h⟩
  refine (local_elseBranches hg hpos h).bind ?_
  rintro _ _ ks ⟨rfl, h⟩
  exact local_blockEnd h

lemma local_namedBlock {label : Kind} {keyword : String} (h : Within more true (n + 1) ks) :
    Local more base m (.leftDelimiter :: k :: ks) (namedBlock g d label keyword) (Stands more false n) := by
  have hsees := sees_cons more .leftDelimiter (k :: ks)
  refine .node hsees (.currentStart hsees fun start => local_openAction.bind ?_)
  rintro _ _ _ ⟨rfl, rfl⟩
  refine (local_templateName h).bind ?_
  rintro _ _ ks ⟨rfl, h⟩
  refine Local.bind (Q := Stands more true (n + 1)) ?_ ?_
  · exact .given (.pure _) (fun _ => local_pipelineIfAny hg h) fun _ => ⟨rfl, h⟩
  rintro _ _ ks ⟨rfl, h⟩
  refine (local_closeAction h).bind ?_
  rintro _ _ ks ⟨rfl, h⟩
  refine .spanSince fun opener => (local_list hg (Nat.zero_lt_succ n) h).bind ?_
  rintro _ _ ks ⟨rfl, h⟩
  exact local_blockEnd h

lemma local_blockInner {inLoop : Bool} (h : Within more false n (.leftDelimiter :: ks))
    (hopens : opensBlock (ahead ks 0) = true) :
    Local more base m (.leftDelimiter :: ks) (blockInner g d inLoop) (Stands more false n) := by
  have hin := h.left
  rw [depthBehind_of_opensBlock hopens] at hin
  refine .nth (sees_succ hin.sees _) ?_
  rw [ahead_succ]
  have hkeyword : ahead ks 0 ≠ .rightDelimiter ∧ ahead ks 0 ≠ .endOfInput := by
    constructor <;> (intro hk; rw [hk] at hopens; exact Bool.noConfusion hopens)
  obtain ⟨ks', hks⟩ := eq_cons_of_ahead (rfl : ahead ks 0 = _) hkeyword.2
  generalize ahead ks 0 = k at hkeyword hks
  subst hks
  have hbody := hin.inner hkeyword.1
  unfold keywordBlock
  split
  iterate 3
    · exact local_control hg hbody
  iterate 2
    · exact local_namedBlock hg hbody

end

/-! ## Documents -/

/-- On every level the productions are local. -/
lemma local_nested (more : List Word) (d : Delimiters) (levels : Nat) :
    (nested d levels).Local more (decide (0 < levels)) := by
  induction levels with
  | zero =>
    refine ⟨fun htop h _ => ?_, fun h => local_skipPipeline h⟩
    obtain ⟨rfl, hn⟩ := htop rfl
    exact local_skipBlocks hn h
  | succ levels ih => exact ⟨fun _ h hopens => local_blockInner ih h hopens, fun h => local_pipeline ih h⟩

section

variable {top : Bool} {g : Nested} (hg : g.Local more top)

include hg

lemma local_strayChain {label : Kind} (h : Within more true n ks) :
    Local more base true ks (strayChain g label) (Stands more true n) := by
  unfold strayChain
  split
  · refine .peek h.sees ?_
    split
    iterate 2
      · next hk =>
        obtain ⟨ks, rfl⟩ := eq_cons_of_ahead hk (by decide)
        exact .take (local_pipelineIfAny hg (h.inner (by decide)))
    · exact .pure ⟨rfl, h⟩
  · exact .pure ⟨rfl, h⟩

lemma local_stray {label : Kind} {keyword : String} (h : Within more true n ks) :
    Local more base m (.leftDelimiter :: k :: ks) (stray g d label keyword) (Stands more false n) := by
  have hsees := sees_cons more .leftDelimiter (k :: ks)
  refine .node hsees (.currentStart hsees fun start => local_openAction.bind ?_)
  rintro _ _ _ ⟨rfl, rfl⟩
  refine (local_strayChain hg h).bind ?_
  rintro _ _ ks ⟨rfl, h⟩
  refine (local_closeAction h).bind ?_
  rintro _ _ ks ⟨rfl, h⟩
  exact (Local.errorSince start _).mono fun _ _ _ ⟨hm, hks⟩ => ⟨hm, hks ▸ h⟩

/-- Host text or a directive at the top level, with or without a block. -/
lemma local_topLevel (htop : top = true) (h : Within more false 0 ks) (hks : ahead ks 0 ≠ .endOfInput) :
    Local more base m ks (topLevel g d) (Stands more false 0) := by
  have hsees : Sees more ks 0 := by
    obtain ⟨ks', hcons⟩ := eq_cons_of_ahead (rfl : ahead ks 0 = _) hks
    rw [hcons]
    exact sees_cons more _ ks'
  refine .ite (answers_isAtListEnd hsees h) (fun ⟨hk, hlist⟩ => ?_) fun hlist => ?_
  · obtain ⟨ks, rfl⟩ := eq_cons_of_ahead hk (by decide)
    have hmem : ahead ks 0 ∈ [Kind.elseKeyword, .endKeyword] := by simpa using hlist
    have hkinds : ∀ k ∈ [Kind.elseKeyword, .endKeyword], k ≠ .rightDelimiter := by decide
    have hin := h.left.mono (Nat.zero_le _)
    obtain ⟨k, hmem, ks, rfl⟩ := eq_cons_of_ahead_mem hmem (by decide)
    have hbody := hin.inner (hkinds k hmem)
    refine .ite (.nthIs (sees_succ hin.sees _) _) (fun _ => ?_) fun _ => ?_
    · exact local_stray hg hbody
    · exact local_stray hg hbody
  · exact local_item hg (by simp [htop]) h hks fun hk => (hlist hk).2

end

end GoFront.Template
