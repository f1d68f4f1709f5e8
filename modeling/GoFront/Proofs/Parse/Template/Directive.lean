import GoFront.Proofs.Parse.Template.Reading

/-!
# What the template grammar reads: directives

Each production is compared with its part of the grammar. A production that reports an error reads no
word at all, so the ways in which a directive can go wrong drop out, and what is left is told apart by the
keyword of the directive.
-/

namespace GoFront.Template

open GoFront.Parser
open scoped Computability

variable {g : Nested} {d : Delimiters} {levels : Nat} {inLoop : Bool}

/-- The input goes on outside directives. -/
structure Outside (ks : List Kind) : Prop where
  regular : Regular ks
  atText : AtText ks

/-- Behind words that end outside directives. -/
lemma Regular.outside {L : Language Kind} (hL : EndsOutside L) {u ks : List Kind} (hu : u ∈ L)
    (h : Regular (u ++ ks)) : Outside ks := by
  obtain ⟨v, k, rfl, hk⟩ := hL u hu
  rw [List.append_assoc] at h
  exact ⟨h.right.right, h.right.atText hk⟩

/-- A directive opens with a word of a kind. -/
structure Opening (k : Kind) (ks : List Kind) : Prop where
  regular : Regular ks
  delimiter : ahead ks 0 = .leftDelimiter
  keyword : ahead ks 1 = k

/-- A directive ends here. -/
def ActionEnd (ks : List Kind) : Prop := ahead ks 0 = .rightDelimiter

lemma ActionEnd.pipeEnd {ks : List Kind} (h : ActionEnd ks) : PipeEnd ks := .inr h

/-! ## Opening and closing a directive -/

/-- What stands before the closing marker is an error. -/
lemma scans_otherwise_expected {what : String} {F : List Kind → Prop} :
    Scans Regular (otherwise (Kind.isLexicalError <$> peek) (expected what)) 0 F := by
  refine .ask (Y := fun ks => (ahead ks 0).isLexicalError = true)
    (N := fun ks => (ahead ks 0).isLexicalError = false) (fun s _ => asks_peek s _) (.absurd ?_) .expected
  rintro ks ⟨hks, hlex⟩
  rw [hks.not_lexical 0] at hlex
  exact Bool.false_ne_true hlex

lemma scans_closeAction : Scans Regular (closeAction d) (tok .rightDelimiter) fun _ => True := by
  have hM : ∀ u ∈ (0 : Language Kind), ∀ ks, True → ahead (u ++ ks) 0 ≠ .rightDelimiter :=
    fun u hu => (Language.notMem_zero u hu).elim
  rw [← add_zero (tok _), ← mul_one (tok _)]
  refine .ifEat (Q := fun _ => True) (by decide) .pure ?_ (fun _ _ => trivial) hM
  refine .ask (Y := (ahead · 0 = .endOfInput)) (N := (ahead · 0 ≠ .endOfInput))
    (fun s _ => asks_isAt s .endOfInput) .error (.zeroBind (.node (.zeroBind ?_)))
  exact scans_otherwise_expected.restrict fun _ h => h.1.1

/-- Behind the closing marker the input goes on outside directives. -/
lemma scans_closeAction_bind {p : Parser Unit} {L : Language Kind} {F : List Kind → Prop}
    (hp : Scans Outside p L F) : Scans Regular (closeAction d >>= fun _ => p) (tok .rightDelimiter * L) F :=
  scans_closeAction.seq hp
    (fun _ hu _ h => h.outside (L := tok .rightDelimiter) (fun _ hv => ⟨[], _, hv, .inr rfl⟩) hu)
    fun _ _ _ _ => trivial

/-- A directive opens with its keyword, and more may be known of what follows. -/
lemma scans_openAction_of {P Q : List Kind → Prop} {k : Kind} (hk : k ≠ .endOfInput)
    (hP : ∀ ks, P ks → Opening k ks) (hQ : ∀ ks, P (.leftDelimiter :: k :: ks) → Q ks) {p : Parser Unit}
    {L : Language Kind} {F : List Kind → Prop} (hp : Scans Q p L F) :
    Scans P (openAction >>= fun _ => p) (tok .leftDelimiter * (tok k * L)) F := by
  have hsecond : Scans (fun ks => P (.leftDelimiter :: ks)) (advance >>= fun _ => p) (tok k * L) F :=
    (Scans.advance hk fun _ h => (hP _ h).keyword).seq hp (fun u hu ks h => by
      obtain rfl : u = [_] := hu
      exact hQ ks h) fun _ _ _ _ => trivial
  refine (Scans.advance (by decide) fun _ h => (hP _ h).delimiter).seq hsecond (fun u hu ks h => ?_)
    fun _ _ _ _ => trivial
  obtain rfl : u = [_] := hu
  exact h

lemma scans_openAction {k : Kind} (hk : k ≠ .endOfInput) {p : Parser Unit} {L : Language Kind}
    {F : List Kind → Prop} (hp : Scans Regular p L F) :
    Scans (Opening k) (openAction >>= fun _ => p) (tok .leftDelimiter * (tok k * L)) F :=
  scans_openAction_of hk (fun _ h => h) (fun _ h => h.regular.right (u := [_, _])) hp

/-- The closing marker ends what stands in a directive. -/
lemma actionEnd_of_mem {L : Language Kind} {w : List Kind} (hw : w ∈ tok .rightDelimiter * L) (ks : List Kind) :
    ActionEnd (w ++ ks) := by
  obtain ⟨_, rfl, v, -, rfl⟩ := Language.mem_mul.1 hw
  rfl

/-- A directive that is its keyword. -/
lemma scans_emptyAction {k : Kind} (hk : k ≠ .endOfInput) :
    Scans (Opening k) (do openAction; closeAction d) (actionWord (tok k)) fun _ => True := by
  rw [actionWord, mul_assoc]
  exact scans_openAction hk scans_closeAction

/-- Where something else had to stand there is an error, whatever is skipped. -/
lemma scans_expectedOr {what : String} {recovery : KindSet} {P F : List Kind → Prop} :
    Scans P (expectedOr what recovery) 0 F := by
  refine .ask (Y := fun _ => True) (N := fun _ => True) (n := 2) (fun s _ => ?_) .expected ?_
  · exact ((Asks.isAtAny recovery).or (.isAt .endOfInput)).weaken
  · exact .nth fun _ => .node (.zeroBind .error)

lemma scans_templateName {F : List Kind → Prop} : Scans Regular templateName nameWord F := by
  rw [← add_zero nameWord]
  refine .branch (Y := (ahead · 0 ∈ [.string, .rawString])) (N := (ahead · 0 ∉ [.string, .rawString])) (n := 2)
    (fun s _ => ?_) ?_ scans_expectedOr (fun u hu ks _ h => h ((startsIn_oneOf _).ahead_mem hu ks))
    fun u hu => (Language.notMem_zero u hu).elim
  · exact ((asks_isAt s _).or (asks_isAt s _)).mono (by simp) (by simp)
  · exact (scans_advance (by decide) fun _ h => h.2).congr (fun _ h => h) (fun _ h _ _ => h)
      fun _ h _ _ _ => ⟨h, trivial⟩

/-- A directive ends here, with its closing marker or with the input. -/
def Exhausted (ks : List Kind) : Prop := ahead ks 0 ∈ [.rightDelimiter, .endOfInput]

lemma asks_exhausted (s : Parser.State) :
    Asks s.rest isAtActionEnd (Exhausted s.kinds) (¬ Exhausted s.kinds) 2 :=
  ((asks_isAt s _).or (asks_isAt s _)).mono (by simp [Exhausted]) (by simp [Exhausted])

/-- No pipeline starts where a directive ends. -/
lemma not_exhausted {u : List Kind} (hu : u ∈ pipeWord levels) (ks : List Kind) :
    ¬ Exhausted (u ++ ks) := by
  have hmem := (startsIn_pipeOf _).ahead_mem hu ks
  have hends : ∀ k ∈ [Kind.rightDelimiter, .endOfInput], k ∉ operandStarts := by decide
  exact fun h => hends _ h hmem

section Nesting

variable (hg : Scans Regular g.pipeline (parenWord levels) PipeEnd)

include hg

/-- The pipeline of a directive. -/
lemma scans_actionPipeline {P : List Kind → Prop} (hP : ∀ ks, P ks → Regular ks) :
    Scans P (pipeline g) (pipeWord levels) ActionEnd :=
  (scans_pipeline hg).congr hP (fun _ hu _ _ => hu) fun _ hu _ _ h => ⟨hu, h.pipeEnd⟩

lemma scans_pipelineIfAny : Scans Regular (pipelineIfAny g) (opt (pipeWord levels)) ActionEnd := by
  refine .branch (Y := Exhausted) (N := fun ks => ¬ Exhausted ks) (fun s _ => asks_exhausted s) .pure
    (scans_actionPipeline hg fun _ h => h.1) (fun u hu ks hend h => ?_) fun u hu ks _ => not_exhausted hu ks
  obtain rfl : u = [] := hu
  exact h (by simp [Exhausted, show ahead ks 0 = _ from hend])

lemma scans_requiredPipeline (subject : String) :
    Scans Regular (requiredPipeline g subject) (pipeWord levels) ActionEnd := by
  rw [← zero_add (pipeWord levels)]
  exact .branch (Y := Exhausted) (N := fun ks => ¬ Exhausted ks) (fun s _ => asks_exhausted s) .error
    (scans_actionPipeline hg fun _ h => h.1) (fun u hu => (Language.notMem_zero u hu).elim) fun u hu ks _ => not_exhausted hu ks

/-! ## Directives without a body -/

omit hg in
lemma scans_loopControl {k label : Kind} (hk : k ≠ .endOfInput) {keyword : String} :
    Scans (Opening k) (loopControl d inLoop label keyword) (if inLoop then actionWord (tok k) else 0)
      fun _ => True := by
  refine .node (.currentStart fun start => ?_)
  change Scans _ ((do openAction; closeAction d) >>= fun _ =>
    if inLoop = true then pure () else errorSince start (.outsideLoop d keyword)) _ _
  cases inLoop with
  | true => exact scans_emptyAction hk
  | false => exact (scans_emptyAction hk).seqZero .errorSince

/-- The directives without a body that start with a word of a kind. -/
def simpleOf (levels : Nat) (inLoop : Bool) : Kind → Language Kind
  | .templateKeyword => actionWord (tok .templateKeyword * (nameWord * opt (pipeWord levels)))
  | .breakKeyword => if inLoop then actionWord (tok .breakKeyword) else 0
  | .continueKeyword => if inLoop then actionWord (tok .continueKeyword) else 0
  | .returnKeyword => actionWord (tok .returnKeyword * opt (pipeWord levels))
  | .blockComment => actionWord (tok .blockComment)
  | _ => actionWord (pipeWord levels)

lemma scans_simpleAction {k : Kind} :
    Scans (Opening k) (simpleAction g d inLoop k) (simpleOf levels inLoop k) fun _ => True := by
  -- a pipeline that may be missing, up to the closing marker
  have hany := (scans_pipelineIfAny hg).seq (scans_closeAction (d := d)) (fun _ _ _ => Regular.right)
    fun _ hw ks _ => actionEnd_of_mem (L := 1) (by rwa [mul_one]) ks
  unfold simpleAction
  split
  · have h := (scans_templateName (F := fun _ => True)).seq hany (fun _ _ _ => Regular.right) fun _ _ _ _ => trivial
    have h := scans_openAction (k := .templateKeyword) (by decide) h
    rw [simpleOf]
    simp only [actionWord, mul_assoc]
    exact .node h
  · exact scans_loopControl (by decide)
  · exact scans_loopControl (by decide)
  · have h := scans_openAction (k := .returnKeyword) (by decide) hany
    rw [simpleOf]
    simp only [actionWord, mul_assoc]
    exact .node h
  · exact .node (scans_emptyAction (by decide))
  · refine .absurd fun ks h => ?_
    have hlex := h.regular.not_lexical 1
    rw [h.keyword] at hlex
    exact nomatch hlex
  · have hword : simpleOf levels inLoop k = actionWord (pipeWord levels) := by rw [simpleOf] <;> assumption
    have hopen : Scans (Opening k) advance (tok .leftDelimiter) fun _ => True :=
      .advance (by decide) fun _ h => h.delimiter
    have hbody := (scans_requiredPipeline hg "command").seq (scans_closeAction (d := d))
      (fun _ _ _ => Regular.right) fun _ hw ks _ => actionEnd_of_mem (L := 1) (by rwa [mul_one]) ks
    rw [hword, actionWord, mul_assoc]
    exact .node (hopen.seq hbody (fun _ _ _ h => h.regular.right) fun _ _ _ _ => trivial)

omit hg in
lemma simpleOf_le (k : Kind) : simpleOf levels inLoop k ≤ simpleWord levels inLoop := by
  have hloop : ∀ k ∈ [Kind.breakKeyword, .continueKeyword],
      (if inLoop then actionWord (tok k) else 0) ≤ simpleWord levels inLoop := by
    intro k hk u hu
    cases inLoop with
    | true =>
      obtain ⟨v, rfl, rfl⟩ := mem_actionWord.1 hu
      exact .inr (mem_actionWord.2 ⟨[k], ⟨k, hk, rfl⟩, rfl⟩)
    | false => exact absurd hu (Language.notMem_zero u)
  unfold simpleOf
  split
  · exact fun u hu => .inl (.inl (.inr hu))
  · exact hloop _ (by decide)
  · exact hloop _ (by decide)
  · exact fun u hu => .inl (.inr hu)
  · exact fun u hu => .inl (.inl (.inl (.inr hu)))
  · exact fun u hu => .inl (.inl (.inl (.inl hu)))

omit hg in
/-- The directives without a body are told apart by their first word. -/
lemma mem_simpleOf {u ks : List Kind} (hu : u ∈ simpleWord levels inLoop) {k : Kind}
    (hk : ahead (u ++ ks) 1 = k) : u ∈ simpleOf levels inLoop k := by
  rcases hu with (((hu | hu) | hu) | hu) | hu
  · obtain ⟨-, hmem⟩ := (opens_actionWord (startsIn_pipeOf _)).ahead_mem hu ks
    rw [hk] at hmem
    have hword : ∀ j ∈ operandStarts, simpleOf levels inLoop j = actionWord (pipeWord levels) := by
      simp [operandStarts, atoms, simpleOf]
    rwa [hword k hmem]
  · obtain ⟨v, rfl, rfl⟩ := mem_actionWord.1 hu
    subst hk
    exact hu
  · obtain ⟨v, hv, rfl⟩ := mem_actionWord.1 hu
    obtain ⟨_, rfl, w, -, rfl⟩ := Language.mem_mul.1 hv
    subst hk
    exact hu
  · obtain ⟨v, hv, rfl⟩ := mem_actionWord.1 hu
    obtain ⟨_, rfl, w, -, rfl⟩ := Language.mem_mul.1 hv
    subst hk
    exact hu
  · cases inLoop with
    | true =>
      obtain ⟨v, ⟨j, hj, rfl⟩, rfl⟩ := mem_actionWord.1 hu
      have hword : ∀ j ∈ [Kind.breakKeyword, .continueKeyword], simpleOf levels true j = actionWord (tok j) := by
        simp [simpleOf]
      subst hk
      change _ ∈ simpleOf levels true j
      rw [hword j hj]
      exact mem_actionWord.2 ⟨[j], rfl, rfl⟩
    | false => exact absurd hu (Language.notMem_zero u)

/-! ## Sequences -/

/-- An `else` or an `end` follows. -/
def ListEnd (ks : List Kind) : Prop :=
  ahead ks 0 = .leftDelimiter ∧ ahead ks 1 ∈ [.elseKeyword, .endKeyword]

/-- A block opens here. -/
def AtBlock (ks : List Kind) : Prop := ∃ k ∈ blockKeywords, Opening k ks

omit hg in
lemma opensBlock_iff {k : Kind} : opensBlock k = true ↔ k ∈ blockKeywords := by
  cases k <;> simp [opensBlock, blockKeywords]

omit hg in
/-- A directive without a body is not taken for a block. -/
lemma not_mem_blockKeywords {k : Kind} (h : k ∈ simpleStarts) : k ∉ blockKeywords :=
  have hstarts : ∀ k ∈ simpleStarts, k ∉ blockKeywords := by decide
  hstarts k h

variable (hB : ∀ inLoop, Scans AtBlock (g.block inLoop) (blockWord levels inLoop) fun _ => True)

include hB

/-- A directive is told apart by its first word. -/
lemma scans_directive : Scans (fun ks => Outside ks ∧ ahead ks 0 = .leftDelimiter) (do
    let keyword ← nth 1
    if opensBlock keyword then g.block inLoop else simpleAction g d inLoop keyword)
    (simpleWord levels inLoop + blockWord levels inLoop) fun _ => True := by
  refine .nth fun k => ?_
  cases hk : opensBlock k with
  | true =>
    rw [if_pos rfl]
    have hmem := opensBlock_iff.1 hk
    refine (hB inLoop).congr (fun ks h => ⟨k, hmem, h.1.1.regular, h.1.2, h.2⟩) (fun _ hu _ _ => .inr hu)
      fun u hu ks h _ => ⟨hu.resolve_left fun hu => ?_, trivial⟩
    have hstart := ((opens_simpleWord levels inLoop).ahead_mem hu ks).2
    rw [h.2] at hstart
    exact not_mem_blockKeywords hstart hmem
  | false =>
    rw [if_neg Bool.false_ne_true]
    refine (scans_simpleAction hg).congr (fun ks h => ⟨h.1.1.regular, h.1.2, h.2⟩)
      (fun _ hu _ _ => .inl (simpleOf_le k hu)) fun u hu ks h _ => ⟨?_, trivial⟩
    rcases hu with hu | hu
    · exact mem_simpleOf hu h.2
    · have hstart := ((opens_blockWord levels inLoop).ahead_mem hu ks).2
      rw [h.2] at hstart
      rw [opensBlock_iff.2 hstart] at hk
      exact nomatch hk

/-- Host text or a directive. -/
lemma scans_item : Scans (fun ks => Outside ks ∧ ahead ks 0 ≠ .endOfInput) (item g d inLoop)
    (itemWord levels inLoop) fun _ => True := by
  have hword : itemWord levels inLoop = simpleWord levels inLoop + blockWord levels inLoop + tok .text := by
    rw [itemWord, itemOf]
    ac_rfl
  rw [hword]
  refine .branch (Y := (ahead · 0 = .leftDelimiter)) (N := (ahead · 0 ≠ .leftDelimiter))
    (fun s _ => asks_isAt s .leftDelimiter) ((scans_directive hg hB).restrict fun ks h => ⟨h.1.1, h.2⟩)
    (.advance (by decide) fun ks h => ?_) (fun u hu ks _ h => ?_) fun u hu ks _ => ?_
  · obtain ⟨⟨hout, hne⟩, hdel⟩ := h
    obtain ⟨js, hjs⟩ := eq_cons_of_ahead (rfl : ahead ks 0 = _) hne
    have htext := hout.atText (ahead ks 0) (by rw [hjs]; rfl)
    exact htext.resolve_right hdel
  · rcases hu with hu | hu
    · exact h ((opens_simpleWord levels inLoop).ahead_mem hu ks).1
    · exact h ((opens_blockWord levels inLoop).ahead_mem hu ks).1
  · obtain rfl : u = [_] := hu
    exact nofun

omit hg hB in
lemma asks_isAtListEnd_kinds (s : Parser.State) :
    Asks s.rest isAtListEnd (ListEnd s.kinds) (¬ ListEnd s.kinds) 2 := by
  have hkeyword : Asks s.rest (nth 1 >>= fun k => pure (k == .elseKeyword || k == .endKeyword)) _ _ 1 :=
    .nth 1 (.pure _)
  rw [kindAt_eq] at hkeyword
  exact ((asks_isAt s .leftDelimiter).and hkeyword).mono (by simp [ListEnd]) (by simp [ListEnd]; tauto)

omit hg hB in
/-- An item is not taken for the end of the sequence it stands in. -/
lemma not_listEnd {u ks : List Kind} (hu : u ∈ itemWord levels inLoop) :
    ahead (u ++ ks) 0 ≠ .endOfInput ∧ ¬ ListEnd (u ++ ks) := by
  have hends : ∀ k ∈ [Kind.elseKeyword, .endKeyword], k ∉ simpleStarts ∧ k ∉ blockKeywords := by decide
  rcases hu with (hu | hu) | hu
  · obtain rfl : u = [_] := hu
    exact ⟨nofun, fun h => nomatch h.1⟩
  · obtain ⟨hfirst, hsecond⟩ := (opens_simpleWord levels inLoop).ahead_mem hu ks
    exact ⟨by rw [hfirst]; decide, fun h => (hends _ h.2).1 hsecond⟩
  · obtain ⟨hfirst, hsecond⟩ := (opens_blockWord levels inLoop).ahead_mem hu ks
    exact ⟨by rw [hfirst]; decide, fun h => (hends _ h.2).2 hsecond⟩

omit hg hB in
lemma nil_notMem_itemWord : [] ∉ itemWord levels inLoop := by
  intro h
  have hend : ahead ([] ++ []) 0 ≠ .endOfInput := (not_listEnd h).1
  exact hend rfl

/-- A sequence of host text and directives. -/
lemma scans_list : Scans Outside (list g d inLoop) (itemsWord levels inLoop) ListEnd := by
  have hask (s : Parser.State) : Asks s.rest (isAt .endOfInput <||> isAtListEnd)
      (ahead s.kinds 0 = .endOfInput ∨ ListEnd s.kinds) (¬ (ahead s.kinds 0 = .endOfInput ∨ ListEnd s.kinds)) 3 :=
    ((asks_isAt s .endOfInput).or (asks_isAtListEnd_kinds s)).mono id not_or.2
  have hloop := Scans.untilYes (P := Outside) (Y := fun ks => ahead ks 0 = .endOfInput ∨ ListEnd ks)
    (fun s _ => hask s)
    ((scans_item hg hB (d := d)).restrict fun _ h => ⟨h.1, fun hend => h.2 (.inl hend)⟩)
    nil_notMem_itemWord (fun _ hu _ => not_or.2 (not_listEnd hu))
    fun _ hu _ h => h.regular.outside (endsOutside_itemWord levels inLoop) hu
  exact .node (hloop.congr (fun _ h => h) (fun _ hu _ _ => hu) fun _ hu _ _ h => ⟨hu, .inr h⟩)

/-! ## Blocks -/

omit hg hB in
lemma scans_blockEnd {keyword : String} {opener : Span} :
    Scans Regular (blockEnd d keyword opener) endWord fun _ => True := by
  rw [← add_zero endWord]
  refine .branch (Y := fun ks => ahead ks 0 = .leftDelimiter ∧ ahead ks 1 = .endKeyword)
    (N := fun ks => ahead ks 0 ≠ .leftDelimiter ∨ ahead ks 1 ≠ .endKeyword)
    (fun s _ => (asks_isAt s _).and (asks_nthIs s 1 _)) (.node ?_) .errorAt (fun u hu ks _ h => ?_)
    fun u hu => (Language.notMem_zero u hu).elim
  · exact (scans_emptyAction (by decide)).restrict fun ks h => ⟨h.1, h.2.1, h.2.2⟩
  · obtain ⟨_, rfl, rfl⟩ := mem_actionWord.1 hu
    exact h.elim (fun h => h rfl) fun h => h rfl

/-- An `else` opens here, with a condition or without. -/
structure AtElse (chained : Bool) (ks : List Kind) : Prop where
  opening : Opening .elseKeyword ks
  condition : (ahead ks 2 ∈ [.ifKeyword, .withKeyword]) ↔ chained = true

/-- The directive of an `else` branch. -/
def elseHead (levels : Nat) : (chained : Bool) → Language Kind
  | true => actionWord (tok .elseKeyword * (oneOf [.ifKeyword, .withKeyword] * pipeWord levels))
  | false => actionWord (tok .elseKeyword)

omit hB in
lemma scans_chainedCondition : Scans (fun ks => Regular ks ∧ ahead ks 0 ∈ [.ifKeyword, .withKeyword])
    (chainedCondition g) (oneOf [.ifKeyword, .withKeyword] * pipeWord levels) ActionEnd := by
  refine .nth fun k => ?_
  exact (scans_advance (by decide) fun _ h => h.1.2).seq (scans_requiredPipeline hg (chainedKeyword k))
    (fun _ _ _ h => h.1.1.right) fun _ _ _ _ => trivial

omit hB in
/-- An `else` branch, given what is read behind its directive. -/
lemma scans_elseBranch {isLoop plainBefore chained : Bool} {keyword : String} {M : Language Kind}
    (hrest : ∀ start, Scans Outside (do
      elseFault d start isLoop keyword plainBefore chained
      list g d inLoop) M ListEnd) :
    Scans (AtElse chained) (elseBranch g d inLoop isLoop keyword plainBefore chained)
      (elseHead levels chained * M) ListEnd := by
  refine .node (.currentStart fun start => ?_)
  have hclose := scans_closeAction_bind (d := d) (hrest start)
  cases chained with
  | true =>
    have hbody := (scans_chainedCondition hg).seq hclose (fun _ _ _ h => h.1.right)
      fun _ hw ks _ => actionEnd_of_mem hw ks
    have h := scans_openAction_of (P := AtElse true) (k := .elseKeyword) (by decide) (fun _ h => h.opening)
      (fun _ h => ⟨h.opening.regular.right (u := [_, _]), h.condition.2 rfl⟩) hbody
    simp only [elseHead, actionWord, mul_assoc] at h ⊢
    exact h
  | false =>
    have h := scans_openAction_of (P := AtElse false) (k := .elseKeyword) (by decide) (fun _ h => h.opening)
      (fun _ h => h.opening.regular.right (u := [_, _])) hclose
    simp only [elseHead, actionWord, mul_assoc]
    exact h

omit hg hB in
/-- An `else` branch that must not stand where it does is an error. -/
lemma scans_elseFault {isLoop plainBefore chained : Bool} {keyword : String} {start : Nat}
    {P F : List Kind → Prop} (h : plainBefore = true ∨ chained = true ∧ isLoop = true) :
    Scans P (elseFault d start isLoop keyword plainBefore chained) 0 F := by
  cases plainBefore with
  | true => exact .errorSince
  | false =>
    obtain ⟨rfl, rfl⟩ := h.resolve_left Bool.false_ne_true
    exact .errorSince

/-- What may follow the body of a block, before its `end`. -/
def elseWord (levels : Nat) (inLoop isLoop : Bool) : Language Kind :=
  (if isLoop then 0 else chainedElse levels (itemsWord levels inLoop))∗ *
    opt (plainElse (itemsWord levels inLoop))

section Rounds

variable {isLoop plainBefore chained : Bool} {keyword : String} {s : Parser.State} {ks : List Kind}

omit hg hB in
lemma atElse_iff {ks : List Kind} (hks : Regular ks) (h : ahead ks 0 = .leftDelimiter ∧ ahead ks 1 = .elseKeyword) :
    AtElse (ahead ks 2 == .ifKeyword || ahead ks 2 == .withKeyword) ks :=
  ⟨⟨hks, h.1, h.2⟩, by simp⟩

omit hg hB in
/-- A round takes one branch, or it is the last. -/
lemma elseRound_sound (hs : Regular s.kinds) {r : ForInStep Bool}
    (h : Reads (elseRound g d inLoop isLoop keyword plainBefore) s r ks) :
    r = .done plainBefore ∧ s.kinds = ks ∨ ∃ chained, AtElse chained s.kinds ∧
      r = .yield (plainBefore || !chained) ∧ ∃ t : Parser.State, t.kinds = s.kinds ∧
        Reads (elseBranch g d inLoop isLoop keyword plainBefore chained) t () ks := by
  obtain ⟨v, hv, hyes, -⟩ := ((asks_isAt s .leftDelimiter).and (asks_nthIs s 1 .elseKeyword)).reads
  replace h := (reads_ask hv).1 h
  cases v with
  | false =>
    obtain ⟨rfl, hks⟩ := reads_pure.1 h
    exact .inl ⟨rfl, hv.rest.symm.trans hks⟩
  | true =>
    obtain ⟨rfl, hbranch⟩ := reads_andPure.1 (reads_nth.1 h)
    rw [hv.rest] at hbranch
    exact .inr ⟨_, atElse_iff hs (hyes rfl), by rw [hv.rest], State.looked _, hv.rest, hbranch⟩

omit hg hB in
lemma elseRound_complete (hs : AtElse chained s.kinds) (h : ∀ t : Parser.State, t.kinds = s.kinds →
    Reads (elseBranch g d inLoop isLoop keyword plainBefore chained) t () ks) :
    Reads (elseRound g d inLoop isLoop keyword plainBefore) s (.yield (plainBefore || !chained)) ks := by
  obtain ⟨v, hv, -, hno⟩ := ((asks_isAt s .leftDelimiter).and (asks_nthIs s 1 .elseKeyword)).reads
  refine (reads_ask hv).2 ?_
  cases v with
  | false =>
    have hopen := hs.opening
    exact ((hno rfl).elim (fun h => h hopen.delimiter) fun h => h hopen.keyword).elim
  | true =>
    have hchained : (ahead s.kinds 2 == .ifKeyword || ahead s.kinds 2 == .withKeyword) = chained := by
      have := hs.condition
      cases chained <;> simpa using this
    refine reads_nth.2 (reads_andPure.2 ?_)
    rw [hv.rest, hchained]
    exact ⟨rfl, h (State.looked _) hv.rest⟩

/-- The `end` of a block follows. -/
def AtEnd (ks : List Kind) : Prop := ahead ks 0 = .leftDelimiter ∧ ahead ks 1 = .endKeyword

omit hg hB in
lemma elseRound_done (hks : s.kinds = ks) (hend : AtEnd ks) :
    Reads (elseRound g d inLoop isLoop keyword plainBefore) s (.done plainBefore) ks := by
  subst hks
  obtain ⟨v, hv, hyes, -⟩ := ((asks_isAt s .leftDelimiter).and (asks_nthIs s 1 .elseKeyword)).reads
  refine (reads_ask hv).2 ?_
  cases v with
  | false => exact reads_pure.2 ⟨rfl, hv.rest⟩
  | true =>
    have hkeyword := (hyes rfl).2
    rw [hend.2] at hkeyword
    exact nomatch hkeyword

/-- An `else` branch that may stand where it does. -/
lemma scans_elseBranch_list (h : ∀ start, elseFault d start isLoop keyword plainBefore chained = pure ()) :
    Scans (AtElse chained) (elseBranch g d inLoop isLoop keyword plainBefore chained)
      (elseHead levels chained * itemsWord levels inLoop) ListEnd := by
  refine scans_elseBranch hg fun start => ?_
  rw [h start, pure_bind]
  exact scans_list hg hB

/-- What a branch with a condition reads. -/
lemma scans_chainedElse : Scans (AtElse true) (elseBranch g d inLoop isLoop keyword false true)
    (if isLoop then 0 else chainedElse levels (itemsWord levels inLoop)) ListEnd := by
  cases isLoop with
  | true =>
    rw [if_pos rfl, ← mul_zero (elseHead levels true)]
    exact scans_elseBranch hg fun start => (scans_elseFault (.inr ⟨rfl, rfl⟩)).zeroBind
  | false => exact scans_elseBranch_list hg hB fun _ => rfl

/-- What a branch without a condition reads. -/
lemma scans_plainElse : Scans (AtElse false) (elseBranch g d inLoop isLoop keyword false false)
    (plainElse (itemsWord levels inLoop)) ListEnd := scans_elseBranch_list hg hB fun _ => rfl

omit hB in
/-- No branch is read behind one without a condition. -/
lemma scans_elseBehindElse : Scans (AtElse chained) (elseBranch g d inLoop isLoop keyword true chained)
    0 ListEnd := by
  rw [← mul_zero (elseHead levels chained)]
  exact scans_elseBranch hg fun start => (scans_elseFault (.inl rfl)).zeroBind

/-- A round without an error takes a branch that may stand where it does. -/
lemma elseRound_yield (hs : Regular s.kinds) {next : Bool}
    (h : Reads (elseRound g d inLoop isLoop keyword plainBefore) s (.yield next) ks) : plainBefore = false ∧
      ((next = false ∧ ∃ u ∈ if isLoop then 0 else chainedElse levels (itemsWord levels inLoop),
          s.kinds = u ++ ks) ∨
        next = true ∧ ∃ u ∈ plainElse (itemsWord levels inLoop), s.kinds = u ++ ks) := by
  rcases elseRound_sound hs h with ⟨hr, -⟩ | ⟨chained, helse, hr, t, ht, hbranch⟩
  · exact nomatch hr
  obtain rfl : next = (plainBefore || !chained) := by injection hr
  rw [← ht] at helse ⊢
  cases plainBefore with
  | true =>
    obtain ⟨u, hu, -⟩ := (scans_elseBehindElse hg).sound t helse ks hbranch
    exact absurd hu (Language.notMem_zero u)
  | false =>
    refine ⟨rfl, ?_⟩
    cases chained with
    | true => exact .inl ⟨rfl, (scans_chainedElse hg hB).sound t helse ks hbranch⟩
    | false => exact .inr ⟨rfl, (scans_plainElse hg hB).sound t helse ks hbranch⟩

omit hg hB in
lemma opens_chained :
    Opens [.elseKeyword] (if isLoop then 0 else chainedElse levels (itemsWord levels inLoop)) := by
  cases isLoop with
  | true => exact fun u hu => absurd hu (Language.notMem_zero u)
  | false => exact (opens_actionWord (startsIn_tok (by decide)).mul).mul

omit hg hB in
lemma opens_plainElse (L : Language Kind) : Opens [.elseKeyword] (plainElse L) :=
  (opens_actionWord (startsIn_tok (by decide))).mul

omit hg hB in
/-- Branches and an `end` end the sequence before them. -/
lemma listEnd_of_mem {u : List Kind} (hu : u ∈ elseWord levels inLoop isLoop) (hks : AtEnd ks) :
    ListEnd (u ++ ks) := by
  obtain ⟨c, hc, p, hp, rfl⟩ := Language.mem_mul.1 hu
  have helse {L : Language Kind} (hL : Opens [.elseKeyword] L) {v : List Kind} (hv : v ∈ L) (js : List Kind) :
      ListEnd (v ++ js) := by
    obtain ⟨hfirst, hsecond⟩ := hL.ahead_mem hv js
    exact ⟨hfirst, by rw [List.mem_singleton.1 hsecond]; decide⟩
  rcases mem_kstar_cases hc with rfl | ⟨v, hv, w, -, rfl⟩
  · rcases hp with rfl | hp
    · exact ⟨hks.1, by simp [hks.2]⟩
    · exact helse (opens_plainElse _) hp ks
  · rw [List.append_assoc, List.append_assoc]
    exact helse opens_chained hv _

omit hg hB in
/-- Where a branch with a condition stands. -/
lemma atElse_of_mem_chained {u : List Kind} (hs : Regular (u ++ ks))
    (hu : u ∈ if isLoop then 0 else chainedElse levels (itemsWord levels inLoop)) : AtElse true (u ++ ks) := by
  cases isLoop with
  | true => exact absurd hu (Language.notMem_zero u)
  | false =>
    obtain ⟨x, hx, y, -, rfl⟩ := Language.mem_mul.1 hu
    obtain ⟨v, hv, rfl⟩ := mem_actionWord.1 hx
    obtain ⟨_, rfl, w, hw, rfl⟩ := Language.mem_mul.1 hv
    obtain ⟨_, ⟨k, hk, rfl⟩, z, -, rfl⟩ := Language.mem_mul.1 hw
    exact ⟨⟨hs, rfl, rfl⟩, ⟨fun _ => rfl, fun _ => hk⟩⟩

omit hg hB in
/-- Where a branch without a condition stands. -/
lemma atElse_of_mem_plain {u : List Kind} {L : Language Kind} (hs : Regular (u ++ ks)) (hu : u ∈ plainElse L) :
    AtElse false (u ++ ks) := by
  obtain ⟨x, hx, y, -, rfl⟩ := Language.mem_mul.1 hu
  obtain ⟨_, rfl, rfl⟩ := mem_actionWord.1 hx
  have hnext : Kind.rightDelimiter ∉ [Kind.ifKeyword, .withKeyword] := by decide
  exact ⟨⟨hs, rfl, rfl⟩, ⟨fun h => absurd h hnext, nofun⟩⟩

/-- A round takes a branch with a condition. -/
lemma elseRound_chained {u : List Kind} (hs : Regular s.kinds)
    (hu : u ∈ if isLoop then 0 else chainedElse levels (itemsWord levels inLoop)) (hks : s.kinds = u ++ ks)
    (hend : ListEnd ks) : Reads (elseRound g d inLoop isLoop keyword false) s (.yield false) ks := by
  have helse : AtElse true s.kinds := by
    rw [hks] at hs ⊢
    exact atElse_of_mem_chained hs hu
  exact elseRound_complete helse fun t ht =>
    (scans_chainedElse hg hB).complete t (ht ▸ helse) u hu ks (ht.trans hks) hend

/-- A round takes a branch without a condition. -/
lemma elseRound_plain {u : List Kind} (hs : Regular s.kinds) (hu : u ∈ plainElse (itemsWord levels inLoop))
    (hks : s.kinds = u ++ ks) (hend : ListEnd ks) :
    Reads (elseRound g d inLoop isLoop keyword false) s (.yield true) ks := by
  have helse : AtElse false s.kinds := by
    rw [hks] at hs ⊢
    exact atElse_of_mem_plain hs hu
  exact elseRound_complete helse fun t ht =>
    (scans_plainElse hg hB).complete t (ht ▸ helse) u hu ks (ht.trans hks) hend

/-- A round takes words. -/
lemma elseRound_progress {next : Bool} (hs : Regular s.kinds)
    (h : Reads (elseRound g d inLoop isLoop keyword plainBefore) s (.yield next) ks) :
    ks.length < s.kinds.length ∧ Regular ks := by
  have hopen : ∃ k v, s.kinds = .leftDelimiter :: k :: (v ++ ks) := by
    rcases elseRound_yield hg hB hs h with ⟨-, ⟨-, u, hu, hks⟩ | ⟨-, u, hu, hks⟩⟩
    · obtain ⟨k, -, v, rfl⟩ := opens_chained u hu
      exact ⟨k, v, hks⟩
    · obtain ⟨k, -, v, rfl⟩ := opens_plainElse _ u hu
      exact ⟨k, v, hks⟩
  obtain ⟨k, v, hks⟩ := hopen
  rw [hks] at hs ⊢
  exact ⟨by simp; omega, hs.right (u := .leftDelimiter :: k :: v)⟩

/-- The rounds take branches with a condition and then one without. -/
lemma elseRounds_sound {x y : Bool} (h : Iterates (elseRound g d inLoop isLoop keyword) x s y ks) :
    Regular s.kinds → (x = true → s.kinds = ks) ∧
      (x = false → ∃ u ∈ elseWord levels inLoop isLoop, s.kinds = u ++ ks) := by
  induction h with
  | done h =>
    intro hs
    rcases elseRound_sound hs h with ⟨-, hks⟩ | ⟨_, -, hr, -⟩
    · refine ⟨fun _ => hks, fun _ => ⟨[], ?_, hks⟩⟩
      exact Language.mem_mul.2 ⟨[], Language.nil_mem_kstar _, [], .inl rfl, rfl⟩
    · exact nomatch hr
  | yield h _ ih =>
    intro hs
    have hregular := (elseRound_progress hg hB hs h).2
    rw [← h.rest] at hregular
    obtain ⟨hdone, hmore⟩ := ih hregular
    rw [h.rest] at hdone hmore
    rcases elseRound_yield hg hB hs h with ⟨rfl, ⟨rfl, u, hu, hks⟩ | ⟨rfl, u, hu, hks⟩⟩
    · obtain ⟨w, hw, hks'⟩ := hmore rfl
      obtain ⟨c, hc, p, hp, rfl⟩ := Language.mem_mul.1 hw
      refine ⟨nofun, fun _ => ⟨(u ++ c) ++ p, ?_, by rw [hks, hks']; simp⟩⟩
      exact Language.mem_mul.2 ⟨u ++ c, append_mem_kstar hu hc, p, hp, rfl⟩
    · refine ⟨nofun, fun _ => ⟨u, ?_, by rw [hks, hdone rfl]⟩⟩
      exact Language.mem_mul.2 ⟨[], Language.nil_mem_kstar _, u, .inr hu, rfl⟩

lemma elseRounds_complete {us : List (List Kind)} {p : List Kind} (hs : Regular s.kinds)
    (hus : ∀ u ∈ us, u ∈ if isLoop then 0 else chainedElse levels (itemsWord levels inLoop))
    (hp : p ∈ opt (plainElse (itemsWord levels inLoop))) (hks : s.kinds = us.flatten ++ (p ++ ks))
    (hend : AtEnd ks) : ∃ y, Iterates (elseRound g d inLoop isLoop keyword) false s y ks := by
  induction us generalizing s with
  | nil =>
    rcases hp with rfl | hp
    · exact ⟨false, .done (elseRound_done hks hend)⟩
    · have hlist : ListEnd ks := ⟨hend.1, by rw [hend.2]; decide⟩
      have hround : Reads (elseRound g d inLoop isLoop keyword false) s (.yield true) ks :=
        elseRound_plain hg hB hs hp hks hlist
      exact ⟨true, .yield hround (.done (elseRound_done hround.rest hend))⟩
  | cons u us ih =>
    have hrest : us.flatten ++ p ∈ elseWord levels inLoop isLoop := by
      refine Language.mem_mul.2 ⟨us.flatten, Language.mem_kstar.2 ⟨us, rfl, fun v hv => ?_⟩, p, hp, rfl⟩
      exact hus v (List.mem_cons_of_mem u hv)
    have hlist := listEnd_of_mem hrest hend
    rw [List.append_assoc] at hlist
    rw [List.flatten_cons, List.append_assoc] at hks
    have hround : Reads (elseRound g d inLoop isLoop keyword false) s (.yield false) _ :=
      elseRound_chained hg hB hs (hus u (List.mem_cons_self ..)) hks hlist
    have hregular := (elseRound_progress hg hB hs hround).2
    rw [← hround.rest] at hregular
    obtain ⟨y, hy⟩ := ih hregular (fun v hv => hus v (List.mem_cons_of_mem u hv)) hround.rest
    exact ⟨y, .yield hround hy⟩

/-- The `else` branches of a block. -/
lemma scans_elseBranches : Scans Regular (elseBranches g d inLoop isLoop keyword)
    (elseWord levels inLoop isLoop) AtEnd := by
  have hloop {s : Parser.State} {y : Bool} {ks : List Kind} (hs : Regular s.kinds) :
      Reads (loop false (elseRound g d inLoop isLoop keyword)) s y ks ↔ Iterates _ false s y ks :=
    reads_loop (P := Regular) (fun x y s ks => elseRound_progress hg hB) hs
  constructor
  · intro s hs ks h
    obtain ⟨y, h⟩ := reads_discard.1 h
    exact (elseRounds_sound hg hB ((hloop hs).1 h) hs).2 rfl
  · intro s hs x hx ks hks hend
    obtain ⟨c, hc, p, hp, rfl⟩ := Language.mem_mul.1 hx
    obtain ⟨us, rfl, hus⟩ := Language.mem_kstar.1 hc
    rw [List.append_assoc] at hks
    obtain ⟨y, h⟩ := elseRounds_complete hg hB hs hus hp hks hend
    exact reads_discard.2 ⟨y, (hloop hs).2 h⟩

end Rounds

end Nesting

end GoFront.Template
