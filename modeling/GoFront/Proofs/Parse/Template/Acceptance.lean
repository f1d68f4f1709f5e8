import GoFront.Proofs.Parse.Template.Directive
import GoFront.Proofs.Tree.Report

/-!
# What the template grammar reads: blocks and documents

The blocks of a level are read as the grammar says if the nested productions of the level below are. At
the lowest level a block or a parenthesis is an error, as the grammar has none there, so the two agree at
every level.
-/

namespace GoFront.Template

open GoFront.Parser
open scoped Computability

/-- The nested productions read what the grammar allows when so many levels may be entered. -/
structure Nested.Agrees (g : Nested) (levels : Nat) : Prop where
  pipeline : Scans Regular g.pipeline (parenWord levels) PipeEnd
  block : ∀ inLoop, Scans AtBlock (g.block inLoop) (blockWord levels inLoop) fun _ => True

variable {g : Nested} {d : Delimiters} {levels : Nat} {inLoop : Bool}

/-! ## Blocks -/

lemma atEnd_of_mem {u : List Kind} (hu : u ∈ endWord) (ks : List Kind) : AtEnd (u ++ ks) := by
  obtain ⟨_, rfl, rfl⟩ := mem_actionWord.1 hu
  exact ⟨rfl, rfl⟩

lemma given_true (p : Parser Unit) : given (pure true) p = p := rfl

lemma given_false (p : Parser Unit) : given (pure false) p = pure () := rfl

section Blocks

variable (hg : g.Agrees levels)

include hg

/-- The body of a block that may have `else` branches, with its `end`. -/
lemma scans_controlBody {inBody isLoop : Bool} {keyword : String} {opener : Span} :
    Scans Outside (do list g d inBody; elseBranches g d inLoop isLoop keyword; blockEnd d keyword opener)
      (itemsWord levels inBody * (elseWord levels inLoop isLoop * endWord)) fun _ => True := by
  have hend : Scans Regular (do elseBranches g d inLoop isLoop keyword; blockEnd d keyword opener)
      (elseWord levels inLoop isLoop * endWord) fun _ => True :=
    (scans_elseBranches hg.pipeline hg.block).seq scans_blockEnd (fun _ _ _ => Regular.right)
      fun w hw ks _ => atEnd_of_mem hw ks
  refine (scans_list hg.pipeline hg.block).seq hend (fun _ _ _ h => h.regular.right) fun w hw ks _ => ?_
  obtain ⟨e, he, f, hf, rfl⟩ := Language.mem_mul.1 hw
  rw [List.append_assoc]
  exact listEnd_of_mem he (atEnd_of_mem hf ks)

/-- The body of a definition, with its `end`. -/
lemma scans_namedBody {keyword : String} {opener : Span} :
    Scans Outside (do list g d false; blockEnd d keyword opener)
      (itemsWord levels false * endWord) fun _ => True := by
  refine (scans_list hg.pipeline hg.block).seq scans_blockEnd (fun _ _ _ h => h.regular.right) fun w hw ks _ => ?_
  have hend := atEnd_of_mem hw ks
  exact ⟨hend.1, by rw [hend.2]; decide⟩

/-- A condition or a loop. -/
lemma scans_control {k label : Kind} {inBody isLoop : Bool} {keyword : String} (hk : k ≠ .endOfInput)
    (hlabel : (label == .templateRange) = isLoop) (hloop : (inLoop || isLoop) = inBody) :
    Scans (Opening k) (control g d inLoop label keyword) (actionWord (tok k * pipeWord levels) *
      (itemsWord levels inBody * (elseWord levels inLoop isLoop * endWord))) fun _ => True := by
  unfold control
  dsimp only
  rw [hlabel, hloop]
  refine .node (.currentStart fun start => ?_)
  have hbody : Scans Outside (do
      let opener ← spanSince start
      list g d inBody
      elseBranches g d inLoop isLoop keyword
      blockEnd d keyword opener) _ _ := .spanSince fun _ => scans_controlBody hg
  have hpipe := (scans_requiredPipeline hg.pipeline keyword).seq (scans_closeAction_bind (d := d) hbody)
    (fun _ _ _ => Regular.right) fun _ hw ks _ => actionEnd_of_mem hw ks
  have h := scans_openAction hk hpipe
  simp only [actionWord, mul_assoc] at h ⊢
  exact h

/-- A definition without a pipeline. -/
lemma scans_define : Scans (Opening .defineKeyword) (namedBlock g d .templateDefine "define")
    (actionWord (tok .defineKeyword * nameWord) * (itemsWord levels false * endWord)) fun _ => True := by
  unfold namedBlock
  rw [show decide (Kind.templateDefine = .templateBlock) = false from rfl, given_false]
  refine .node (.currentStart fun start => ?_)
  have hbody : Scans Outside (do
      let opener ← spanSince start
      list g d false
      blockEnd d "define" opener) _ _ := .spanSince fun _ => scans_namedBody hg
  have hname := (scans_templateName (F := fun _ => True)).seq (scans_closeAction_bind (d := d) hbody)
    (fun _ _ _ => Regular.right) fun _ _ _ _ => trivial
  have h := scans_openAction (k := .defineKeyword) (by decide) hname
  simp only [actionWord, mul_assoc] at h ⊢
  exact h

/-- A definition that is also called. -/
lemma scans_block : Scans (Opening .blockKeyword) (namedBlock g d .templateBlock "block")
    (actionWord (tok .blockKeyword * (nameWord * opt (pipeWord levels))) * (itemsWord levels false * endWord))
      fun _ => True := by
  unfold namedBlock
  rw [show decide (Kind.templateBlock = .templateBlock) = true from rfl, given_true]
  refine .node (.currentStart fun start => ?_)
  have hbody : Scans Outside (do
      let opener ← spanSince start
      list g d false
      blockEnd d "block" opener) _ _ := .spanSince fun _ => scans_namedBody hg
  have hpipe := (scans_pipelineIfAny hg.pipeline).seq (scans_closeAction_bind (d := d) hbody)
    (fun _ _ _ => Regular.right) fun _ hw ks _ => actionEnd_of_mem hw ks
  have hname := (scans_templateName (F := fun _ => True)).seq hpipe (fun _ _ _ => Regular.right)
    fun _ _ _ _ => trivial
  have h := scans_openAction (k := .blockKeyword) (by decide) hname
  simp only [actionWord, mul_assoc] at h ⊢
  exact h

omit hg in
/-- The blocks that open with a keyword. -/
def blockCase (levels : Nat) (inLoop : Bool) (k : Kind) : Language Kind :=
  match k with
  | .rangeKeyword => actionWord (tok k * pipeWord levels) *
      (itemsWord levels true * (elseWord levels inLoop true * endWord))
  | .defineKeyword => actionWord (tok k * nameWord) * (itemsWord levels false * endWord)
  | .blockKeyword => actionWord (tok k * (nameWord * opt (pipeWord levels))) * (itemsWord levels false * endWord)
  | _ => actionWord (tok k * pipeWord levels) *
      (itemsWord levels inLoop * (elseWord levels inLoop false * endWord))

/-- A block is told apart by its keyword. -/
lemma scans_keywordBlock {k : Kind} (hk : k ∈ blockKeywords) :
    Scans (Opening k) (keywordBlock g d inLoop k) (blockCase levels inLoop k) fun _ => True := by
  simp only [blockKeywords, List.mem_cons, List.not_mem_nil, or_false] at hk
  rcases hk with rfl | rfl | rfl | rfl | rfl
  · exact scans_control hg (by decide) rfl (Bool.or_false _)
  · exact scans_control hg (by decide) rfl (Bool.or_false _)
  · exact scans_control hg (by decide) rfl (Bool.or_true _)
  · exact scans_define hg
  · exact scans_block hg

omit hg in
lemma elseWord_true : elseWord levels inLoop true = opt (plainElse (itemsWord levels inLoop)) := by
  rw [elseWord, if_pos rfl, kstar_zero, one_mul]

omit hg in
lemma blockCase_le {k : Kind} (hk : k ∈ blockKeywords) : blockCase levels inLoop k ≤ blockWord (levels + 1) inLoop := by
  have hcondition : ∀ k ∈ [Kind.ifKeyword, .withKeyword], actionWord (tok k * pipeWord levels) *
      (itemsWord levels inLoop * (elseWord levels inLoop false * endWord)) ≤ blockWord (levels + 1) inLoop := by
    intro k hk u hu
    obtain ⟨x, hx, y, hy, rfl⟩ := Language.mem_mul.1 hu
    obtain ⟨v, hv, rfl⟩ := mem_actionWord.1 hx
    obtain ⟨_, rfl, w, hw, rfl⟩ := Language.mem_mul.1 hv
    refine .inl (.inl (.inl (Language.mem_mul.2 ⟨_, mem_actionWord.2 ⟨_, ?_, rfl⟩, y, hy, rfl⟩)))
    exact Language.mem_mul.2 ⟨[k], ⟨k, hk, rfl⟩, w, hw, rfl⟩
  simp only [blockKeywords, List.mem_cons, List.not_mem_nil, or_false] at hk
  rcases hk with rfl | rfl | rfl | rfl | rfl
  · exact hcondition _ (by decide)
  · exact hcondition _ (by decide)
  · rw [blockCase, elseWord_true]
    exact fun u hu => .inl (.inl (.inr hu))
  · exact fun u hu => .inl (.inr hu)
  · exact fun u hu => .inr hu

omit hg in
/-- The blocks are told apart by their keywords. -/
lemma mem_blockCase {u ks : List Kind} (hu : u ∈ blockWord (levels + 1) inLoop) {k : Kind}
    (hk : ahead (u ++ ks) 1 = k) : u ∈ blockCase levels inLoop k := by
  rcases hu with ((hu | hu) | hu) | hu
  · obtain ⟨x, hx, y, hy, rfl⟩ := Language.mem_mul.1 hu
    obtain ⟨v, hv, rfl⟩ := mem_actionWord.1 hx
    obtain ⟨_, ⟨j, hj, rfl⟩, w, hw, rfl⟩ := Language.mem_mul.1 hv
    have hword : ∀ j ∈ [Kind.ifKeyword, .withKeyword], blockCase levels inLoop j =
        actionWord (tok j * pipeWord levels) *
          (itemsWord levels inLoop * (elseWord levels inLoop false * endWord)) := by
      simp [blockCase]
    obtain rfl : j = k := hk
    rw [hword j hj]
    refine Language.mem_mul.2 ⟨_, mem_actionWord.2 ⟨_, ?_, rfl⟩, y, hy, rfl⟩
    exact Language.mem_mul.2 ⟨[j], rfl, w, hw, rfl⟩
  · obtain ⟨x, hx, y, hy, rfl⟩ := Language.mem_mul.1 hu
    obtain ⟨v, hv, rfl⟩ := mem_actionWord.1 hx
    obtain ⟨_, rfl, w, hw, rfl⟩ := Language.mem_mul.1 hv
    obtain rfl : Kind.rangeKeyword = k := hk
    rw [blockCase, elseWord_true]
    exact hu
  · obtain ⟨x, hx, y, hy, rfl⟩ := Language.mem_mul.1 hu
    obtain ⟨v, hv, rfl⟩ := mem_actionWord.1 hx
    obtain ⟨_, rfl, w, hw, rfl⟩ := Language.mem_mul.1 hv
    obtain rfl : Kind.defineKeyword = k := hk
    exact hu
  · obtain ⟨x, hx, y, hy, rfl⟩ := Language.mem_mul.1 hu
    obtain ⟨v, hv, rfl⟩ := mem_actionWord.1 hx
    obtain ⟨_, rfl, w, hw, rfl⟩ := Language.mem_mul.1 hv
    obtain rfl : Kind.blockKeyword = k := hk
    exact hu

/-- A block, one level down. -/
lemma scans_blockInner :
    Scans AtBlock (blockInner g d inLoop) (blockWord (levels + 1) inLoop) fun _ => True := by
  refine .nth fun k => ?_
  by_cases hk : k ∈ blockKeywords
  · refine (scans_keywordBlock hg hk).congr ?_ (fun _ hu _ _ => blockCase_le hk hu)
      fun u hu ks h _ => ⟨mem_blockCase hu h.2, trivial⟩
    rintro ks ⟨⟨j, -, hj⟩, hahead⟩
    exact ⟨hj.regular, hj.delimiter, hahead⟩
  · refine .absurd ?_
    rintro ks ⟨⟨j, hmem, hj⟩, hahead⟩
    rw [hj.keyword] at hahead
    exact hk (hahead ▸ hmem)

end Blocks

/-! ## Documents -/

/-- At every level the nested productions read what the grammar allows. -/
lemma agrees_nested (d : Delimiters) (levels : Nat) : (nested d levels).Agrees levels := by
  induction levels with
  | zero => exact ⟨.node (.zeroBind .error), fun _ => .node (.zeroBind .error)⟩
  | succ levels ih => exact ⟨scans_pipeline ih.pipeline, fun _ => scans_blockInner ih⟩

/-- An `end` or `else` without a block is an error. -/
lemma scans_stray {k : Kind} {keyword : String} {P F : List Kind → Prop} : Scans P (stray g d k keyword) 0 F := by
  refine .node (.currentStart fun start => .zero fun s _ ks h => ?_)
  obtain ⟨_, _, -, h⟩ := reads_bind.1 h
  obtain ⟨_, _, -, h⟩ := reads_bind.1 h
  obtain ⟨_, _, -, h⟩ := reads_bind.1 h
  obtain ⟨u, hu, -⟩ := (Scans.errorSince (P := fun _ => True) (F := fun _ => True)).sound _ trivial ks h
  exact Language.notMem_zero u hu

/-- Host text or a directive at the top level. -/
lemma scans_topLevel (hg : g.Agrees levels) : Scans (fun ks => Outside ks ∧ ahead ks 0 ≠ .endOfInput)
    (topLevel g d) (itemWord levels false) fun _ => True := by
  rw [← zero_add (itemWord levels false)]
  refine .branch (Y := ListEnd) (N := fun ks => ¬ ListEnd ks) (fun s _ => asks_isAtListEnd_kinds s) ?_
    ((scans_item hg.pipeline hg.block).restrict fun _ h => h.1)
    (fun u hu => (Language.notMem_zero u hu).elim) fun u hu ks _ => (not_listEnd hu).2
  exact .ask (Y := (ahead · 1 = .endKeyword)) (N := (ahead · 1 ≠ .endKeyword)) (fun s _ => asks_nthIs s 1 _)
    scans_stray scans_stray

/-- A template is read without an error exactly if it is a word of the grammar. -/
lemma reads_document (s : Parser.State) (hs : Outside s.kinds) :
    (∃ ks, Reads (document d) s () ks) ↔ s.kinds ∈ templateWord := by
  have htop := scans_topLevel (d := d) (agrees_nested d nestingLimit)
  have hask (s : Parser.State) := asks_isAt s .endOfInput
  have hitem : ∀ u ∈ itemWord nestingLimit false, ∀ ks, ¬ ahead (u ++ ks) 0 = .endOfInput :=
    fun u hu ks => (not_listEnd hu).1
  have keep : ∀ u ∈ itemWord nestingLimit false, ∀ ks, Outside (u ++ ks) → Outside ks :=
    fun u hu ks h => h.regular.outside (endsOutside_itemWord nestingLimit false) hu
  have hloop := Scans.untilYes (P := Outside) (Y := (ahead · 0 = .endOfInput)) (fun s _ => hask s) htop
    nil_notMem_itemWord hitem keep
  constructor
  · rintro ⟨ks, h⟩
    obtain ⟨u, hu, hks⟩ := hloop.sound s hs ks h
    have hend := Scans.untilYes_exit (P := Outside) (Y := (ahead · 0 = .endOfInput)) (fun s _ => hask s) htop
      nil_notMem_itemWord hitem keep hs h
    have hregular : Regular ks := (hks ▸ hs.regular).right
    rw [hregular.eq_nil hend, List.append_nil] at hks
    rw [hks]
    exact hu
  · intro h
    exact ⟨[], hloop.complete s hs s.kinds h [] (List.append_nil _).symm rfl⟩

/-! ## Acceptance -/

/-- The words of a template are its tokens that are no blanks. -/
lemma kinds_start (text : Text) (offset : Nat) (ts : List Token) :
    (State.start isTrivia text offset ts).kinds = significantKinds ts := by
  refine (Words.kinds_ofTokens ts).trans (List.filter_congr fun k _ => ?_)
  simp [isTrivia, beq_eq_decide]

/-- Without lexical errors the words of a template start outside directives. -/
lemma outside_tokens (d : Delimiters) (host : HostLanguage) (offset : Nat) (text : Text)
    (h : ∀ k ∈ significantKinds (tokens d host offset text), k.isLexicalError = false) :
    Outside (significantKinds (tokens d host offset text)) := by
  obtain ⟨hchain, hplain, hhead⟩ := (alternates_scan d host {} offset text).kinds
  exact ⟨⟨fun k hk => ⟨hplain k hk, h k hk⟩, hchain⟩, hhead rfl⟩

/-- The parser accepts exactly its grammar: the tree of a text as a template reports no error if and only
if the tokens of the text that are no blanks form a template. -/
theorem errors_eq_nil_iff_templateWord (d : Delimiters) (host : HostLanguage) (text : Text) :
    ∃ tree, parseRange? d host text 0 text.size = .ok tree ∧
      (tree.errors = [] ↔ significantKinds (tokens d host 0 text) ∈ templateWord) := by
  have hslice : text.slice? 0 text.size = some text := by
    have h := slice?_append [] text []
    rwa [List.append_nil, List.nil_append, Text.size_nil, Nat.zero_add] at h
  refine ⟨parse d host 0 text, ?_, ?_⟩
  · rw [parseRange?, hslice]
    exact (parse?_eq_ok d host 0 text).1
  have htrivia : ∀ k, isTrivia k = true → k.isLexicalError = false := by
    intro k hk
    rw [eq_of_beq hk]
    rfl
  let start := State.start isTrivia text 0 (tokens d host 0 text)
  have hkinds : start.kinds = significantKinds (tokens d host 0 text) := kinds_start _ _ _
  have hlexical : (∀ w ∈ (Words.ofTokens isTrivia (tokens d host 0 text)).words, w.kind.isLexicalError = false) ↔
      ∀ k ∈ start.kinds, k.isLexicalError = false := by
    simp only [State.kinds, List.forall_mem_map]
    rfl
  rw [parse, errors_tree_eq_nil htrivia, hlexical, ← hkinds]
  constructor
  · rintro ⟨hclean, hplain⟩
    have houtside : Outside start.kinds := by
      rw [hkinds] at hplain ⊢
      exact outside_tokens d host 0 text hplain
    exact (reads_document start houtside).1 ⟨_, hclean, rfl, rfl⟩
  · intro h
    have hplain : ∀ k ∈ start.kinds, k.isLexicalError = false := plain_templateWord _ h
    have houtside : Outside start.kinds := by
      rw [hkinds] at hplain ⊢
      exact outside_tokens d host 0 text hplain
    obtain ⟨ks, hreads⟩ := (reads_document start houtside).2 h
    exact ⟨hreads.clean, hplain⟩

end GoFront.Template
