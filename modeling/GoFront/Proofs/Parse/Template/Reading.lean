import GoFront.Proofs.Parse.Template.Effort
import GoFront.Proofs.Parse.Template.Grammar
import GoFront.Proofs.Token.Modes

/-!
# What the template grammar reads: pipelines

Fields that directly follow an operand are joined with it, so how many words one operand takes depends on
the blanks between them. How many words a whole command takes does not: a command goes on as long as
operands follow.
-/

namespace GoFront.Template

open GoFront.Parser
open scoped Computability

/-! ## Regular inputs -/

/-- Kinds as they come from a template without lexical errors. -/
structure Regular (ks : List Kind) : Prop where
  plain : ∀ k ∈ ks, k ≠ .endOfInput ∧ k.isLexicalError = false
  linked : ks.IsChain Follows

lemma Regular.right {u ks : List Kind} (h : Regular (u ++ ks)) : Regular ks :=
  ⟨fun k hk => h.plain k (List.mem_append_right u hk), h.linked.right_of_append⟩

/-- The next word, if there is one, is outside directives. -/
def AtText (ks : List Kind) : Prop := ∀ k ∈ ks.head?, k = .text ∨ k = .leftDelimiter

/-- Behind host text and behind a directive the input is outside directives. -/
lemma Regular.atText {k : Kind} {ks : List Kind} (h : Regular (k :: ks)) (hk : k = .text ∨ k = .rightDelimiter) :
    AtText ks := by
  intro j hj
  cases ks with
  | nil => exact nomatch hj
  | cons i ks =>
    obtain rfl : i = j := by simpa using hj
    exact (List.isChain_cons_cons.1 h.linked).1 hk

/-- Only at its end does a regular input seem to end. -/
lemma Regular.eq_nil {ks : List Kind} (h : Regular ks) (hend : ahead ks 0 = .endOfInput) : ks = [] := by
  cases ks with
  | nil => rfl
  | cons k ks => exact absurd hend (h.plain k (by simp)).1

lemma Regular.not_lexical {ks : List Kind} (h : Regular ks) (n : Nat) :
    (ahead ks n).isLexicalError = false := by
  rw [ahead]
  cases hn : ks[n]? with
  | none => rfl
  | some k => exact (h.plain k (List.mem_of_getElem? hn)).2

/-- The next word starts no operand. -/
def NoOperand (ks : List Kind) : Prop := ahead ks 0 ∉ operandStarts

/-- The next word closes what a pipeline stands in. -/
def PipeEnd (ks : List Kind) : Prop := ahead ks 0 = .rightParen ∨ ahead ks 0 = .rightDelimiter

lemma PipeEnd.noOperand {ks : List Kind} (h : PipeEnd ks) : NoOperand ks := by
  rcases h with h | h <;> rw [NoOperand, h] <;> decide

lemma PipeEnd.ne_pipe {ks : List Kind} (h : PipeEnd ks) : ahead ks 0 ≠ .pipe := by
  rcases h with h | h <;> rw [h] <;> decide

/-! ## Operands -/

variable {g : Nested} {s : Parser.State} {I : Language Kind}

/-- Whether a field directly follows reads nothing. -/
lemma asks_adjacentField (s : Parser.State) :
    Asks s.rest (isAdjacent .field) (ahead s.kinds 0 = .field) True 1 := by
  have h : Asks s.rest (isAdjacent .field) _ _ 1 := Asks.isAdjacent .field
  rwa [kindAt_eq] at h

/-- A field is taken, or nothing. -/
lemma reads_eatField (s : Parser.State) :
    (∃ ks, s.kinds = .field :: ks ∧ Reads eatField s true ks) ∨ Reads eatField s false s.kinds := by
  obtain ⟨v, hv, hyes, -⟩ := (asks_adjacentField s).reads
  rw [eatField, reads_ask hv]
  cases v with
  | true =>
    obtain ⟨ks, hks⟩ := eq_cons_of_ahead (hyes rfl) (by decide)
    refine .inl ⟨ks, hks, (reads_ask hv).2 ?_⟩
    exact reads_andPure.2 ⟨rfl, (reads_advance (hv.rest.trans hks)).2 rfl⟩
  | false => exact .inr (reads_pure.2 ⟨rfl, hv.rest⟩)

/-- Fields take some fields, and find no error. -/
lemma exists_reads_fields (s : Parser.State) :
    ∃ n ks, s.kinds = List.replicate n .field ++ ks ∧ Reads fields s () ks := by
  have progress : ∀ s ks, True → Reads eatField s true ks → ks.length < s.kinds.length ∧ True := by
    intro s ks _ h
    rcases reads_eatField s with ⟨js, hjs, h'⟩ | h'
    · obtain ⟨-, rfl⟩ := h.unique h'
      simp [hjs]
    · exact nomatch (h.unique h').1
  have key : ∀ n (s : Parser.State), s.kinds.length < n →
      ∃ m ks, s.kinds = List.replicate m .field ++ ks ∧ Repeats eatField s ks := by
    intro n
    induction n with
    | zero => exact fun _ h => absurd h (Nat.not_lt_zero _)
    | succ n ih =>
      intro s hn
      rcases reads_eatField s with ⟨js, hjs, h⟩ | h
      · rw [hjs, List.length_cons] at hn
        obtain ⟨m, ks, hks, hrest⟩ := ih _ (by rw [h.rest]; omega)
        rw [h.rest] at hks
        exact ⟨m + 1, ks, by rw [hjs, hks]; rfl, .more h hrest⟩
      · exact ⟨0, s.kinds, rfl, .last h⟩
  obtain ⟨m, ks, hks, h⟩ := key _ s (Nat.lt_succ_self _)
  exact ⟨m, ks, hks, (reads_repeatWhile (P := fun _ => True) progress trivial).2 h⟩

/-- Fields that may follow an operand. -/
lemma exists_reads_trail (v : Bool) (s : Parser.State) : ∃ n ks, s.kinds = List.replicate n .field ++ ks ∧
    Reads (given (pure v <&&> isAdjacent .field) (wrap .templateChain fields)) s () ks := by
  have hask : Asks s.rest (pure v <&&> isAdjacent .field) _ _ _ := (Asks.pure v).and (asks_adjacentField s)
  obtain ⟨w, hw, -⟩ := hask.reads
  cases w with
  | true =>
    obtain ⟨n, ks, hks, hfields⟩ := exists_reads_fields ((pure v <&&> isAdjacent .field).run s).2.taken
    exact ⟨n, ks, hw.rest.symm.trans hks, (reads_ask hw).2 (reads_wrap.2 hfields)⟩
  | false => exact ⟨0, s.kinds, rfl, (reads_ask hw).2 (reads_pure.2 ⟨rfl, hw.rest⟩)⟩

/-- Without a first part there is no operand. -/
lemma reads_operand_none {ks : List Kind} (h : Reads (term? g) s none ks) : Reads (operand g) s false ks :=
  reads_bind.2 ⟨none, ks, h, reads_pure.2 ⟨rfl, h.rest⟩⟩

/-- An operand reads what its first part reads, and some fields. -/
lemma reads_operand_some {k : Kind} {js : List Kind} (h : Reads (term? g) s (some k) js) :
    ∃ n ks, js = List.replicate n .field ++ ks ∧ Reads (operand g) s true ks := by
  obtain ⟨n, ks, hks, htrail⟩ :=
    exists_reads_trail (k = .templateVariable || k = .templateParen) ((term? g).run s).2
  exact ⟨n, ks, h.rest.symm.trans hks, reads_bind.2 ⟨some k, js, h, reads_andPure.2 ⟨rfl, htrail⟩⟩⟩

/-- What an operand can be is decided by its first word. -/
lemma leafKind?_eq_some {k label : Kind} (h : leafKind? k = some label) (hk : k.isLexicalError = false) :
    k ∈ atoms := by
  revert h hk
  cases k <;> simp [leafKind?, atoms, Kind.isLexicalError]

lemma leafKind?_of_mem {k : Kind} (h : k ∈ atoms) (hk : k ≠ .field) : ∃ label, leafKind? k = some label := by
  revert h hk
  cases k <;> simp [leafKind?, atoms]

/-! ## Declarations -/

/-- A pipeline starts here that declares or sets one variable or two. -/
def Declares (ks : List Kind) : Prop :=
  ahead ks 0 = .variable ∧ (ahead ks 1 ∈ [.define, .assign] ∨
    ahead ks 1 = .comma ∧ ahead ks 2 = .variable ∧ ahead ks 3 ∈ [.define, .assign])

lemma asks_declares (s : Parser.State) :
    Asks s.rest isAtDeclaration (Declares s.kinds) (¬ Declares s.kinds) 4 := by
  have hthird : Asks s.rest (nthIs 2 .variable) _ _ 1 := Asks.nthIs 2 .variable
  have hsign : Asks s.rest (nth 3 >>= fun k => pure (k == .define || k == .assign)) _ _ 1 :=
    .nth 3 (.pure _)
  rw [kindAt_eq] at hthird hsign
  refine ((asks_isAt s .variable).and (?_ : Asks s.rest _ (ahead s.kinds 0 = .variable → Declares s.kinds)
    (¬ Declares s.kinds) 3)).mono (fun h => h.2 h.1) fun h => h.elim (fun h h' => h h'.1) id
  refine .nth 1 ?_
  rw [kindAt_eq]
  unfold Declares
  split
  · next h => exact (Asks.pure true).mono (by simp [h]) (by simp)
  · next h => exact (Asks.pure true).mono (by simp [h]) (by simp)
  · next h => exact (hthird.and hsign).mono (by simp [h]; tauto) (by simp [h]; tauto)
  · next h h' h'' => exact (Asks.pure false).mono (by simp) (by simp_all)

/-- Taking a word that is there and of one of some kinds. -/
lemma scans_advance {P : List Kind → Prop} {ks : List Kind} (hks : .endOfInput ∉ ks)
    (h : ∀ js, P js → ahead js 0 ∈ ks) : Scans P advance (oneOf ks) fun _ => True where
  sound s hs js hr := by
    obtain ⟨k, hk, js', hjs⟩ := eq_cons_of_ahead_mem (h _ hs) hks
    obtain rfl := (reads_advance hjs).1 hr
    exact ⟨[k], ⟨k, hk, rfl⟩, hjs⟩
  complete s _ u hu js hjs _ := by
    obtain ⟨k, -, rfl⟩ := hu
    exact (reads_advance hjs).2 rfl

lemma mem_declarationWord {u : List Kind} : u ∈ declarationWord ↔
    ∃ k ∈ [Kind.define, .assign], u = [.variable, k] ∨ u = [.variable, .comma, .variable, k] := by
  constructor
  · intro h
    obtain ⟨x, hx, y, ⟨k, hk, rfl⟩, rfl⟩ := Language.mem_mul.1 h
    obtain ⟨_, rfl, z, hz, rfl⟩ := Language.mem_mul.1 hx
    rcases hz with rfl | hz
    · exact ⟨k, hk, .inl rfl⟩
    · obtain ⟨_, rfl, _, rfl, rfl⟩ := Language.mem_mul.1 hz
      exact ⟨k, hk, .inr rfl⟩
  · rintro ⟨k, hk, rfl | rfl⟩
    · exact Language.mem_mul.2 ⟨[.variable], Language.mem_mul.2 ⟨_, rfl, [], .inl rfl, rfl⟩, [k], ⟨k, hk, rfl⟩, rfl⟩
    · have hmore : [.comma, .variable] ∈ opt (tok .comma * tok .variable) :=
        .inr (Language.mem_mul.2 ⟨_, rfl, _, rfl, rfl⟩)
      exact Language.mem_mul.2 ⟨[.variable, .comma, .variable], Language.mem_mul.2 ⟨_, rfl, _, hmore, rfl⟩, [k],
        ⟨k, hk, rfl⟩, rfl⟩

/-- A declaration starts where a word of a declaration stands. -/
lemma declares_iff {ks : List Kind} : Declares ks ↔ ∃ u ∈ declarationWord, ∃ js, ks = u ++ js := by
  constructor
  · rintro ⟨h, hsign | ⟨hcomma, hsecond, hsign⟩⟩
    · obtain ⟨is, rfl⟩ := eq_cons_of_ahead h (by decide)
      obtain ⟨k, hk, js, rfl⟩ := eq_cons_of_ahead_mem hsign (by decide)
      exact ⟨[.variable, k], mem_declarationWord.2 ⟨k, hk, .inl rfl⟩, js, rfl⟩
    · obtain ⟨is, rfl⟩ := eq_cons_of_ahead h (by decide)
      obtain ⟨is, rfl⟩ := eq_cons_of_ahead hcomma (by decide)
      obtain ⟨is, rfl⟩ := eq_cons_of_ahead hsecond (by decide)
      obtain ⟨k, hk, js, rfl⟩ := eq_cons_of_ahead_mem hsign (by decide)
      exact ⟨[.variable, .comma, .variable, k], mem_declarationWord.2 ⟨k, hk, .inr rfl⟩, js, rfl⟩
  · rintro ⟨u, hu, js, rfl⟩
    obtain ⟨k, hk, rfl | rfl⟩ := mem_declarationWord.1 hu
    · exact ⟨rfl, .inl hk⟩
    · exact ⟨rfl, .inr ⟨rfl, rfl, hk⟩⟩

lemma reads_declaredVariable {s : Parser.State} {k : Kind} {ks : List Kind} (h : s.kinds = k :: ks) :
    Reads declaredVariable s () ks := reads_node.2 ((reads_advance (s := s.inner) h).2 rfl)

lemma reads_declaration {u ks : List Kind} (hu : u ∈ declarationWord) (hks : s.kinds = u ++ ks) :
    Reads declaration s () ks := by
  obtain ⟨k, hk, rfl | rfl⟩ := mem_declarationWord.1 hu
  · refine reads_node.2 ((reads_declaredVariable (s := s.inner) hks).andThen fun t ht => ?_)
    have hcomma : ahead t.kinds 0 ≠ .comma := by
      rw [ht]
      rintro rfl
      exact absurd hk (by decide)
    have hmore : Reads (given (eat .comma) declaredVariable) t () (k :: ks) :=
      ((reads_eat (by decide)).2 (.inr ⟨rfl, ht, hcomma⟩)).andThen fun t ht => reads_pure.2 ⟨rfl, ht⟩
    exact hmore.andThen fun t ht => (reads_advance ht).2 rfl
  · refine reads_node.2 ((reads_declaredVariable (s := s.inner) hks).andThen fun t ht => ?_)
    have hmore : Reads (given (eat .comma) declaredVariable) t () (k :: ks) :=
      ((reads_eat (by decide)).2 (.inl ⟨rfl, ht⟩)).andThen fun t ht => reads_declaredVariable ht
    exact hmore.andThen fun t ht => (reads_advance ht).2 rfl

/-- A declaration is read where one starts. -/
lemma scans_given_declaration : Scans Regular (given isAtDeclaration declaration) (opt declarationWord)
    fun ks => ¬ Declares ks := by
  refine .ask (Y := Declares) (N := fun ks => ¬ Declares ks) (fun s _ => asks_declares s) ⟨?_, ?_⟩ ⟨?_, ?_⟩
  · rintro s ⟨-, hs⟩ ks h
    obtain ⟨u, hu, js, hjs⟩ := declares_iff.1 hs
    obtain ⟨-, rfl⟩ := h.unique (reads_declaration hu hjs)
    exact ⟨u, .inr hu, hjs⟩
  · rintro s ⟨-, hs⟩ u (rfl | hu) ks hks hend
    · rw [hks] at hs
      exact absurd hs hend
    · exact reads_declaration hu hks
  · exact fun s _ ks h => ⟨[], .inl rfl, (reads_pure.1 h).2⟩
  · rintro s ⟨-, hs⟩ u (rfl | hu) ks hks -
    · exact reads_pure.2 ⟨rfl, hks⟩
    · exact absurd (declares_iff.2 ⟨u, hu, ks, hks⟩) hs

section Pipelines

variable (hg : Scans Regular g.pipeline I PipeEnd)

include hg

/-- A pipeline in parentheses. -/
lemma scans_parens : Scans (fun ks => Regular ks ∧ ahead ks 0 = .leftParen)
    (do advance; g.pipeline; expect .rightParen) (tok .leftParen * (I * tok .rightParen)) fun _ => True := by
  have hexpect : Scans Regular (expect .rightParen) (tok .rightParen) fun _ => True := .expect (by decide)
  have hinner := hg.seq hexpect (fun _ _ _ => Regular.right) fun w hw ks _ => by
    obtain rfl : w = _ := hw
    exact .inl rfl
  exact (Scans.advance (by decide) fun _ h => h.2).seq hinner (fun _ _ _ h => h.1.right) fun _ _ _ _ => trivial

/-- The first part of an operand without an error: there is none, or it reads an operand and some
fields. -/
lemma term_sound (hs : Regular s.kinds) {a : Option Kind} {ks : List Kind} (h : Reads (term? g) s a ks) :
    a = none ∧ s.kinds = ks ∨
      ∃ k, a = some k ∧ ∃ o ∈ operandWord I, ∃ n, s.kinds = o ++ (List.replicate n Kind.field ++ ks) := by
  have hlex := hs.not_lexical 0
  replace h := reads_nth.1 h
  split at h
  · next hk =>
    obtain ⟨js, hjs⟩ := eq_cons_of_ahead hk (by decide)
    obtain ⟨_, rfl, hnode⟩ := reads_map.1 h
    obtain ⟨_, ks', hadvance, hrest⟩ := reads_bind.1 (reads_nodeBy.1 hnode)
    obtain rfl := (reads_advance (s := s.looked.inner) hjs).1 hadvance
    obtain ⟨-, hfields⟩ := reads_andPure.1 hrest
    obtain ⟨n, is, his, hfields'⟩ := exists_reads_fields (advance.run s.looked.inner).2
    obtain ⟨-, rfl⟩ := hfields.unique hfields'
    rw [hadvance.rest] at his
    exact .inr ⟨_, rfl, [.field], .inl ⟨_, by decide, rfl⟩, n, by rw [hjs, his]; rfl⟩
  · next hk =>
    obtain ⟨_, rfl, hnode⟩ := reads_map.1 h
    have hbody : Reads ((do advance; g.pipeline; expect .rightParen) >>= fun _ => pure Kind.templateParen)
      _ _ ks := reads_nodeBy.1 hnode
    obtain ⟨u, hu, hks⟩ :=
      (scans_parens hg).sound s.looked.inner ⟨hs, hk⟩ ks (reads_andPure.1 hbody).2
    exact .inr ⟨_, rfl, u, .inr (by rwa [mul_assoc]), 0, hks⟩
  · split at h
    · next label hlabel =>
      have hatom := leafKind?_eq_some hlabel hlex
      obtain ⟨js, hjs⟩ := eq_cons_of_ahead (rfl : ahead s.kinds 0 = _) (by rintro h; rw [h] at hlabel; cases hlabel)
      obtain ⟨_, rfl, hleaf⟩ := reads_map.1 h
      obtain ⟨-, hadvance⟩ := reads_andPure.1 (reads_nodeBy.1 hleaf)
      obtain rfl := (reads_advance (s := s.looked.inner) hjs).1 hadvance
      exact .inr ⟨_, rfl, [_], .inl ⟨_, hatom, rfl⟩, 0, hjs⟩
    · obtain ⟨rfl, hks⟩ := reads_pure.1 h
      exact .inl ⟨rfl, hks⟩

/-- Where an operand stands, the first part of one is read. -/
lemma term_complete (hs : Regular s.kinds) {o ks : List Kind} (ho : o ∈ operandWord I) (hks : s.kinds = o ++ ks) :
    ∃ k n js, ks = List.replicate n .field ++ js ∧ Reads (term? g) s (some k) js := by
  rcases ho with ⟨k, hk, rfl⟩ | ho
  · have hhead : ahead s.kinds 0 = k := by rw [hks]; rfl
    by_cases hfield : k = .field
    · subst hfield
      have hadvance := (reads_advance (s := s.looked.inner) hks).2 rfl
      obtain ⟨n, js, hjs, hfields⟩ := exists_reads_fields (advance.run s.looked.inner).2
      refine ⟨.templateFieldChain, n, js, hadvance.rest.symm.trans hjs, reads_nth.2 ?_⟩
      rw [hhead]
      refine reads_map.2 ⟨_, rfl, reads_nodeBy.2 (reads_bind.2 ⟨(), ks, hadvance, ?_⟩)⟩
      exact reads_andPure.2 ⟨rfl, hfields⟩
    · obtain ⟨label, hlabel⟩ := leafKind?_of_mem hk hfield
      refine ⟨label, 0, ks, rfl, reads_nth.2 ?_⟩
      rw [hhead]
      split
      · exact absurd rfl hfield
      · cases hlabel
      · rw [hlabel]
        refine reads_map.2 ⟨_, rfl, reads_nodeBy.2 (reads_andPure.2 ⟨rfl, ?_⟩)⟩
        exact (reads_advance (s := s.looked.inner) hks).2 rfl
  · obtain ⟨x, hx, y, hy, rfl⟩ := Language.mem_mul.1 ho
    obtain ⟨l, rfl, i, hi, rfl⟩ := Language.mem_mul.1 hx
    have hhead : ahead s.kinds 0 = .leftParen := by rw [hks]; rfl
    refine ⟨.templateParen, 0, ks, rfl, reads_nth.2 ?_⟩
    rw [hhead]
    refine reads_map.2 ⟨_, rfl, reads_nodeBy.2 ?_⟩
    change Reads ((do advance; g.pipeline; expect .rightParen) >>= fun _ => pure Kind.templateParen) _ _ _
    refine reads_andPure.2 ⟨rfl, ?_⟩
    rw [mul_assoc] at ho
    exact (scans_parens hg).complete s.looked.inner ⟨hs, hhead⟩ _ ho ks hks trivial

omit hg in
/-- Where no operand starts, none is read. -/
lemma term_none (hs : Regular s.kinds) (hno : NoOperand s.kinds) : Reads (term? g) s none s.kinds := by
  refine reads_nth.2 ?_
  split
  · next hk => exact absurd (show ahead s.kinds 0 ∈ operandStarts by rw [hk]; decide) hno
  · next hk => exact absurd (show ahead s.kinds 0 ∈ operandStarts by rw [hk]; decide) hno
  · split
    · next label hlabel =>
      exact absurd (List.mem_cons_of_mem _ (leafKind?_eq_some hlabel (hs.not_lexical 0))) hno
    · exact reads_pure.2 ⟨rfl, rfl⟩

/-- An operand without an error: there is none, or it reads an operand and some fields. -/
lemma operand_sound (hs : Regular s.kinds) {v : Bool} {ks : List Kind} (h : Reads (operand g) s v ks) :
    v = false ∧ s.kinds = ks ∨
      v = true ∧ ∃ o ∈ operandWord I, ∃ n, s.kinds = o ++ (List.replicate n .field ++ ks) := by
  obtain ⟨a, js, hterm, -⟩ := reads_bind.1 h
  rcases term_sound hg hs hterm with ⟨rfl, hks⟩ | ⟨k, rfl, o, ho, m, hks⟩
  · obtain ⟨rfl, rfl⟩ := h.unique (reads_operand_none hterm)
    exact .inl ⟨rfl, hks⟩
  · obtain ⟨n, is, his, h'⟩ := reads_operand_some hterm
    obtain ⟨rfl, rfl⟩ := h.unique h'
    refine .inr ⟨rfl, o, ho, m + n, ?_⟩
    rw [hks, his, List.replicate_add, List.append_assoc]

/-- Where an operand stands, it is read, with some fields. -/
lemma operand_complete (hs : Regular s.kinds) {o ks : List Kind} (ho : o ∈ operandWord I)
    (hks : s.kinds = o ++ ks) : ∃ n js, ks = List.replicate n .field ++ js ∧ Reads (operand g) s true js := by
  obtain ⟨k, n, is, his, hterm⟩ := term_complete hg hs ho hks
  obtain ⟨m, js, hjs, h⟩ := reads_operand_some hterm
  refine ⟨n + m, js, ?_, h⟩
  rw [his, hjs, List.replicate_add, List.append_assoc]

omit hg in
/-- Fields are operands. -/
lemma replicate_append_mem (n : Nat) {w : List Kind} (hw : w ∈ (operandWord I)∗) :
    List.replicate n .field ++ w ∈ (operandWord I)∗ := by
  induction n with
  | zero => exact hw
  | succ n ih => exact append_mem_kstar (u := [.field]) (.inl ⟨.field, by decide, rfl⟩) ih

omit hg in
/-- Fields in front of operands can be left out. -/
lemma drop_fields {n : Nat} {u ks js : List Kind} (hu : u ∈ (operandWord I)∗) (hks : NoOperand ks)
    (h : u ++ ks = List.replicate n .field ++ js) : ∃ w ∈ (operandWord I)∗, js = w ++ ks := by
  induction n generalizing u with
  | zero => exact ⟨u, hu, h.symm⟩
  | succ n ih =>
    rcases mem_kstar_cases hu with rfl | ⟨o, ho, w, hw, rfl⟩
    · have hfield : ahead ks 0 = .field := by
        rw [show ks = _ from h]
        rfl
      exact absurd (show ahead ks 0 ∈ operandStarts by rw [hfield]; decide) hks
    · rcases ho with ⟨k, -, rfl⟩ | ho
      · exact ih hw (List.tail_eq_of_cons_eq h)
      · obtain ⟨x, hx, y, -, rfl⟩ := Language.mem_mul.1 ho
        obtain ⟨l, rfl, i, -, rfl⟩ := Language.mem_mul.1 hx
        exact nomatch List.head_eq_of_cons_eq h

/-- A row of operands is read to its end. -/
lemma scans_operands : Scans Regular (repeatWhile (operand g)) (operandWord I)∗ NoOperand := by
  have progress : ∀ s ks, Regular s.kinds → Reads (operand g) s true ks →
      ks.length < s.kinds.length ∧ Regular ks := by
    intro s ks hs h
    rcases operand_sound hg hs h with ⟨hv, -⟩ | ⟨-, o, ho, n, hks⟩
    · exact nomatch hv
    · obtain ⟨k, -, v, rfl⟩ := startsIn_operandWord I o ho
      rw [hks] at hs ⊢
      exact ⟨by simp; omega, hs.right.right⟩
  constructor
  · intro s hs ks h
    replace h := (reads_repeatWhile progress hs).1 h
    induction h with
    | last h =>
      rcases operand_sound hg hs h with ⟨-, hks⟩ | ⟨hv, -⟩
      · exact ⟨[], Language.nil_mem_kstar _, hks⟩
      · exact nomatch hv
    | @more s ks ks' h _ ih =>
      have hP := (progress _ _ hs h).2
      rw [← h.rest] at hP
      obtain ⟨w, hw, hks⟩ := ih hP
      rw [h.rest] at hks
      rcases operand_sound hg hs h with ⟨hv, -⟩ | ⟨-, o, ho, n, hks'⟩
      · exact nomatch hv
      refine ⟨o ++ (List.replicate n .field ++ w), ?_, by rw [hks', hks]; simp⟩
      exact append_mem_kstar ho (replicate_append_mem n hw)
  · -- by induction on the number of words: one operand may take the fields behind it
    have key : ∀ n (s : Parser.State), s.kinds.length < n → Regular s.kinds → ∀ u ∈ (operandWord I)∗, ∀ ks,
        s.kinds = u ++ ks → NoOperand ks → Repeats (operand g) s ks := by
      intro n
      induction n with
      | zero => exact fun _ h => absurd h (Nat.not_lt_zero _)
      | succ n ih =>
        intro s hn hs u hu ks hks hend
        rcases mem_kstar_cases hu with rfl | ⟨o, ho, w, hw, rfl⟩
        · have hnone : Reads (term? g) s none s.kinds := term_none hs (by rwa [hks])
          rw [show s.kinds = ks from hks] at hnone
          exact .last (reads_operand_none hnone)
        · rw [List.append_assoc] at hks
          obtain ⟨m, js, hjs, h⟩ := operand_complete hg hs ho hks
          obtain ⟨hlt, hP⟩ := progress s js hs h
          obtain ⟨x, hx, hxks⟩ := drop_fields hw hend hjs
          rw [← h.rest] at hlt hP hxks
          exact .more h (ih _ (by omega) hP x hx ks hxks hend)
    intro s hs u hu ks hks hend
    exact (reads_repeatWhile progress hs).2 (key _ s (Nat.lt_succ_self _) hs u hu ks hks hend)

lemma scans_command : Scans Regular (command g) (commandWord I) NoOperand := by
  refine .node ⟨?_, ?_⟩
  · intro s hs ks h
    obtain ⟨v, js, hv, h⟩ := reads_bind.1 h
    rcases operand_sound hg hs hv with ⟨rfl, -⟩ | ⟨rfl, o, ho, n, hks⟩
    · exact absurd h not_reads_error
    · have hjs : Regular js := by
        rw [hks] at hs
        exact hs.right.right
      rw [← hv.rest] at hjs
      obtain ⟨w, hw, hks'⟩ := (scans_operands hg).sound _ hjs ks h
      rw [hv.rest] at hks'
      refine ⟨o ++ (List.replicate n .field ++ w), ?_, by rw [hks, hks']; simp⟩
      exact Language.mem_mul.2 ⟨o, ho, _, replicate_append_mem n hw, rfl⟩
  · intro s hs x hx ks hks hend
    obtain ⟨o, ho, w, hw, rfl⟩ := Language.mem_mul.1 hx
    rw [List.append_assoc] at hks
    obtain ⟨n, js, hjs, h⟩ := operand_complete hg hs ho hks
    obtain ⟨y, hy, hyks⟩ := drop_fields hw hend hjs
    have hreg : Regular js := by
      rw [hks, hjs] at hs
      exact hs.right.right
    rw [← h.rest] at hreg hyks
    exact reads_bind.2 ⟨true, js, h, (scans_operands hg).complete _ hreg y hy ks hyks hend⟩

omit hg in
/-- Bars between commands: they close all commands but the last, or open all but the first. -/
lemma kstar_mul_slide (L M : Language Kind) : (L * M)∗ * L = L * (M * L)∗ := by
  apply le_antisymm
  · refine kstar_mul_le ?_ ?_
    · calc L = L * 1 := (mul_one L).symm
        _ ≤ L * (M * L)∗ := mul_le_mul_right one_le_kstar L
    · calc L * M * (L * (M * L)∗) = L * (M * L * (M * L)∗) := by simp only [mul_assoc]
        _ ≤ L * (M * L)∗ := mul_le_mul_right mul_kstar_le_kstar L
  · refine mul_kstar_le ?_ ?_
    · calc L = 1 * L := (one_mul L).symm
        _ ≤ (L * M)∗ * L := mul_le_mul_left one_le_kstar L
    · calc (L * M)∗ * L * (M * L) = (L * M)∗ * (L * M) * L := by simp only [mul_assoc]
        _ ≤ (L * M)∗ * L := mul_le_mul_left kstar_mul_le_kstar L

/-- A row of commands with bars between them. -/
lemma scans_commands : Scans Regular (repeatWhile do command g; eat .pipe)
    (commandWord I * (tok .pipe * commandWord I)∗) PipeEnd := by
  have hcommand := scans_command hg
  have hpipe (ks : List Kind) : NoOperand (.pipe :: ks) := show Kind.pipe ∉ operandStarts by decide
  rw [← kstar_mul_slide]
  refine .repeatWhile (startsIn_commandWord I).mul.nil_notMem ?_ ?_ ?_ fun _ _ _ => Regular.right
  · intro s hs ks
    constructor
    · intro h
      obtain ⟨_, js, hc, he⟩ := reads_bind.1 h
      obtain ⟨u, hu, hjs⟩ := hcommand.sound s hs js hc
      rcases (reads_eat (by decide)).1 he with ⟨-, hks⟩ | ⟨hv, -⟩
      · rw [hc.rest] at hks
        exact ⟨u ++ [Kind.pipe], Language.mem_mul.2 ⟨u, hu, _, rfl, rfl⟩, by rw [hjs, hks]; simp⟩
      · exact nomatch hv
    · rintro ⟨x, hx, hks⟩
      obtain ⟨u, hu, _, rfl, rfl⟩ := Language.mem_mul.1 hx
      rw [List.append_assoc] at hks
      refine (hcommand.complete s hs u hu (.pipe :: ks) hks (hpipe ks)).andThen fun t ht => ?_
      exact (reads_eat (by decide)).2 (.inl ⟨rfl, ht⟩)
  · intro s hs ks h
    obtain ⟨_, js, hc, he⟩ := reads_bind.1 h
    obtain ⟨u, hu, hjs⟩ := hcommand.sound s hs js hc
    rcases (reads_eat (by decide)).1 he with ⟨hv, -⟩ | ⟨-, hks, -⟩
    · exact nomatch hv
    · rw [hc.rest] at hks
      exact ⟨u, hu, hjs.trans (by rw [hks])⟩
  · intro s hs u hu ks hks hend
    refine (hcommand.complete s hs u hu ks hks hend.noOperand).andThen fun t ht => ?_
    exact (reads_eat (by decide)).2 (.inr ⟨rfl, ht, by rw [ht]; exact hend.ne_pipe⟩)

omit hg in
/-- What can follow an operand. -/
lemma follow_operands {w r ks : List Kind} (hw : w ∈ (operandWord I)∗) (hr : r ∈ (tok .pipe * commandWord I)∗)
    (hend : PipeEnd ks) :
    ahead (w ++ (r ++ ks)) 0 ∈ .pipe :: .rightParen :: .rightDelimiter :: operandStarts := by
  rcases mem_kstar_cases hw with rfl | ⟨o, ho, w, -, rfl⟩
  · rcases mem_kstar_cases hr with rfl | ⟨c, hc, r, -, rfl⟩
    · rcases hend with h | h <;> simp [h]
    · obtain ⟨_, rfl, c, -, rfl⟩ := Language.mem_mul.1 hc
      exact List.mem_cons_self ..
  · have hmem := (startsIn_operandWord I).ahead_mem ho (w ++ (r ++ ks))
    rw [List.append_assoc]
    exact List.mem_cons_of_mem _ (List.mem_cons_of_mem _ (List.mem_cons_of_mem _ hmem))

omit hg in
/-- No declaration starts where commands do. -/
lemma not_declares {u ks : List Kind} (hu : u ∈ commandWord I * (tok .pipe * commandWord I)∗)
    (hend : PipeEnd ks) : ¬ Declares (u ++ ks) := by
  obtain ⟨c, hc, r, hr, rfl⟩ := Language.mem_mul.1 hu
  obtain ⟨o, ho, w, hw, rfl⟩ := Language.mem_mul.1 hc
  rintro ⟨hvar, hnext⟩
  rcases ho with ⟨k, -, rfl⟩ | ho
  · have hfollow := follow_operands hw hr hend
    have hsecond : ahead ([k] ++ w ++ r ++ ks) 1 = ahead (w ++ (r ++ ks)) 0 := by simp
    rw [hsecond] at hnext
    have hsigns : ∀ j ∈ [Kind.define, .assign, .comma],
        j ∉ .pipe :: .rightParen :: .rightDelimiter :: operandStarts := by decide
    rcases hnext with h | ⟨h, -⟩
    · exact hsigns _ (List.mem_append_left [.comma] h) hfollow
    · exact hsigns _ (by rw [h]; decide) hfollow
  · obtain ⟨x, hx, y, -, rfl⟩ := Language.mem_mul.1 ho
    obtain ⟨l, rfl, i, -, rfl⟩ := Language.mem_mul.1 hx
    exact nomatch hvar

/-- A pipeline. -/
lemma scans_pipeline : Scans Regular (pipeline g) (pipeOf I) PipeEnd :=
  .node (scans_given_declaration.seq (scans_commands hg) (fun _ _ _ => Regular.right) fun _ hw _ => not_declares hw)

end Pipelines

end GoFront.Template
