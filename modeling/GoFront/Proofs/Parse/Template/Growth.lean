import GoFront.Proofs.Parse.Template.Effort
import GoFront.Proofs.Parse.Template.Form

/-!
# What the template grammar grows

Every production of the template grammar grows sprouts of its form. In a directive nothing is taken but words of the
directive (`Inside`), since none of the productions there takes a closing marker; and the directive itself ends outside
directives, so the next production can rely on that.
-/

namespace GoFront.Template

open GoFront.Parser Sprout

variable {ws : List Word} {f f₀ : List Sprout}

/-! ## In a directive -/

/-- The input goes on in a directive, of which parts have grown on top of `f₀`. -/
structure Inside (f₀ : List Sprout) (ws : List Word) (f : List Sprout) : Prop where
  flows : Flows true ws
  parts : ∃ us, f = us ++ f₀ ∧ ∀ u ∈ us, IsPart u

/-- Whatever the answer is, the input goes on in the directive. -/
abbrev Keeps {α : Type} (f₀ : List Sprout) : α → List Word → List Sprout → Prop := fun _ => Inside f₀

namespace Inside

lemma part (h : Inside f₀ ws f) {x : Sprout} (hx : IsPart x) : Inside f₀ ws (x :: f) := by
  obtain ⟨us, rfl, hus⟩ := h.parts
  exact ⟨h.flows, x :: us, rfl, List.forall_mem_cons.2 ⟨hx, hus⟩⟩

lemma start (h : Inside f₀ ws f) : Inside [] ws [] := ⟨h.flows, [], rfl, by simp⟩

/-- What grew in a node makes it a part. -/
lemma isPart (h : Inside [] ws f) {k : Kind} (hk : k ∉ directiveKinds) : IsPart (.node k f.reverse) := by
  obtain ⟨us, rfl, hus⟩ := h.parts
  refine .node hk fun c hc => hus c ?_
  simpa using hc

lemma close (h : Inside f₀ ws f) {ws' : List Word} {g : List Sprout} {k : Kind} (hk : k ∉ directiveKinds)
    (hg : Inside [] ws' g) : Inside f₀ ws' (.node k g.reverse :: f) :=
  Inside.part ⟨hg.flows, h.parts⟩ (hg.isPart hk)

lemma advance_tail (h : Inside f₀ ws f) (hk : kindAt ws 0 ≠ .rightDelimiter) :
    Grows ws f Parser.advance fun _ ws' f' => ws' = ws.tail ∧ Inside f₀ ws' f' := by
  cases ws with
  | nil => exact .advance_nil ⟨rfl, h⟩
  | cons w ws =>
    obtain ⟨hw, hws⟩ := h.flows.inner hk
    exact .advance ⟨rfl, Inside.part ⟨hws, h.parts⟩ (.word hw)⟩

lemma advance (h : Inside f₀ ws f) (hk : kindAt ws 0 ≠ .rightDelimiter) : Grows ws f Parser.advance (Keeps f₀) :=
  (h.advance_tail hk).mono fun _ _ _ h => h.2

lemma take {β : Type} {k : Unit → Parser β} {R : β → List Word → List Sprout → Prop} (h : Inside f₀ ws f)
    (hk : kindAt ws 0 ≠ .rightDelimiter) (hrest : ∀ ws' f', Inside f₀ ws' f' → Grows ws' f' (k ()) R) :
    Grows ws f (Parser.advance >>= k) R := (h.advance hk).bind fun _ ws' f' h => hrest ws' f' h

lemma ifEat {β : Type} {c : Kind} {k : Bool → Parser β} {R : β → List Word → List Sprout → Prop} (h : Inside f₀ ws f)
    (hc : c ∉ foreignKinds) (hrest : ∀ v ws' f', Inside f₀ ws' f' → Grows ws' f' (k v) R) :
    Grows ws f (Parser.eat c >>= k) R := by
  refine .ifEat (fun hend => hc (hend ▸ by decide)) (fun w ws' hws hw => hrest true _ _ ?_) fun _ => hrest false _ _ h
  subst hws
  obtain ⟨hw', hws'⟩ := h.flows.inner fun hright => hc (hw ▸ hright ▸ by decide)
  exact Inside.part ⟨hws', h.parts⟩ (.word hw')

lemma eat {c : Kind} (h : Inside f₀ ws f) (hc : c ∉ foreignKinds) : Grows ws f (Parser.eat c) (Keeps f₀) := by
  have key : Grows ws f (Parser.eat c >>= pure) (Keeps f₀) := h.ifEat hc fun _ _ _ h => .pure h
  rwa [bind_pure] at key

lemma fault {e : Problem} (h : Inside f₀ ws f) (he : e.isInner = true) : Grows ws f (Parser.error e) (Keeps f₀) :=
  .error fun _ => h.part (.error he)

lemma expected {what : String} (h : Inside f₀ ws f) : Grows ws f (Parser.expected what) (Keeps f₀) :=
  .expected fun _ _ => h.part (.error rfl)

lemma expect {c : Kind} (h : Inside f₀ ws f) (hc : c ∉ foreignKinds) : Grows ws f (Parser.expect c) (Keeps f₀) :=
  h.ifEat hc fun v _ _ h => by
    cases v with
    | true => exact .pure h
    | false => exact h.expected

lemma node {k : Kind} {p : Parser Unit} (h : Inside f₀ ws f) (hk : k ∉ directiveKinds)
    (hp : Inside [] ws [] → Grows ws [] p (Keeps [])) : Grows ws f (Parser.node k p) (Keeps f₀) :=
  .node ((hp h.start).mono fun _ _ _ hg => h.close hk hg)

lemma expectedOr {what : String} {recovery : KindSet} (h : Inside f₀ ws f)
    (hrecovery : recovery.contains .rightDelimiter = true) : Grows ws f (Parser.expectedOr what recovery) (Keeps f₀) := by
  refine .ite ((Asks.isAtAny _).or (Asks.isAt _)) (fun _ => h.expected) fun ⟨hno, _⟩ => .peek ?_
  refine h.node (by decide) fun h => .bind (Q := fun _ ws' f' => ws' = ws ∧ Inside [] ws' f') ?_ ?_
  · exact .error fun _ => ⟨rfl, h.part (.error rfl)⟩
  · rintro _ ws' f' ⟨rfl, hg⟩
    refine hg.advance fun hright => ?_
    rw [hright, hrecovery] at hno
    exact Bool.noConfusion hno

end Inside

/-- One part has grown on top of what was there. -/
def Tops (f₀ : List Sprout) (ws : List Word) (f : List Sprout) : Prop :=
  ∃ x f', f = x :: f' ∧ IsPart x ∧ Inside f₀ ws f'

lemma Inside.top (h : Inside f₀ ws f) {p : Parser Kind}
    (hp : Grows ws [] p fun k ws' g => k ∉ directiveKinds ∧ Inside [] ws' g) :
    Grows ws f (nodeBy p) fun _ => Tops f₀ :=
  .nodeBy (hp.mono fun _ _ _ ⟨hk, hg⟩ => ⟨_, f, rfl, hg.isPart hk, hg.flows, h.parts⟩)

/-! ## Pipelines -/

/-- The productions one level down grow what they should: a pipeline stays in its directive, and `block` says what a
block is. -/
structure Nested.Forms (block : Bool → Sprout → List Word → Prop) (g : Nested) : Prop where
  block : ∀ {ws f inLoop}, Flows false ws → kindAt ws 0 = .leftDelimiter → opensBlock (kindAt ws 1) = true →
    Grows ws f (g.block inLoop) fun _ ws' f' => Flows false ws' ∧
      ∃ x, f' = x :: f ∧ ws = x.words ++ ws' ∧ block inLoop x ws'
  pipeline : ∀ {ws f₀ f}, Inside f₀ ws f → Grows ws f g.pipeline (Keeps f₀)

lemma grows_fields (h : Inside f₀ ws f) : Grows ws f fields (Keeps f₀) := by
  refine .repeatWhile (I := Inside f₀) h fun ws f h => .ite (.isAdjacent _) (fun hk => ?_) fun _ => ?_
  · exact h.take (by rw [hk]; decide) fun _ _ h => .pure ⟨fun _ => h, Bool.noConfusion⟩
  · exact .pure ⟨Bool.noConfusion, fun _ => h⟩

lemma grows_skipParens {depth : Nat} (h : Inside f₀ ws f) :
    Grows ws f (skipParens depth) (Grows.Goes (Keeps f₀) (Keeps f₀)) := by
  refine .ite ((Asks.isAt _).or (.isAt _)) (fun _ => .pure h) fun ⟨_, hright⟩ => .peek ?_
  have htake : ∀ depth', Grows ws f (advance >>= fun _ => pure (.yield depth'))
      (Grows.Goes (Keeps (α := Nat) f₀) (Keeps f₀)) := fun _ => h.take hright fun _ _ h => .pure h
  split
  · exact htake _
  · split
    · exact .pure h
    · exact htake _
  · exact htake _

lemma grows_skipPipeline (h : Inside f₀ ws f) : Grows ws f skipPipeline (Keeps f₀) := by
  refine h.node (by decide) fun h => (h.fault rfl).bind fun _ ws' f' h => ?_
  have hloop : Grows ws' f' (loop 0 skipParens) (Keeps []) := .loop (I := Keeps []) h fun _ _ _ h => grows_skipParens h
  exact hloop.discard fun _ _ _ h => h

lemma grows_declaredVariable {w : Word} (h : Inside f₀ (w :: ws) f) (hw : w.kind = .variable) :
    Grows (w :: ws) f declaredVariable fun _ ws' f' => ws' = ws ∧ Inside f₀ ws' f' := by
  obtain ⟨hkind, hws⟩ := h.flows.inner (by rw [hw]; decide)
  exact .node (.advance ⟨rfl, h.close (g := [.word w]) (by decide) (Inside.part ⟨hws, [], rfl, by simp⟩ (.word hkind))⟩)

lemma grows_declaration (h : Inside f₀ ws f) (hdeclares : Declares (ws.map Word.kind)) :
    Grows ws f declaration (Keeps f₀) := by
  have hsign : ∀ k ∈ [Kind.define, .assign], k ≠ .rightDelimiter ∧ k ≠ .comma := by decide
  refine h.node (by decide) fun h => ?_
  obtain ⟨u, hu, js, hjs⟩ := declares_iff.1 hdeclares
  obtain ⟨k, hk, rfl | rfl⟩ := mem_declarationWord.1 hu
  · obtain ⟨v, ws, rfl, hv, hws⟩ := List.map_eq_cons_iff.1 hjs
    obtain ⟨e, ws, rfl, rfl, -⟩ := List.map_eq_cons_iff.1 hws
    refine (grows_declaredVariable h hv).bind ?_
    rintro _ _ f ⟨rfl, h⟩
    refine .bind (Q := fun _ ws' f' => ws' = e :: ws ∧ Inside [] ws' f') ?_ ?_
    · exact .ifEat (by decide) (fun w _ hws hw => absurd ((List.cons.inj hws).1 ▸ hw) (hsign _ hk).2)
        fun _ => .pure ⟨rfl, h⟩
    · rintro _ _ f ⟨rfl, h⟩
      exact h.advance (hsign _ hk).1
  · obtain ⟨v, ws, rfl, hv, hws⟩ := List.map_eq_cons_iff.1 hjs
    obtain ⟨c, ws, rfl, hc, hws⟩ := List.map_eq_cons_iff.1 hws
    obtain ⟨v', ws, rfl, hv', hws⟩ := List.map_eq_cons_iff.1 hws
    obtain ⟨e, ws, rfl, rfl, -⟩ := List.map_eq_cons_iff.1 hws
    refine (grows_declaredVariable h hv).bind ?_
    rintro _ _ f ⟨rfl, h⟩
    refine .bind (Q := fun _ ws' f' => ws' = e :: ws ∧ Inside [] ws' f') ?_ ?_
    · refine .ifEat (by decide) (fun w ws' hws hw => ?_) fun hne => absurd hc hne
      obtain ⟨rfl, rfl⟩ := List.cons.inj hws
      obtain ⟨hkind, hws⟩ := h.flows.inner (by rw [hw]; decide)
      exact grows_declaredVariable (Inside.part ⟨hws, h.parts⟩ (.word hkind)) hv'
    · rintro _ _ f ⟨rfl, h⟩
      exact h.advance (hsign _ hk).1

section

variable {block : Bool → Sprout → List Word → Prop} {g : Nested} (hg : g.Forms block)

include hg

/-- The first part of an operand, if there is one, is on top of what was there. -/
lemma grows_term? (h : Inside f₀ ws f) : Grows ws f (term? g) fun v ws' f' =>
    match v with
    | none => Inside f₀ ws' f'
    | some _ => Tops f₀ ws' f' := by
  refine .peek ?_
  split
  · next hk =>
    refine .map (h.top (h.start.take (by rw [hk]; decide) fun _ _ h => ?_)) fun _ _ _ h => h
    exact (grows_fields h).bind fun _ _ _ h => .pure ⟨by decide, h⟩
  · next hk =>
    refine .map (h.top (h.start.take (by rw [hk]; decide) fun _ _ h => ?_)) fun _ _ _ h => h
    exact (hg.pipeline h).bind fun _ _ _ h => (h.expect (by decide)).bind fun _ _ _ h => .pure ⟨by decide, h⟩
  · split
    · next label hlabel =>
      obtain ⟨hright, -⟩ := leafKind?_eq_some_of_rightDelimiter hlabel
      refine .map (h.top (h.start.take hright fun _ _ h => .pure ⟨?_, h⟩)) fun _ _ _ h => h
      revert hlabel
      generalize kindAt ws 0 = k
      cases k <;> simp [leafKind?] <;> rintro rfl <;> decide
    · exact .pure h

lemma grows_operand (h : Inside f₀ ws f) : Grows ws f (operand g) (Keeps f₀) := by
  refine (grows_term? hg h).bind fun v ws' f' h => ?_
  cases v with
  | none => exact .pure h
  | some k =>
    obtain ⟨x, f', rfl, hx, h⟩ := h
    refine .bind (Q := Keeps f₀) ?_ fun _ _ _ h => .pure h
    refine .given ((Asks.pure _).and (.isAdjacent _)) (fun _ => .wrap ?_) fun _ => h.part hx
    have hin : Inside [] ws' [x] := h.start.part hx
    exact (grows_fields hin).mono fun _ ws' g hg => h.close (by decide) hg

lemma grows_command (h : Inside f₀ ws f) : Grows ws f (command g) (Keeps f₀) := by
  refine h.node (by decide) fun h => (grows_operand hg h).bind fun v ws' f' h => ?_
  cases v with
  | true => exact .repeatWhile (I := Inside []) h fun _ _ h => (grows_operand hg h).mono fun _ _ _ h => ⟨fun _ => h, fun _ => h⟩
  | false => exact h.fault (by decide)

lemma grows_pipeline (h : Inside f₀ ws f) : Grows ws f (pipeline g) (Keeps f₀) := by
  refine h.node (by decide) fun h => .bind (Q := Keeps []) ?_ fun _ ws' f' h => ?_
  · exact .given (asks_declares { span := .emptyAt 0, rest := ws }) (fun hdeclares => grows_declaration h hdeclares) fun _ => h
  · refine .repeatWhile (I := Inside []) h fun _ _ h => (grows_command hg h).bind fun _ _ _ h => ?_
    exact (h.eat (by decide)).mono fun _ _ _ h => ⟨fun _ => h, fun _ => h⟩

lemma grows_pipelineIfAny (h : Inside f₀ ws f) : Grows ws f (pipelineIfAny g) (Keeps f₀) :=
  .ite asks_isAtActionEnd (fun _ => .pure h) fun _ => grows_pipeline hg h

lemma grows_requiredPipeline {subject : String} (h : Inside f₀ ws f)
    (hsubject : (Problem.missingValue subject).isInner = true) :
    Grows ws f (requiredPipeline g subject) (Keeps f₀) :=
  .ite asks_isAtActionEnd (fun _ => h.fault hsubject) fun _ => grows_pipeline hg h

end

/-! ## Directives -/

variable {d : Delimiters}

lemma grows_templateName (h : Inside f₀ ws f) : Grows ws f templateName (Keeps f₀) := by
  refine .ite ((Asks.isAt _).or (.isAt _)) (fun hk => h.advance fun hright => ?_) fun _ => h.expectedOr (by decide)
  rw [hright] at hk
  exact absurd hk (by decide)

/-- What is skipped ends in front of the closing marker or with the input. -/
lemma grows_skipAction (h : Inside f₀ ws f) : Grows ws f skipAction fun _ ws' f' =>
    Inside f₀ ws' f' ∧ (kindAt ws' 0 = .rightDelimiter ∨ ws' = []) := by
  refine .repeatWhile (I := Inside f₀) h fun ws f h => .ite asks_isAtActionEnd (fun hend => ?_) fun ⟨hright, _⟩ => ?_
  · exact .pure ⟨Bool.noConfusion, fun _ => ⟨h, hend.imp_right h.flows.eq_nil⟩⟩
  · exact h.take hright fun _ _ h => .pure ⟨fun _ => h, Bool.noConfusion⟩

/-- What has grown is a directive, and the input goes on outside directives. -/
def Closed (ws : List Word) (f : List Sprout) : Prop := Flows false ws ∧ ∃ xs, f = xs.reverse ∧ Action xs ws

lemma Inside.closed {w : Word} (h : Inside [.word w] ws f) (hw : w.kind = .leftDelimiter) {ws' : List Word}
    {cs : List Sprout} (hflows : Flows false ws') (hcs : Closing cs ws') : Closed ws' (cs.reverse ++ f) := by
  obtain ⟨us, rfl, hus⟩ := h.parts
  exact ⟨hflows, .word w :: (us.reverse ++ cs), by simp, .intro hw (fun u hu => hus u (List.mem_reverse.1 hu)) hcs⟩

lemma grows_closeAction {w : Word} (hw : w.kind = .leftDelimiter) (h : Inside [.word w] ws f) :
    Grows ws f (closeAction d) fun _ => Closed := by
  have hmarker : ∀ {ws f} {v : Word} {ws'}, Inside [.word w] ws f → ws = v :: ws' → v.kind = .rightDelimiter →
      Closed ws' (.word v :: f) := fun h hws hv => h.closed hw ((hws ▸ h.flows).close hv) (.marker hv)
  refine .ifEat (by decide) (fun v ws' hws hv => .pure (hmarker h hws hv)) fun _ =>
    .ite (.isAt _) (fun hend => ?_) fun _ => ?_
  · obtain rfl := h.flows.eq_nil hend
    exact .error fun r => h.closed hw .nil .unclosed
  -- what is skipped is a part, and the closing marker follows it if there is one
  refine .bind (Q := fun _ ws' f' => Inside [.word w] ws' f' ∧ (kindAt ws' 0 = .rightDelimiter ∨ ws' = []))
    (.node ?_) fun _ ws' f' ⟨h, hnext⟩ => ?_
  · refine .bind (Q := Keeps []) (.otherwise (.peek _) (fun _ => h.start) fun _ => h.start.expected) fun _ _ _ hg => ?_
    exact (grows_skipAction hg).mono fun _ _ _ ⟨hg, hnext⟩ => ⟨h.close (by decide) hg, hnext⟩
  · refine .ifEat (by decide) (fun v ws'' hws hv => .pure (hmarker h hws hv)) fun hright => ?_
    obtain rfl := hnext.resolve_left hright
    exact .pure (h.closed hw .nil .lost)

/-- What is skipped ends with a word, unless nothing is. -/
lemma endsWith_skipAction (hright : kindAt ws 0 ≠ .rightDelimiter) (hend : kindAt ws 0 ≠ .endOfInput) :
    Grows ws f skipAction fun _ _ f' => ∃ w, EndsWith w f'.reverse := by
  refine .repeatWhile (I := fun ws' f' => ws' = ws ∨ ∃ w, EndsWith w f'.reverse) (.inl rfl) fun ws' f' h => ?_
  refine .ite asks_isAtActionEnd (fun hstop => .pure ⟨Bool.noConfusion, fun _ => ?_⟩) fun ⟨_, hmore⟩ => ?_
  · refine h.resolve_left ?_
    rintro rfl
    exact hstop.elim hright hend
  · refine .take (K := (· ≠ .endOfInput)) hmore (not_not_intro rfl) fun w _ _ _ => .pure ⟨fun _ => .inr ⟨w, ?_⟩, Bool.noConfusion⟩
    rw [List.reverse_cons]
    exact .word

/-- A directive that is closed right behind a word. -/
lemma bare_closeAction {w : Word} (hw : EndsWith w f.reverse) (hown : own f.reverse = []) :
    Grows ws f (closeAction d) fun _ _ f' => Bare f'.reverse := by
  have hmarker : ∀ {v : Word} {g : List Sprout}, own g.reverse = [] → Bare (Sprout.word v :: g).reverse := by
    intro v g hg
    have hnone : own (g.reverse ++ [Sprout.word v]) = [] := by
      rw [own_append, hg]
      rfl
    rw [List.reverse_cons]
    exact ⟨fun x hx => absurd (hnone ▸ hx) List.not_mem_nil, v, .word⟩
  refine .ifEat (by decide) (fun v _ _ _ => .pure (hmarker hown)) fun hright => .ite (.isAt _) (fun _ => ?_) fun hend => ?_
  · refine .error fun r => ?_
    have hone : own (f.reverse ++ [Sprout.error .unclosedAction r]) = [(.unclosedAction, r)] := by
      rw [own_append, hown]
      rfl
    rw [List.reverse_cons]
    refine ⟨fun x hx => ?_, w, .error hw⟩
    rw [hone] at hx
    exact congrArg Prod.fst (List.mem_singleton.1 hx)
  · refine .bind (Q := fun _ _ f' => Bare f'.reverse ∧ own f'.reverse = []) (.node ?_) fun _ _ _ ⟨hbare, hnone⟩ =>
      .ifEat (by decide) (fun v _ _ _ => .pure (hmarker hnone)) fun _ => .pure hbare
    have hskip : Grows ws [] (otherwise (Kind.isLexicalError <$> peek) (expected ("'" ++ String.ofList d.right ++ "'")) >>=
        fun _ => skipAction) fun _ _ g => ∃ w, EndsWith w g.reverse := by
      refine .bind (Q := fun _ ws' _ => ws' = ws) (.otherwise (.peek _) (fun _ => rfl) fun _ => .expected fun _ _ => rfl) ?_
      rintro _ _ _ rfl
      exact endsWith_skipAction hright hend
    refine hskip.mono fun _ _ g ⟨v, hv⟩ => ?_
    have hnone : own (Sprout.node .error g.reverse :: f).reverse = [] := by
      rw [List.reverse_cons, own_append, hown]
      rfl
    refine ⟨⟨fun x hx => absurd (hnone ▸ hx) List.not_mem_nil, v, ?_⟩, hnone⟩
    rw [List.reverse_cons]
    exact .node hv

/-- A directive whose opening marker is the first word of `ws` has grown. -/
def Opened (ws : List Word) : Unit → List Word → List Sprout → Prop := fun _ ws' f =>
  Flows false ws' ∧ ∃ xs, f = xs.reverse ∧ ws = wordsIn xs ++ ws' ∧ Action xs ws'

section

variable (hflows : Flows false ws) (hleft : kindAt ws 0 = .leftDelimiter)

include hflows hleft

lemma grows_directive {body : Parser Unit}
    (hbody : ∀ {w ws' f}, ws = w :: ws' → f = [.word w] → Inside [.word w] ws' f → Grows ws' f body (Keeps [.word w])) :
    Grows ws [] (advance >>= fun _ => body >>= fun _ => closeAction d) (Opened ws) := by
  have h : Grows ws [] (advance >>= fun _ => body >>= fun _ => closeAction d) fun _ => Closed := by
    refine .take (K := (· = .leftDelimiter)) hleft (by decide) fun w ws' hws hw => ?_
    have hin : Inside [.word w] ws' [.word w] := ⟨(hws ▸ hflows).start hw, [], rfl, by simp⟩
    exact (hbody hws rfl hin).bind fun _ _ _ h => grows_closeAction hw h
  refine h.conserves.mono fun _ ws' f' ⟨⟨hflows', xs, hf', hxs⟩, taken, hws, htaken⟩ => ⟨hflows', xs, hf', ?_, hxs⟩
  rw [hf', List.reverse_reverse] at htaken
  rw [hws, htaken]
  rfl

/-- A directive that opens with a keyword. -/
lemma grows_keyword {body : Parser Unit} (hkey : kindAt ws 1 ≠ .rightDelimiter)
    (hbody : ∀ {w f}, Inside [.word w] (ws.drop 2) f → Grows (ws.drop 2) f body (Keeps [.word w])) :
    Grows ws [] (openAction >>= fun _ => body >>= fun _ => closeAction d) (Opened ws) := by
  simp only [openAction, bind_assoc]
  have h : Grows ws [] (advance >>= fun _ => (advance >>= fun _ => body) >>= fun _ => closeAction d) (Opened ws) := by
    refine grows_directive hflows hleft fun hws hf h => ?_
    subst hws
    refine (h.advance_tail hkey).bind fun _ ws' f' h => ?_
    obtain ⟨hws, h⟩ := h
    rw [List.drop_succ_cons, List.drop_one] at hbody
    rw [hws] at h ⊢
    exact hbody h
  simpa only [bind_assoc] using h

/-- A directive without anything behind its keyword. -/
lemma grows_bareKeyword (hkey : kindAt ws 1 ≠ .rightDelimiter) :
    Grows ws [] (openAction >>= fun _ => closeAction d) (Opened ws) := by
  have h : Grows ws [] (openAction >>= fun _ => pure () >>= fun _ => closeAction d) (Opened ws) :=
    grows_keyword hflows hleft hkey fun h => .pure h
  simpa only [pure_bind] using h

omit hflows hleft in
lemma bare_bareKeyword (hleft : kindAt ws 0 = .leftDelimiter) (hkey : kindAt ws 1 ≠ .endOfInput) :
    Grows ws [] (openAction >>= fun _ => closeAction d) fun _ _ f' => Bare f'.reverse := by
  simp only [openAction, bind_assoc]
  refine .take (K := (· = .leftDelimiter)) hleft (by decide) fun w ws' hws _ => ?_
  subst hws
  refine .take (K := (· ≠ .endOfInput)) hkey (not_not_intro rfl) fun v _ _ _ => ?_
  have hends : EndsWith v ([Sprout.word w] ++ [Sprout.word v]) := .word
  exact bare_closeAction hends rfl

omit hflows hleft in
/-- What is done with the stretch of a directive. -/
lemma grows_sinceOpened {β : Type} {body : Parser Unit} {k : Span → Parser β} {R : β → List Word → List Sprout → Prop}
    {P : List Sprout → Prop} (hbody : Grows ws [] body fun v ws' f' => Opened ws v ws' f' ∧ P f'.reverse)
    (hk : ∀ xs ws', Flows false ws' → ws = wordsIn xs ++ ws' → Action xs ws' → P xs →
      Grows ws' xs.reverse (k (Word.spanOf (wordsIn xs))) R) :
    Grows ws [] (currentStart >>= fun start => body >>= fun _ => spanSince start >>= k) R := by
  refine .since hbody fun taken ws' f' ⟨⟨hflows, xs, hf', hws, hxs⟩, hP⟩ _ htaken => ?_
  subst hf'
  obtain rfl : wordsIn xs = taken := by simpa [wordsIn] using htaken
  refine ⟨?_, hk xs ws' hflows hws hxs (List.reverse_reverse xs ▸ hP)⟩
  obtain ⟨-, -, -⟩ := hxs
  exact List.cons_ne_nil _ _

end

/-! ## Sequences -/

/-- One sprout of which `P` holds has grown on top of `f`, and the input goes on outside directives. -/
def Adds (P : Sprout → List Word → Prop) (ws : List Word) (f : List Sprout) : Unit → List Word → List Sprout → Prop :=
  fun _ ws' f' => Flows false ws' ∧ ∃ x, f' = x :: f ∧ ws = x.words ++ ws' ∧ P x ws'

lemma grows_node {P : Sprout → List Word → Prop} {k : Kind} {body : Parser Unit}
    (h : Grows ws [] body fun _ ws' g => Flows false ws' ∧ P (.node k g.reverse) ws') :
    Grows ws f (node k body) (Adds P ws f) := by
  have hnode : Grows ws f (node k body) fun _ ws' f' => Flows false ws' ∧ ∃ x, f' = x :: f ∧ P x ws' :=
    .node (h.mono fun _ _ _ ⟨hflows, hP⟩ => ⟨hflows, _, rfl, hP⟩)
  refine hnode.conserves.mono fun _ ws' f' ⟨⟨hflows, x, hf', hP⟩, taken, hws, htaken⟩ => ⟨hflows, x, hf', ?_, hP⟩
  rw [hf', List.reverse_cons, wordsIn_append, List.append_cancel_left_eq] at htaken
  rw [hws, ← htaken]
  simp [wordsIn]

section

variable {block : Bool → Sprout → List Word → Prop} {g : Nested} (hg : g.Forms block)

lemma keywordOf_eq {xs : List Sprout} {ws' : List Word} (h : ws = wordsIn xs ++ ws') : keywordOf xs ws' = kindAt ws 1 :=
  congrArg (kindAt · 1) h.symm

lemma grows_loopControl {inLoop : Bool} {k : Kind} {keyword : String}
    (hk : (k, keyword) ∈ [(Kind.templateBreak, "break"), (.templateContinue, "continue")]) (hflows : Flows false ws)
    (hleft : kindAt ws 0 = .leftDelimiter) (hplain : IsPlain (kindAt ws 1)) (hright : kindAt ws 1 ≠ .rightDelimiter)
    (hend : kindAt ws 1 ≠ .endOfInput) :
    Grows ws f (loopControl d inLoop k keyword) (Adds (Item d block inLoop) ws f) := by
  have hopened : Grows ws [] (openAction >>= fun _ => closeAction d) fun v ws' f' => Opened ws v ws' f' ∧ Bare f'.reverse :=
    (grows_bareKeyword hflows hleft hright).and (bare_bareKeyword hleft hend)
  have hjump : ∀ {xs ws'}, ws = wordsIn xs ++ ws' → Action xs ws' → Bare xs → Item d block inLoop
      (.node k (xs ++ if inLoop then [] else [Sprout.error (.outsideLoop d keyword) (Word.spanOf (wordsIn xs))])) ws' :=
    fun hws hxs hbare => .jump hk hxs (by rwa [keywordOf_eq hws]) hbare
  refine grows_node ?_
  cases inLoop with
  | true =>
    refine .look fun _ => ?_
    have h : Grows ws [] ((openAction >>= fun _ => closeAction d) >>= fun _ => pure ()) fun _ ws' g =>
        Flows false ws' ∧ Item d block true (.node k g.reverse) ws' :=
      hopened.bind fun _ ws' f' ⟨⟨hflows, xs, hf', hws, hxs⟩, hbare⟩ => by
        rw [hf', List.reverse_reverse] at hbare
        exact .pure ⟨hflows, by simpa [hf'] using hjump hws hxs hbare⟩
    simp only [bind_assoc] at h
    exact h
  | false =>
    have h : Grows ws [] (currentStart >>= fun start => (openAction >>= fun _ => closeAction d) >>= fun _ =>
        spanSince start >>= fun r => errorAt r (.outsideLoop d keyword)) fun _ ws' g =>
          Flows false ws' ∧ Item d block false (.node k g.reverse) ws' :=
      grows_sinceOpened hopened fun xs ws' hflows hws hxs hbare =>
        .errorAt ⟨hflows, by simpa using hjump hws hxs hbare⟩
    simp only [bind_assoc] at h
    exact h

/-- What stands in a block behind the directive that opens it has grown. -/
def Filled (d : Delimiters) (block : Bool → Sprout → List Word → Prop) (inLoop : Bool) (b : BlockForm) (opener : Span)
    (ws : List Word) (f : List Sprout) : Unit → List Word → List Sprout → Prop := fun _ ws' f' =>
  Flows false ws' ∧ ∃ l es y, f' = y :: (es.reverse ++ l :: f) ∧ ws = l.words ++ (wordsIn es ++ (y.words ++ ws')) ∧
    IsList d block (b.loops inLoop) l (wordsIn es ++ (y.words ++ ws')) ∧ Row (IsElse d block inLoop) es (y.words ++ ws') ∧
    (b.named = true → es = []) ∧
    (b.named = false → ¬ (kindAt (y.words ++ ws') 0 = .leftDelimiter ∧ kindAt (y.words ++ ws') 1 = .elseKeyword)) ∧
    Ending d b.label opener y ws'

include hg

/-- A directive that stands alone. -/
lemma grows_simpleAction {inLoop : Bool} {k : Kind} (hflows : Flows false ws) (hleft : kindAt ws 0 = .leftDelimiter)
    (hk : kindAt ws 1 = k) (hplain : IsPlain k) :
    Grows ws f (simpleAction g d inLoop k) (Adds (Item d block inLoop) ws f) := by
  have hnode : ∀ {label : Kind} {body : Parser Unit}, label ∈ [Kind.templateAction, .templateCall, .templateReturn] →
      Grows ws [] body (Opened ws) → Grows ws f (node label body) (Adds (Item d block inLoop) ws f) := by
    intro label body hlabel hbody
    refine grows_node (hbody.mono fun _ ws' f' ⟨hflows, xs, hf', hws, hxs⟩ => ⟨hflows, ?_⟩)
    rw [hf', List.reverse_reverse]
    exact .simple hlabel hxs (by rwa [keywordOf_eq hws, hk])
  unfold simpleAction
  split
  · have h : Grows ws [] (openAction >>= fun _ => (templateName >>= fun _ => pipelineIfAny g) >>= fun _ => closeAction d)
        (Opened ws) := grows_keyword hflows hleft (by rw [hk]; decide) fun h =>
      (grows_templateName h).bind fun _ _ _ h => grows_pipelineIfAny hg h
    refine hnode (by decide) ?_
    simpa only [bind_assoc] using h
  · exact grows_loopControl (by decide) hflows hleft (by rwa [hk]) (by rw [hk]; decide) (by rw [hk]; decide)
  · exact grows_loopControl (by decide) hflows hleft (by rwa [hk]) (by rw [hk]; decide) (by rw [hk]; decide)
  · exact hnode (by decide) (grows_keyword hflows hleft (by rw [hk]; decide) fun h => grows_pipelineIfAny hg h)
  · exact hnode (by decide) (grows_bareKeyword hflows hleft (by rw [hk]; decide))
  · exact hnode (by decide) (grows_bareKeyword hflows hleft (by rw [hk]; decide))
  · refine hnode (by decide) (grows_directive hflows hleft fun _ _ h => ?_)
    exact grows_requiredPipeline hg h (by decide)

lemma grows_item {inLoop : Bool} (hflows : Flows false ws) (hne : ws ≠ []) (hend : ¬ AtListEnd ws) :
    Grows ws f (item g d inLoop) (Adds (Item d block inLoop) ws f) := by
  refine .ite (.isAt _) (fun hleft => .nth ?_) fun hleft => ?_
  · split
    · next hopens =>
      exact (hg.block hflows hleft hopens).mono fun _ _ _ ⟨hflows, x, hf, hws, hx⟩ => ⟨hflows, x, hf, hws, .block hx⟩
    · next hopens =>
      refine grows_simpleAction hg hflows hleft rfl ⟨by simpa using hopens, fun h => ?_, fun h => ?_⟩
      · exact hend (.inr ⟨hleft, .inl h⟩)
      · exact hend (.inr ⟨hleft, .inr h⟩)
  · obtain ⟨w, ws, rfl⟩ := List.exists_cons_of_ne_nil hne
    obtain ⟨hright, hflows⟩ := hflows.host hleft
    exact .advance ⟨hflows, _, rfl, rfl, .text hleft hright⟩

omit hg in
lemma asks_atListEnd : Asks ws isAtListEnd
    (kindAt ws 0 = .leftDelimiter ∧ (kindAt ws 1 = .elseKeyword ∨ kindAt ws 1 = .endKeyword))
    (¬ (kindAt ws 0 = .leftDelimiter ∧ (kindAt ws 1 = .elseKeyword ∨ kindAt ws 1 = .endKeyword))) 2 :=
  ((Asks.isAt _).and (.nth 1 (.pure _))).mono (by simp) (by simp; tauto)

lemma grows_list {inLoop : Bool} (hflows : Flows false ws) :
    Grows ws f (list g d inLoop) (Adds (IsList d block inLoop) ws f) := by
  refine grows_node (.repeatWhile
    (I := fun ws' f' => Flows false ws' ∧ ∃ xs, f' = xs.reverse ∧ Row (Item d block inLoop) xs ws')
    ⟨hflows, [], rfl, .nil⟩ ?_)
  rintro ws f ⟨hflows, xs, rfl, hxs⟩
  refine .ite ((Asks.isAt _).or asks_atListEnd) (fun hend => ?_) fun ⟨hend, hlist⟩ => ?_
  · refine .pure ⟨Bool.noConfusion, fun _ => ⟨hflows, ?_⟩⟩
    rw [List.reverse_reverse]
    exact .intro hxs (hend.imp_left hflows.eq_nil)
  · have hne : ws ≠ [] := ne_nil_of_kindAt rfl hend
    refine (grows_item hg hflows hne (not_or.2 ⟨hne, hlist⟩)).bind fun _ ws' f' ⟨hflows, x, hf, hws, hx⟩ => ?_
    exact .pure ⟨fun _ => ⟨hflows, xs ++ [x], by simp [hf], (hws ▸ hxs).concat hx⟩, Bool.noConfusion⟩

/-! ## Blocks -/

omit hg in
lemma grows_blockEnd {keyword : String} {opener : Span} (hflows : Flows false ws) :
    Grows ws f (blockEnd d keyword opener) (Adds (Ending d keyword opener) ws f) := by
  refine .ite ((Asks.isAt _).and (.nthIs 1 _)) (fun ⟨hleft, hend⟩ => grows_node ?_) fun hno => .errorAt ?_
  · have hright : kindAt ws 1 ≠ .rightDelimiter := by rw [hend]; decide
    refine (grows_bareKeyword hflows hleft hright).mono fun _ ws' g ⟨hflows, xs, hg, hws, hxs⟩ => ⟨hflows, ?_⟩
    rw [hg, List.reverse_reverse]
    exact .closed hxs (by rwa [keywordOf_eq hws])
  · exact ⟨hflows, _, rfl, rfl, .missing (by tauto)⟩

lemma grows_chainedCondition (h : Inside f₀ ws f) (hk : kindAt ws 0 ≠ .rightDelimiter) :
    Grows ws f (chainedCondition g) (Keeps f₀) := by
  refine .peek (h.take hk fun _ _ h => grows_requiredPipeline hg h ?_)
  unfold chainedKeyword
  split <;> decide

omit hg in
lemma grows_elseFault {start : Nat} {isLoop plainBefore chained : Bool} {keyword : String} :
    Grows ws f (elseFault d start isLoop keyword plainBefore chained) fun _ ws' f' =>
      ws' = ws ∧ ∃ es, f' = es.reverse ++ f ∧ IsElseFault d es := by
  unfold elseFault
  split
  · exact .errorSince fun r => ⟨rfl, [_], rfl, .inr ⟨_, r, rfl, .inl rfl⟩⟩
  split
  · exact .errorSince fun r => ⟨rfl, [_], rfl, .inr ⟨_, r, rfl, .inr ⟨_, rfl⟩⟩⟩
  · exact .pure ⟨rfl, [], rfl, .inl rfl⟩

lemma grows_elseBranch {inLoop isLoop plainBefore chained : Bool} {keyword : String} (hflows : Flows false ws)
    (hleft : kindAt ws 0 = .leftDelimiter) (helse : kindAt ws 1 = .elseKeyword)
    (hchained : chained = true → kindAt ws 2 ≠ .rightDelimiter) :
    Grows ws f (elseBranch g d inLoop isLoop keyword plainBefore chained) (Adds (IsElse d block inLoop) ws f) := by
  have hopened : Grows ws [] (openAction >>= fun _ => given (pure chained) (chainedCondition g) >>= fun _ =>
      closeAction d) (Opened ws) := by
    refine grows_keyword hflows hleft (by rw [helse]; decide) fun {w f} h => ?_
    refine .given (.pure chained) (fun hc => grows_chainedCondition hg h ?_) fun _ => h
    simpa [kindAt] using hchained hc
  refine grows_node (.look fun start => ?_)
  have h : Grows ws [] ((openAction >>= fun _ => given (pure chained) (chainedCondition g) >>= fun _ => closeAction d) >>=
      fun _ => elseFault d start isLoop keyword plainBefore chained >>= fun _ => list g d inLoop) fun _ ws' f' =>
        Flows false ws' ∧ IsElse d block inLoop (.node .templateElse f'.reverse) ws' := by
    refine hopened.bind ?_
    rintro _ ws' _ ⟨hflows, xs, rfl, hws, hxs⟩
    refine grows_elseFault.bind ?_
    rintro _ _ _ ⟨rfl, es, rfl, hes⟩
    refine (grows_list hg hflows).mono ?_
    rintro _ ws'' _ ⟨hflows', l, rfl, rfl, hl⟩
    have helse' : IsElse d block inLoop (.node .templateElse (xs ++ (es ++ [l]))) ws'' :=
      .intro hxs (by rw [keywordOf_eq hws, helse]) hes hl
    exact ⟨hflows', by simpa using helse'⟩
  simp only [bind_assoc] at h
  exact h

lemma grows_elseRound {inLoop isLoop plainBefore : Bool} {keyword : String}
    (hflows : Flows false ws) :
    Grows ws f (elseRound g d inLoop isLoop keyword plainBefore) (Grows.Goes
      (fun _ => Adds (IsElse d block inLoop) ws f ())
      (fun _ ws' f' => ws' = ws ∧ f' = f ∧ ¬ (kindAt ws 0 = .leftDelimiter ∧ kindAt ws 1 = .elseKeyword))) := by
  refine .ite ((Asks.isAt _).and (.nthIs 1 _)) (fun ⟨hleft, helse⟩ => .nth ?_) fun hno => .pure ⟨rfl, rfl, by tauto⟩
  refine (grows_elseBranch hg hflows hleft helse ?_).bind fun _ _ _ h => .pure h
  rintro hchained hright
  rw [hright] at hchained
  exact absurd hchained (by decide)

/-- The `else` branches of a block: none follows behind them. -/
lemma grows_elseBranches {inLoop isLoop : Bool} {keyword : String} (hflows : Flows false ws) :
    Grows ws f (elseBranches g d inLoop isLoop keyword) fun _ ws' f' => Flows false ws' ∧
      ∃ es, f' = es.reverse ++ f ∧ ws = wordsIn es ++ ws' ∧ Row (IsElse d block inLoop) es ws' ∧
        ¬ (kindAt ws' 0 = .leftDelimiter ∧ kindAt ws' 1 = .elseKeyword) := by
  have hloop : Grows ws f (loop false (elseRound g d inLoop isLoop keyword)) fun _ ws' f' => Flows false ws' ∧
      ∃ es, f' = es.reverse ++ f ∧ ws = wordsIn es ++ ws' ∧ Row (IsElse d block inLoop) es ws' ∧
        ¬ (kindAt ws' 0 = .leftDelimiter ∧ kindAt ws' 1 = .elseKeyword) := by
    refine .loop (I := fun _ ws' f' => Flows false ws' ∧
      ∃ es, f' = es.reverse ++ f ∧ ws = wordsIn es ++ ws' ∧ Row (IsElse d block inLoop) es ws')
      ⟨hflows, [], rfl, rfl, .nil⟩ ?_
    rintro _ ws' _ ⟨hflows', es, rfl, rfl, hes⟩
    refine (grows_elseRound hg hflows').mono fun r ws'' f'' hr => ?_
    cases r with
    | yield _ =>
      obtain ⟨hflows'', x, rfl, rfl, hx⟩ := hr
      exact ⟨hflows'', es ++ [x], by simp, by simp [wordsIn], hes.concat hx⟩
    | done _ =>
      obtain ⟨rfl, rfl, hno⟩ := hr
      exact ⟨hflows', es, rfl, rfl, hes, hno⟩
  exact hloop.discard fun _ _ _ h => h

omit hg in
/-- A block grows from the directive that opens it and from what stands behind that. -/
lemma grows_block {inLoop : Bool} {b : BlockForm} {body : Parser Unit} {rest : Span → Parser Unit} (hb : b ∈ blockForms)
    (hkey : kindAt ws 1 = b.keyword) (hbody : Grows ws [] body (Opened ws))
    (hrest : ∀ {ws f opener}, Flows false ws → Grows ws f (rest opener) (Filled d block inLoop b opener ws f)) :
    Grows ws f (node b.kind (currentStart >>= fun start => body >>= fun _ => spanSince start >>= rest))
      (Adds (BlockNode d block inLoop) ws f) := by
  refine grows_node (grows_sinceOpened (P := fun _ => True) (hbody.mono fun _ _ _ h => ⟨h, trivial⟩)
    fun xs ws' hflows hws hxs _ => (hrest hflows).mono ?_)
  rintro _ ws'' _ ⟨hflows', l, es, y, rfl, rfl, hl, hes, hnamed, hcontrol, hy⟩
  have hblock : BlockNode d block inLoop (.node b.kind (xs ++ (l :: (es ++ [y])))) ws'' :=
    .intro hb hxs (by rw [keywordOf_eq hws, hkey]) hl hes hnamed hcontrol hy
  exact ⟨hflows', by simpa using hblock⟩

lemma grows_control {inLoop : Bool} {b : BlockForm} (hb : b ∈ blockForms) (hnamed : b.named = false)
    (hflows : Flows false ws) (hleft : kindAt ws 0 = .leftDelimiter) (hkey : kindAt ws 1 = b.keyword)
    (hsubject : (Problem.missingValue b.label).isInner = true) (hright : b.keyword ≠ .rightDelimiter) :
    Grows ws f (control g d inLoop b.kind b.label) (Adds (BlockNode d block inLoop) ws f) := by
  have hopened : Grows ws [] (openAction >>= fun _ => requiredPipeline g b.label >>= fun _ => closeAction d) (Opened ws) :=
    grows_keyword hflows hleft (by rwa [hkey]) fun h => grows_requiredPipeline hg h hsubject
  have h : Grows ws f (node b.kind (currentStart >>= fun start => (openAction >>= fun _ => requiredPipeline g b.label >>=
      fun _ => closeAction d) >>= fun _ => spanSince start >>= fun opener => list g d (inLoop || b.kind == .templateRange) >>=
        fun _ => elseBranches g d inLoop (b.kind == .templateRange) b.label >>= fun _ => blockEnd d b.label opener))
      (Adds (BlockNode d block inLoop) ws f) := by
    refine grows_block hb hkey hopened fun hflows => (grows_list hg hflows).bind ?_
    rintro _ _ _ ⟨hlist, l, rfl, rfl, hl⟩
    refine (grows_elseBranches hg hlist).bind ?_
    rintro _ _ _ ⟨helse, es, rfl, rfl, hes, hno⟩
    refine (grows_blockEnd helse).mono ?_
    rintro _ _ _ ⟨hend, y, rfl, rfl, hy⟩
    exact ⟨hend, l, es, y, rfl, rfl, by simpa [BlockForm.loops, hnamed] using hl, hes, by simp [hnamed], fun _ => hno, hy⟩
  simp only [bind_assoc] at h
  exact h

lemma grows_namedBlock {inLoop : Bool} {b : BlockForm} (hb : b ∈ blockForms) (hnamed : b.named = true)
    (hflows : Flows false ws) (hleft : kindAt ws 0 = .leftDelimiter) (hkey : kindAt ws 1 = b.keyword)
    (hright : b.keyword ≠ .rightDelimiter) :
    Grows ws f (namedBlock g d b.kind b.label) (Adds (BlockNode d block inLoop) ws f) := by
  have hopened : Grows ws [] (openAction >>= fun _ => (templateName >>= fun _ =>
      given (pure (b.kind = .templateBlock)) (pipelineIfAny g)) >>= fun _ => closeAction d) (Opened ws) :=
    grows_keyword hflows hleft (by rwa [hkey]) fun h => (grows_templateName h).bind fun _ _ _ h =>
      .given (.pure _) (fun _ => grows_pipelineIfAny hg h) fun _ => h
  have h : Grows ws f (node b.kind (currentStart >>= fun start => (openAction >>= fun _ => (templateName >>= fun _ =>
      given (pure (b.kind = .templateBlock)) (pipelineIfAny g)) >>= fun _ => closeAction d) >>= fun _ =>
        spanSince start >>= fun opener => list g d false >>= fun _ => blockEnd d b.label opener))
      (Adds (BlockNode d block inLoop) ws f) := by
    refine grows_block hb hkey hopened fun hflows => (grows_list hg hflows).bind ?_
    rintro _ _ _ ⟨hlist, l, rfl, rfl, hl⟩
    refine (grows_blockEnd hlist).mono ?_
    rintro _ _ _ ⟨hend, y, rfl, rfl, hy⟩
    exact ⟨hend, l, [], y, rfl, rfl, by simpa [BlockForm.loops, hnamed, wordsIn] using hl, .nil, fun _ => rfl, by simp [hnamed],
      hy⟩
  simp only [bind_assoc] at h
  exact h

lemma grows_blockInner {inLoop : Bool} (hflows : Flows false ws) (hleft : kindAt ws 0 = .leftDelimiter)
    (hopens : opensBlock (kindAt ws 1) = true) :
    Grows ws f (blockInner g d inLoop) (Adds (BlockNode d block inLoop) ws f) := by
  refine .nth ?_
  unfold keywordBlock
  split
  · next hk => exact grows_control hg (b := ⟨.ifKeyword, _, _, _⟩) (by decide) rfl hflows hleft hk (by decide) (by decide)
  · next hk => exact grows_control hg (b := ⟨.rangeKeyword, _, _, _⟩) (by decide) rfl hflows hleft hk (by decide) (by decide)
  · next hk => exact grows_control hg (b := ⟨.withKeyword, _, _, _⟩) (by decide) rfl hflows hleft hk (by decide) (by decide)
  · next hk => exact grows_namedBlock hg (b := ⟨.defineKeyword, _, _, _⟩) (by decide) rfl hflows hleft hk (by decide)
  · next hif hrange hwith hdefine =>
    refine grows_namedBlock hg (b := ⟨.blockKeyword, _, _, _⟩) (by decide) rfl hflows hleft ?_ (by decide)
    unfold opensBlock at hopens
    split at hopens
    · next hk => exact absurd hk hif
    · next hk => exact absurd hk hrange
    · next hk => exact absurd hk hwith
    · next hk => exact absurd hk hdefine
    · next hk => exact hk
    · exact Bool.noConfusion hopens

end

/-! ## Blocks that are nested too deep -/

section

variable {w : Word} {depth : Nat}

lemma skipped_of_stop (hw : w.kind = .leftDelimiter)
    (hstop : (kindAt ws 0 = .elseKeyword ∨ kindAt ws 0 = .endKeyword) ∧ depth = 0) : skipped depth (w :: ws) = w :: ws := by
  rw [skipped, if_pos hw, if_pos hstop]

lemma skipped_of_left (hw : w.kind = .leftDelimiter)
    (hgo : ¬ ((kindAt ws 0 = .elseKeyword ∨ kindAt ws 0 = .endKeyword) ∧ depth = 0)) :
    skipped depth (w :: ws) = skipped (depthBehind depth (kindAt ws 0)) ws := by
  rw [skipped, if_pos hw, if_neg hgo]

lemma skipped_of_other (hw : w.kind ≠ .leftDelimiter) : skipped depth (w :: ws) = skipped depth ws := by
  rw [skipped, if_neg hw]

end

/-- One round of skipping. -/
lemma grows_skipDirectives {m : Bool} {depth : Nat} (hflows : Flows m ws) : Grows ws f (skipDirectives depth) (Grows.Goes
    (fun depth' ws' f' => ∃ w, ws = w :: ws' ∧ f' = .word w :: f ∧ (∃ m', Flows m' ws') ∧
      skipped depth' ws' = skipped depth ws)
    (fun _ ws' f' => ws' = ws ∧ f' = f ∧ Flows false ws ∧ skipped depth ws = ws)) := by
  refine .ite (.isAt _) (fun hend => ?_) fun hend => ?_
  · obtain rfl := hflows.eq_nil hend
    exact .pure ⟨rfl, rfl, trivial, rfl⟩
  obtain ⟨w, ws, rfl⟩ := List.exists_cons_of_ne_nil (ne_nil_of_kindAt rfl hend)
  have hmore : ∃ m', Flows m' ws := hflows.imp fun _ h => h.2
  refine .ite (.isAt _) (fun hleft => .nth ?_) fun hleft => ?_
  · replace hleft : w.kind = .leftDelimiter := hleft
    have hmode : m = false := by
      obtain ⟨m', hturn, -⟩ := hflows
      rw [hleft] at hturn
      cases hturn with
      | opens => rfl
      | host hk => rfl
      | inner hk => exact absurd (by decide) hk
    rw [show kindAt (w :: ws) 1 = kindAt ws 0 from rfl]
    split
    · next hstop => exact .pure ⟨rfl, rfl, hmode ▸ hflows, skipped_of_stop hleft (by simpa using hstop)⟩
    · next hstop =>
      have hgo : ¬ ((kindAt ws 0 = .elseKeyword ∨ kindAt ws 0 = .endKeyword) ∧ depth = 0) := by simpa using hstop
      exact .bind (Q := fun _ ws' f' => ws' = ws ∧ f' = .word w :: f) (.advance ⟨rfl, rfl⟩) fun _ _ _ ⟨hws, hf⟩ =>
        .pure ⟨w, by rw [hws], hf, by rwa [hws], by rw [hws, skipped_of_left hleft hgo]; rfl⟩
  · exact .bind (Q := fun _ ws' f' => ws' = ws ∧ f' = .word w :: f) (.advance ⟨rfl, rfl⟩) fun _ _ _ ⟨hws, hf⟩ =>
      .pure ⟨w, by rw [hws], hf, by rwa [hws], by rw [hws, skipped_of_other hleft]⟩

lemma grows_skipBlocks (hflows : Flows false ws) : Grows ws f skipBlocks (Adds TooDeep ws f) := by
  refine grows_node (.bind (Q := fun _ ws' g => ws' = ws ∧ ∃ r, g = [.error .nestingTooDeep r])
    (.error fun r => ⟨rfl, r, rfl⟩) ?_)
  rintro _ ws _ ⟨rfl, r, rfl⟩
  have hloop : Grows ws [.error .nestingTooDeep r] (loop 0 skipDirectives) fun _ ws' g => Flows false ws' ∧
      TooDeep (.node .error g.reverse) ws' := by
    refine .loop (I := fun depth ws' g => (∃ m, Flows m ws') ∧ ∃ vs, ws = vs ++ ws' ∧
      g = (vs.map Sprout.word).reverse ++ [Sprout.error .nestingTooDeep r] ∧ skipped depth ws' = skipped 0 ws)
      ⟨⟨false, hflows⟩, [], rfl, rfl, rfl⟩ ?_
    rintro depth ws' _ ⟨⟨m, hm⟩, vs, rfl, rfl, hskipped⟩
    refine (grows_skipDirectives hm).mono fun v ws'' g hv => ?_
    cases v with
    | yield depth' =>
      obtain ⟨w, rfl, rfl, hm', heq⟩ := hv
      exact ⟨hm', vs ++ [w], by simp, by simp, heq.trans hskipped⟩
    | done _ =>
      obtain ⟨rfl, rfl, hflows', heq⟩ := hv
      have htoo : TooDeep (.node .error (.error .nestingTooDeep r :: vs.map .word)) ws'' :=
        .intro (hskipped.symm.trans heq)
      exact ⟨hflows', by simpa using htoo⟩
  exact hloop.discard fun _ _ _ h => h

/-! ## Documents -/

/-- On every level the productions grow what they should. -/
lemma forms_nested (d : Delimiters) (levels : Nat) : (nested d levels).Forms (IsBlock d levels) := by
  induction levels with
  | zero => exact ⟨fun hflows _ _ => grows_skipBlocks hflows, fun h => grows_skipPipeline h⟩
  | succ levels ih =>
    exact ⟨fun hflows hleft hopens => grows_blockInner ih hflows hleft hopens, fun h => grows_pipeline ih h⟩

section

variable {block : Bool → Sprout → List Word → Prop} {g : Nested} (hg : g.Forms block)

include hg

lemma grows_strayChain {k : Kind} (h : Inside f₀ ws f) : Grows ws f (strayChain g k) (Keeps f₀) := by
  unfold strayChain
  split
  · refine .peek ?_
    split
    iterate 2
      · next hk => exact h.take (by rw [hk]; decide) fun _ _ h => grows_pipelineIfAny hg h
    · exact .pure h
  · exact .pure h

lemma grows_stray {k keyword : Kind} {label : String} (hk : (k, keyword, label) ∈
    [(Kind.templateEnd, Kind.endKeyword, "end"), (.templateElse, .elseKeyword, "else")]) (hflows : Flows false ws)
    (hleft : kindAt ws 0 = .leftDelimiter) (hkey : kindAt ws 1 = keyword) (hright : keyword ≠ .rightDelimiter) :
    Grows ws f (stray g d k label) (Adds (Stray d) ws f) := by
  have hopened : Grows ws [] (openAction >>= fun _ => strayChain g k >>= fun _ => closeAction d) (Opened ws) :=
    grows_keyword hflows hleft (by rwa [hkey]) fun h => grows_strayChain hg h
  refine grows_node ?_
  have h : Grows ws [] (currentStart >>= fun start => (openAction >>= fun _ => strayChain g k >>= fun _ => closeAction d)
      >>= fun _ => spanSince start >>= fun r => errorAt r (.stray d label)) fun _ ws' f' =>
        Flows false ws' ∧ Stray d (.node k f'.reverse) ws' := by
    refine grows_sinceOpened (P := fun _ => True) (hopened.mono fun _ _ _ h => ⟨h, trivial⟩)
      fun xs ws' hflows hws hxs _ => .errorAt ⟨hflows, ?_⟩
    have hstray : Stray d (.node k (xs ++ [Sprout.error (.stray d label) (Word.spanOf (wordsIn xs))])) ws' :=
      .intro hk hxs (by rw [keywordOf_eq hws, hkey])
    simpa using hstray
  simp only [bind_assoc] at h
  exact h

end

lemma grows_topLevel (hflows : Flows false ws) (hne : ws ≠ []) :
    Grows ws f (topLevel (nested d nestingLimit) d) (Adds (TopItem d) ws f) := by
  have hg := forms_nested d nestingLimit
  have hstray : ∀ {k keyword label}, (k, keyword, label) ∈
      [(Kind.templateEnd, Kind.endKeyword, "end"), (.templateElse, .elseKeyword, "else")] → kindAt ws 0 = .leftDelimiter →
      kindAt ws 1 = keyword → keyword ≠ .rightDelimiter →
      Grows ws f (stray (nested d nestingLimit) d k label) (Adds (TopItem d) ws f) := fun hk hleft hkey hright =>
    (grows_stray hg hk hflows hleft hkey hright).mono
      fun _ _ _ ⟨hflows, x, hf, hws, hx⟩ => ⟨hflows, x, hf, hws, .stray hx⟩
  refine .ite asks_atListEnd (fun ⟨hleft, hkey⟩ => .ite (.nthIs 1 _) (fun hend => ?_) fun hend => ?_) fun hlist => ?_
  · exact hstray (by decide) hleft hend (by decide)
  · exact hstray (by decide) hleft (hkey.resolve_right hend) (by decide)
  · exact (grows_item hg hflows hne (not_or.2 ⟨hne, hlist⟩)).mono
      fun _ _ _ ⟨hflows, x, hf, hws, hx⟩ => ⟨hflows, x, hf, hws, .item hx⟩

/-- The parts of a document follow one another up to its end. -/
lemma grows_document (hflows : Flows false ws) :
    Grows ws [] (document d) fun _ ws' f' => ws' = [] ∧ Row (TopItem d) f'.reverse [] := by
  refine .repeatWhile (I := fun ws' f' => Flows false ws' ∧ ∃ xs, f' = xs.reverse ∧ Row (TopItem d) xs ws')
    ⟨hflows, [], rfl, .nil⟩ ?_
  rintro ws _ ⟨hflows, xs, rfl, hxs⟩
  refine .ite (.isAt _) (fun hend => ?_) fun hend => ?_
  · obtain rfl := hflows.eq_nil hend
    exact .pure ⟨Bool.noConfusion, fun _ => ⟨rfl, by simpa using hxs⟩⟩
  · refine (grows_topLevel hflows (ne_nil_of_kindAt rfl hend)).bind fun _ ws' f' ⟨hflows, x, hf, hws, hx⟩ => ?_
    exact .pure ⟨fun _ => ⟨hflows, xs ++ [x], by simp [hf], (hws ▸ hxs).concat hx⟩, Bool.noConfusion⟩

/-- What grows in the tree of a text. -/
def grownOf (d : Delimiters) (host : HostLanguage) (offset : Nat) (text : Text) : List Sprout :=
  ((document d).run (.start isTrivia text offset (tokens d host offset text))).2.grown.reverse

/-- A text is read to its end, and its tree grows from the parts of a document. -/
lemma row_grownOf (d : Delimiters) (host : HostLanguage) (offset : Nat) (text : Text) :
    ((document d).run (.start isTrivia text offset (tokens d host offset text))).2.rest = [] ∧
      Row (TopItem d) (grownOf d host offset text) [] := by
  have hlimit : 3 + 40 * nestingLimit + 35 ≤ lookLimit := by decide
  have hsound : ((document d).run (.start isTrivia text offset (tokens d host offset text))).2.Sound :=
    sound_of_fits (b := topFrame ⟨offset, text.size⟩) (covers_tokens d host offset text) rfl rfl fits_document (by decide)
      hlimit
  have hflows : Flows false (Words.ofTokens isTrivia (tokens d host offset text)).words :=
    flows_words (alternates_scan d host {} offset text) true []
  exact grows_document hflows _ rfl rfl hsound.calm

end GoFront.Template
