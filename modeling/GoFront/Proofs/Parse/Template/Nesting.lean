import GoFront.Proofs.Parse.Template.Growth

/-!
# Counting blocks and parsing them

The regions of a template are cut by counting: an opener enters a block, an `end` leaves one, and a directive at the top
level is over at the closing marker behind which no block is open (`behind`). The grammar descends instead, and takes an
`else` for the end of a definition, for which counting does not. The two agree on every sequence of words unless such a
misplaced `else` comes (`misplacesElse`); where blocks nest too deep for the grammar, it skips them by counting, too.

`Leads` says what some sprouts do to the blocks that are open: behind them, other blocks are; or the input is over, and
the error that an `end` is missing has grown exactly if a block is open that was opened there; or an `else` was
misplaced, and then the error has grown as well.
-/

namespace GoFront

namespace Template

open GoFront.Parser Sprout

variable {d : Delimiters} {bs : List Kind} {m : Bool}

/-! ## Counting -/

/-- The open blocks behind an opening marker, innermost first, given the kind of the word that follows it. -/
def enter (bs : List Kind) (k : Kind) : List Kind :=
  if opensBlock k then k :: bs else if k = .endKeyword then bs.tail else bs

/-- What is left behind a directive, if the blocks `bs` are open and `m` tells whether an action is; if it runs into the
end, whether an action is open there, and which blocks. -/
def behind : Bool → List Kind → List Kind → Except (Bool × List Kind) (List Kind)
  | m, bs, [] => .error (m, bs)
  | m, bs, k :: ks =>
    if k = .leftDelimiter then behind true (enter bs (ahead ks 0)) ks
    else if k = .rightDelimiter then if bs = [] then .ok ks else behind false bs ks
    else behind m bs ks

/-- What is left behind a directive when an action has just been closed. -/
def resume (bs ks : List Kind) : Except (Bool × List Kind) (List Kind) :=
  if bs = [] then .ok ks else behind false bs ks

/-- Whether an `else` follows somewhere directly inside a definition that the grammar descends into. -/
def misplacesElse : List Kind → List Kind → Bool
  | _, [] => false
  | bs, k :: ks =>
    if k = .leftDelimiter then
      (ahead ks 0 == .elseKeyword && bs.head?.any (fun b => b == .defineKeyword || b == .blockKeyword) &&
        decide (bs.length ≤ nestingLimit)) || misplacesElse (enter bs (ahead ks 0)) ks
    else misplacesElse bs ks

lemma resume_of_ne_nil (h : bs ≠ []) (ks : List Kind) : resume bs ks = behind false bs ks := if_neg h

lemma behind_left (ks : List Kind) :
    behind m bs (.leftDelimiter :: ks) = behind true (enter bs (ahead ks 0)) ks := rfl

lemma behind_right (ks : List Kind) : behind m bs (.rightDelimiter :: ks) = resume bs ks := rfl

lemma behind_other {k : Kind} (hleft : k ≠ .leftDelimiter) (hright : k ≠ .rightDelimiter) (ks : List Kind) :
    behind m bs (k :: ks) = behind m bs ks :=
  (if_neg hleft).trans (if_neg hright)

lemma misplacesElse_left {ks : List Kind} (h : misplacesElse (enter bs (ahead ks 0)) ks = true) :
    misplacesElse bs (.leftDelimiter :: ks) = true :=
  Bool.or_eq_true_iff.2 (.inr h)

lemma misplacesElse_other {k : Kind} (hleft : k ≠ .leftDelimiter) (ks : List Kind) :
    misplacesElse bs (k :: ks) = misplacesElse bs ks :=
  if_neg hleft

/-- Inside a directive nothing is counted. -/
lemma behind_inner {js : List Kind} (h : ∀ j ∈ js, j ∉ foreignKinds) (ks : List Kind) :
    behind m bs (js ++ ks) = behind m bs ks := by
  induction js with
  | nil => rfl
  | cons j js ih =>
    obtain ⟨hj, hjs⟩ := List.forall_mem_cons.1 h
    have hleft : j ≠ .leftDelimiter := fun heq => hj (heq ▸ by decide)
    have hright : j ≠ .rightDelimiter := fun heq => hj (heq ▸ by decide)
    rw [List.cons_append, behind_other hleft hright, ih hjs]

lemma misplacesElse_inner {js : List Kind} (h : ∀ j ∈ js, j ∉ foreignKinds) (ks : List Kind) :
    misplacesElse bs (js ++ ks) = misplacesElse bs ks := by
  induction js with
  | nil => rfl
  | cons j js ih =>
    obtain ⟨hj, hjs⟩ := List.forall_mem_cons.1 h
    have hleft : j ≠ .leftDelimiter := fun heq => hj (heq ▸ by decide)
    rw [List.cons_append, misplacesElse_other hleft, ih hjs]

/-! ## What sprouts do to the open blocks -/

/-- The kinds of words. -/
abbrev kindsOf (ws : List Word) : List Kind := ws.map Word.kind

lemma kindAt_eq_ahead (ws : List Word) (n : Nat) : kindAt ws n = ahead (kindsOf ws) n := by
  simp [kindAt, ahead, kindsOf]

/-- The error that an `end` is missing is among those in some sprouts. -/
def MissesEnd (xs : List Sprout) : Prop := ∃ e ∈ errorsIn xs, e.1.isMissingEnd = true

lemma missesEnd_append {xs ys : List Sprout} : MissesEnd (xs ++ ys) ↔ MissesEnd xs ∨ MissesEnd ys := by
  simp only [MissesEnd, errorsIn_append, List.mem_append, or_and_right, exists_or]

/-- What sprouts in front of the words `ws` do when the blocks `bs` are open: with `bs'` they leave others open. -/
inductive Leads (bs : List Kind) (xs : List Sprout) (ws : List Word) (bs' : List Kind) : Prop
  /-- Other blocks are open. -/
  | settled (h : behind false bs (kindsOf (wordsIn xs ++ ws)) = resume bs' (kindsOf ws))
    (helse : misplacesElse bs' (kindsOf ws) = true → misplacesElse bs (kindsOf (wordsIn xs ++ ws)) = true)
    (hnone : ¬ MissesEnd xs)
  /-- The input is over. -/
  | ranOut {inside : Bool} {opened : List Kind} (hws : ws = [])
    (h : behind false bs (kindsOf (wordsIn xs ++ ws)) = .error (inside, opened)) (hle : bs'.length ≤ opened.length)
    (hnone : opened.length ≤ bs'.length → ¬ MissesEnd xs)
    (hmissing : bs'.length < nestingLimit → bs'.length < opened.length → MissesEnd xs)
  /-- An `else` was misplaced. -/
  | misplaced (helse : misplacesElse bs (kindsOf (wordsIn xs ++ ws)) = true) (hmissing : MissesEnd xs)

namespace Leads

variable {bs' bs'' : List Kind} {xs ys : List Sprout} {ws : List Word}

/-- Only the words and the errors matter. -/
lemma congr (h : Leads bs xs ws bs') (hwords : wordsIn ys = wordsIn xs) (hmissing : MissesEnd ys ↔ MissesEnd xs) :
    Leads bs ys ws bs' := by
  cases h with
  | settled h helse hnone => exact .settled (hwords ▸ h) (hwords ▸ helse) (mt hmissing.1 hnone)
  | ranOut hws h hle hnone hm =>
    exact .ranOut hws (hwords ▸ h) hle (fun hlt => mt hmissing.1 (hnone hlt)) fun hl hlt => hmissing.2 (hm hl hlt)
  | misplaced helse hm => exact .misplaced (hwords ▸ helse) (hmissing.2 hm)

lemma node {k : Kind} (h : Leads bs xs ws bs') : Leads bs [.node k xs] ws bs' :=
  h.congr (by simp [wordsIn, words]) (by simp [MissesEnd, errorsIn, errors])

/-- Errors of other kinds do not matter. -/
lemma append_error {es : List Sprout} (h : Leads bs xs ws bs')
    (hes : ∀ e ∈ es, ∃ p r, e = .error p r ∧ p.isMissingEnd = false) : Leads bs (xs ++ es) ws bs' := by
  have hnothing : wordsIn es = [] ∧ ¬ MissesEnd es := by
    clear h
    induction es with
    | nil => simp [wordsIn, MissesEnd, errorsIn]
    | cons e es ih =>
      obtain ⟨⟨p, r, rfl, hp⟩, hrest⟩ := List.forall_mem_cons.1 hes
      obtain ⟨hwords, hnone⟩ := ih hrest
      refine ⟨by simpa [wordsIn, words] using hwords, ?_⟩
      rintro ⟨x, hx, hmissing⟩
      rcases List.mem_cons.1 hx with rfl | hx
      · exact Bool.noConfusion (hp.symm.trans hmissing)
      · exact hnone ⟨x, hx, hmissing⟩
  refine h.congr (by simp [hnothing.1]) ?_
  rw [missesEnd_append]
  exact or_iff_left hnothing.2

lemma nil (hbs : bs ≠ []) : Leads bs [] ws bs :=
  .settled (resume_of_ne_nil hbs _).symm (fun h => h) (by simp [MissesEnd, errorsIn])

/-- What sprouts do that are put together. -/
lemma append (h : Leads bs xs (wordsIn ys ++ ws) bs') (k : Leads bs' ys ws bs'') (hbs' : bs' ≠ [])
    (hle : bs''.length ≤ bs'.length) : Leads bs (xs ++ ys) ws bs'' := by
  have hwords : wordsIn (xs ++ ys) ++ ws = wordsIn xs ++ (wordsIn ys ++ ws) := by
    rw [wordsIn_append, List.append_assoc]
  cases h with
  | settled h helse hnone =>
    rw [resume_of_ne_nil hbs'] at h
    have hiff : MissesEnd (xs ++ ys) ↔ MissesEnd ys := by
      rw [missesEnd_append]
      exact or_iff_right hnone
    cases k with
    | settled h' helse' hnone' =>
      exact .settled (by rw [hwords, h, h']) (fun hm => by rw [hwords]; exact helse (helse' hm)) (mt hiff.1 hnone')
    | ranOut hws h' hle' hnone' hmissing' =>
      exact .ranOut hws (by rw [hwords, h, h']) hle' (fun hlt => mt hiff.1 (hnone' hlt)) fun hl hlt =>
        hiff.2 (hmissing' hl hlt)
    | misplaced helse' hmissing' => exact .misplaced (by rw [hwords]; exact helse helse') (hiff.2 hmissing')
  | @ranOut inside opened hnil h hopened hnone hmissing =>
    obtain ⟨hys, rfl⟩ := List.append_eq_nil_iff.1 hnil
    -- behind the end of the input nothing changes
    have hstay : behind false bs' (kindsOf (wordsIn ys ++ [])) = .error (false, bs') := by rw [hys]; rfl
    have hsecond : (bs''.length = bs'.length → ¬ MissesEnd ys) ∧
        (bs''.length < nestingLimit → bs''.length < bs'.length → MissesEnd ys) := by
      cases k with
      | settled h' _ hnone' =>
        refine ⟨fun _ => hnone', fun _ hlt => ?_⟩
        rw [hstay, resume] at h'
        split at h'
        · exact nomatch h'
        · cases h'
          exact absurd hlt (Nat.lt_irrefl _)
      | ranOut _ h' _ hnone' hmissing' =>
        rw [hstay] at h'
        cases h'
        exact ⟨fun heq => hnone' (Nat.le_of_eq heq.symm), hmissing'⟩
      | misplaced helse' _ =>
        rw [hys] at helse'
        exact Bool.noConfusion helse'
    rw [← hwords] at h
    refine .ranOut rfl h (Nat.le_trans hle hopened) (fun hlt => ?_) fun hl hlt => missesEnd_append.2 ?_
    · rw [missesEnd_append, not_or]
      exact ⟨hnone (Nat.le_trans hlt hle), hsecond.1 (by omega)⟩
    · rcases Nat.lt_or_ge bs''.length bs'.length with hless | hge
      · exact .inr (hsecond.2 hl hless)
      · exact .inl (hmissing (by omega) (by omega))
  | misplaced helse hmissing => exact .misplaced (by rw [hwords]; exact helse) (missesEnd_append.2 (.inl hmissing))

/-- What sprouts in a row do of which each leaves the same blocks open. -/
lemma row {P : Sprout → List Word → Prop} (h : Row P xs ws) (hbs : bs ≠ [])
    (hP : ∀ {x ws}, P x ws → Leads bs [x] ws bs) : Leads bs xs ws bs := by
  induction h with
  | nil => exact .nil hbs
  | @cons x xs ws hx _ ih => exact (hP hx).append ih hbs (Nat.le_refl _)

end Leads

/-! ## Directives -/

lemma mem_wordsIn {w : Word} {xs : List Sprout} : w ∈ wordsIn xs ↔ ∃ x ∈ xs, w ∈ x.words := by
  induction xs with
  | nil => simp [wordsIn]
  | cons x xs ih => simp [wordsIn, ih]

/-- What stands in a directive are words of directives, and only what is wrong there is wrong in it. -/
lemma IsPart.inner {x : Sprout} (h : IsPart x) :
    (∀ w ∈ x.words, w.kind ∉ foreignKinds) ∧ ∀ e ∈ x.errors, e.1.isInner = true := by
  induction h with
  | word hw => exact ⟨by simpa [words] using hw, by simp [errors]⟩
  | error hp => exact ⟨by simp [words], by simpa [errors] using hp⟩
  | node _ _ ih =>
    refine ⟨fun w hw => ?_, fun e he => ?_⟩
    · obtain ⟨c, hc, hwc⟩ := mem_wordsIn.1 hw
      exact (ih c hc).1 w hwc
    · obtain ⟨c, hc, hec⟩ := mem_errorsIn.1 he
      exact (ih c hc).2 e hec

variable {xs : List Sprout} {ws : List Word}

/-- What is wrong in a directive. -/
lemma Action.errors_inner (h : Action xs ws) : ∀ e ∈ errorsIn xs, e.1.isInner = true ∨ e.1 = .unclosedAction := by
  obtain ⟨-, hus, hcs⟩ := h
  intro e he
  obtain ⟨x, hx, hex⟩ := mem_errorsIn.1 he
  rcases List.mem_cons.1 hx with rfl | hx
  · exact nomatch hex
  rcases List.mem_append.1 hx with hu | hc
  · exact .inl ((hus x hu).inner.2 e hex)
  · cases hcs with
    | marker =>
      obtain rfl := List.mem_singleton.1 hc
      exact nomatch hex
    | unclosed =>
      obtain rfl := List.mem_singleton.1 hc
      obtain rfl := List.mem_singleton.1 hex
      exact .inr rfl
    | lost => exact nomatch hc

lemma Action.not_missesEnd (h : Action xs ws) : ¬ MissesEnd xs := by
  rintro ⟨⟨p, r⟩, he, hp⟩
  replace hp : p.isMissingEnd = true := hp
  rcases h.errors_inner _ he with hinner | heq
  · cases p with
    | missingEnd => exact Bool.noConfusion (show Problem.isInner (.missingEnd _ _) = true from hinner)
    | _ => exact Bool.noConfusion hp
  · rw [show p = .unclosedAction from heq] at hp
    exact Bool.noConfusion hp

/-- The words of a directive: its opening marker, words of directives, and its closing marker, unless the input is
over. -/
lemma Action.kinds (h : Action xs ws) : ∃ js : List Kind, (∀ j ∈ js, j ∉ foreignKinds) ∧
    (kindsOf (wordsIn xs ++ ws) = .leftDelimiter :: (js ++ .rightDelimiter :: kindsOf ws) ∨
      ws = [] ∧ kindsOf (wordsIn xs ++ ws) = .leftDelimiter :: js) := by
  cases h with
  | @intro w us cs ws hw hus hcs =>
    replace hw : w.kind = .leftDelimiter := hw
    refine ⟨kindsOf (wordsIn us), fun j hj => ?_, ?_⟩
    · obtain ⟨v, hv, rfl⟩ := List.mem_map.1 hj
      obtain ⟨u, hu, hvu⟩ := mem_wordsIn.1 hv
      exact (hus u hu).inner.1 v hvu
    · cases hcs with
      | @marker v _ hv =>
        left
        simp [kindsOf, wordsIn, words, hw, show v.kind = .rightDelimiter from hv]
      | unclosed => right; simp [kindsOf, wordsIn, words, hw]
      | lost => right; simp [kindsOf, wordsIn, words, hw]

/-- A directive enters or leaves a block as its keyword says. -/
lemma Action.leads (bs : List Kind) (h : Action xs ws) {k : Kind} (hk : keywordOf xs ws = k) : Leads bs xs ws (enter bs k) := by
  have hnone := h.not_missesEnd
  rw [keywordOf, kindAt_eq_ahead] at hk
  obtain ⟨js, hjs, heq | ⟨rfl, heq⟩⟩ := h.kinds
  · rw [heq] at hk
    replace hk : ahead (js ++ .rightDelimiter :: kindsOf ws) 0 = k := hk
    refine .settled ?_ (fun helse => ?_) hnone
    · rw [heq, behind_left, hk, behind_inner hjs, behind_right]
    · rw [heq]
      refine misplacesElse_left ?_
      rw [hk, misplacesElse_inner hjs, misplacesElse_other (by decide)]
      exact helse
  · rw [heq] at hk
    replace hk : ahead js 0 = k := hk
    have hinner : behind true (enter bs k) (js ++ []) = .error (true, enter bs k) := behind_inner hjs []
    rw [List.append_nil] at hinner
    have hend : behind false bs (kindsOf (wordsIn xs ++ [])) = .error (true, enter bs k) := by
      rw [heq, behind_left, hk, hinner]
    exact .ranOut rfl hend (Nat.le_refl _) (fun _ => hnone) fun _ hlt => absurd hlt (Nat.lt_irrefl _)

lemma enter_of_isPlain {k : Kind} (h : IsPlain k) : enter bs k = bs := by
  obtain ⟨hopens, -, hend⟩ := h
  rw [enter, hopens, if_neg hend]
  rfl

section

variable {block : Bool → Sprout → List Word → Prop} {inLoop : Bool} {x : Sprout} (hbs : bs ≠ [])
  (hblock : ∀ {inLoop x ws}, block inLoop x ws → Leads bs [x] ws bs)

include hbs hblock

/-- A part of a sequence leaves the same blocks open. -/
lemma Item.leads (h : Item d block inLoop x ws) : Leads bs [x] ws bs := by
  cases h with
  | @text w _ hleft hright =>
    have hkinds : kindsOf (wordsIn [.word w] ++ ws) = w.kind :: kindsOf ws := by simp [kindsOf, wordsIn, words]
    refine .settled ?_ (fun helse => ?_) (by simp [MissesEnd, errorsIn, errors])
    · rw [hkinds, behind_other hleft hright, resume_of_ne_nil hbs]
    · rwa [hkinds, misplacesElse_other hleft]
  | simple _ hxs hplain =>
    have hleads := hxs.leads bs rfl
    rw [enter_of_isPlain hplain] at hleads
    exact hleads.node
  | jump _ hxs hplain =>
    have hleads := hxs.leads bs rfl
    rw [enter_of_isPlain hplain] at hleads
    refine (hleads.append_error fun e he => ?_).node
    split at he
    · exact nomatch he
    · exact ⟨_, _, List.mem_singleton.1 he, rfl⟩
  | block h => exact hblock h

lemma IsList.leads (h : IsList d block inLoop x ws) : Leads bs [x] ws bs := by
  obtain ⟨hxs, -⟩ := h
  exact (Leads.row hxs hbs fun h => h.leads hbs hblock).node

lemma IsElse.leads (h : IsElse d block inLoop x ws) : Leads bs [x] ws bs := by
  cases h with
  | @intro xs es l ws hxs hkey hes hl =>
    have hwords : wordsIn (es ++ [l]) = l.words := by
      rcases hes with rfl | ⟨p, r, rfl, -⟩ <;> simp [wordsIn, words]
    have hopen : Leads bs xs (l.words ++ ws) bs := hxs.leads bs hkey
    have hfault : Leads bs (xs ++ es) (wordsIn [l] ++ ws) bs := by
      rw [show wordsIn [l] = l.words by simp [wordsIn]]
      refine hopen.append_error fun e he => ?_
      rcases hes with rfl | ⟨p, r, rfl, hp⟩
      · exact nomatch he
      · refine ⟨p, r, List.mem_singleton.1 he, ?_⟩
        rcases hp with rfl | ⟨_, rfl⟩ <;> rfl
    have hall := hfault.append (hl.leads hbs hblock) hbs (Nat.le_refl _)
    rw [List.append_assoc] at hall
    exact hall.node

end

/-! ## Blocks -/

section

variable {block : Bool → Sprout → List Word → Prop} {inLoop : Bool} {x : Sprout}

/-- Behind the sequences of a block the input ends, or an `else` or `end` follows. -/
lemma atListEnd_of_row {es : List Sprout} (hes : Row (IsElse d block inLoop) es ws) :
    ∀ {inLoop' l}, IsList d block inLoop' l (wordsIn es ++ ws) → AtListEnd ws := by
  induction hes with
  | nil => exact fun ⟨_, hend⟩ => hend
  | cons hx _ ih =>
    obtain ⟨-, -, -, hl⟩ := hx
    exact fun _ => ih hl

/-- An `end` closes its block. Where it is missing, the input is over, or an `else` is misplaced. -/
lemma Ending.leads {b : BlockForm} {opener : Span} (hb : b ∈ blockForms) (hlimit : bs.length < nestingLimit)
    (h : Ending d b.label opener x ws) (hend : AtListEnd (x.words ++ ws))
    (hcontrol : b.named = false → ¬ (kindAt (x.words ++ ws) 0 = .leftDelimiter ∧ kindAt (x.words ++ ws) 1 = .elseKeyword)) :
    Leads (b.keyword :: bs) [x] ws bs := by
  cases h with
  | closed hxs hkey => exact (hxs.leads _ hkey).node
  | missing hno =>
    replace hend : AtListEnd ws := hend
    have hmissing : MissesEnd [.error (.missingEnd d b.label) opener] :=
      ⟨_, List.mem_singleton_self _, rfl⟩
    have hwords : wordsIn [Sprout.error (.missingEnd d b.label) opener] = [] := rfl
    rcases hend with rfl | ⟨hleft, helse | hend⟩
    · have hover : behind false (b.keyword :: bs) (kindsOf (wordsIn [Sprout.error (.missingEnd d b.label) opener] ++ [])) =
          .error (false, b.keyword :: bs) := rfl
      refine .ranOut rfl hover ?_ (fun hle => ?_) fun _ _ => hmissing
      · exact Nat.le_succ _
      · exact absurd hle (Nat.not_succ_le_self _)
    · refine .misplaced ?_ hmissing
      have hnamed : ∀ b ∈ blockForms, b.named = true → (b.keyword == .defineKeyword || b.keyword == .blockKeyword) = true := by
        decide
      have hopens : b.named = true := by
        by_contra hplain
        exact hcontrol (by simpa using hplain) ⟨hleft, helse⟩
      rw [kindAt_eq_ahead] at hleft helse
      rw [hwords, List.nil_append]
      generalize kindsOf ws = ks at hleft helse ⊢
      obtain ⟨ks, rfl⟩ := eq_cons_of_ahead hleft (by decide)
      rw [ahead_succ] at helse
      rw [misplacesElse, if_pos rfl, helse, List.head?_cons, Option.any_some, hnamed b hb hopens]
      simp [Nat.succ_le_of_lt hlimit]
    · exact absurd ⟨hleft, hend⟩ hno

/-- A block leaves the same blocks open. -/
lemma BlockNode.leads (hlimit : bs.length < nestingLimit)
    (hblock : ∀ {k inLoop x ws}, block inLoop x ws → Leads (k :: bs) [x] ws (k :: bs))
    (h : BlockNode d block inLoop x ws) : Leads bs [x] ws bs := by
  cases h with
  | @intro b xs es l y ws hb hxs hkey hl hes hnamed hcontrol hy =>
    have hopens : ∀ b ∈ blockForms, opensBlock b.keyword = true := by decide
    have hopen := hxs.leads bs hkey
    rw [enter, if_pos (hopens b hb)] at hopen
    have hne : b.keyword :: bs ≠ [] := List.cons_ne_nil _ _
    have hlist : Leads (b.keyword :: bs) [l] (wordsIn es ++ (y.words ++ ws)) (b.keyword :: bs) :=
      hl.leads hne fun h => hblock h
    have helse : Leads (b.keyword :: bs) es (y.words ++ ws) (b.keyword :: bs) :=
      Leads.row hes hne fun h => h.leads hne fun h => hblock h
    have hy' : Leads (b.keyword :: bs) [y] ws bs := hy.leads hb hlimit (atListEnd_of_row hes hl) hcontrol
    have hsingle : ∀ z : Sprout, wordsIn [z] = z.words := fun z => by simp [wordsIn]
    rw [← hsingle] at hopen helse hlist
    rw [← hsingle y] at hopen
    have hfirst := hopen.append hlist hne (Nat.le_refl _)
    have hsecond := hfirst.append helse hne (Nat.le_refl _)
    have hall := hsecond.append hy' hne (Nat.le_succ _)
    simp only [List.append_assoc] at hall
    exact hall.node

/-- Blocks that are nested too deep are skipped up to where counting leads. -/
lemma behind_skipped {outer : List Kind} (houter : outer ≠ []) {depth : Nat} (hdepth : bs.length = depth) :
    (skipped depth ws ≠ [] ∧
      behind m (bs ++ outer) (kindsOf ws) = behind false outer (kindsOf (skipped depth ws)) ∧
      (misplacesElse outer (kindsOf (skipped depth ws)) = true → misplacesElse (bs ++ outer) (kindsOf ws) = true)) ∨
    (skipped depth ws = [] ∧ ∃ inside opened, behind m (bs ++ outer) (kindsOf ws) = .error (inside, opened) ∧
      outer.length ≤ opened.length) := by
  have hne : ∀ bs : List Kind, bs ++ outer ≠ [] := fun bs => List.append_ne_nil_of_right_ne_nil bs houter
  induction ws generalizing bs m depth with
  | nil => exact .inr ⟨rfl, m, _, rfl, by simp⟩
  | cons w ws ih =>
    rw [kindsOf, List.map_cons]
    by_cases hleft : w.kind = .leftDelimiter
    · by_cases hstop : (kindAt ws 0 = .elseKeyword ∨ kindAt ws 0 = .endKeyword) ∧ depth = 0
      · rw [skipped_of_stop hleft hstop]
        obtain rfl : bs = [] := List.length_eq_zero_iff.1 (hdepth.trans hstop.2)
        refine .inl ⟨List.cons_ne_nil _ _, ?_, fun h => h⟩
        rw [kindsOf, List.map_cons, hleft, behind_left, behind_left]
        rfl
      · rw [skipped_of_left hleft hstop, hleft, behind_left, ← kindAt_eq_ahead]
        obtain ⟨bs', hbs', henter⟩ : ∃ bs' : List Kind, bs'.length = depthBehind depth (kindAt ws 0) ∧
            enter (bs ++ outer) (kindAt ws 0) = bs' ++ outer := by
          unfold enter depthBehind
          split
          · exact ⟨kindAt ws 0 :: bs, by simp [hdepth], rfl⟩
          · split
            · next hend =>
              obtain ⟨b, bs, rfl⟩ : ∃ b bs', bs = b :: bs' := by
                refine List.exists_cons_of_ne_nil fun hnil => hstop ⟨.inr hend, ?_⟩
                rw [← hdepth, hnil]
                rfl
              exact ⟨bs, by simp [← hdepth], rfl⟩
            · exact ⟨bs, hdepth, rfl⟩
        rw [henter]
        refine (ih hbs').imp_left fun ⟨hmore, hbehind, helse⟩ => ⟨hmore, hbehind, fun h => misplacesElse_left ?_⟩
        rw [← kindAt_eq_ahead, henter]
        exact helse h
    · rw [skipped_of_other hleft, misplacesElse_other hleft]
      by_cases hright : w.kind = .rightDelimiter
      · rw [hright, behind_right, resume_of_ne_nil (hne bs)]
        exact ih hdepth
      · rw [behind_other hleft hright]
        exact ih hdepth

lemma wordsIn_map_word (vs : List Word) : wordsIn (vs.map .word) = vs := by
  induction vs with
  | nil => rfl
  | cons v vs ih => simp [wordsIn, words, ih]

lemma errorsIn_map_word (vs : List Word) : errorsIn (vs.map .word) = [] := by
  induction vs with
  | nil => rfl
  | cons v vs ih => simp [errorsIn, errors, ih]

lemma TooDeep.leads (hlimit : bs.length = nestingLimit) (h : TooDeep x ws) : Leads bs [x] ws bs := by
  cases h with
  | @intro vs ws r h =>
    have hne : bs ≠ [] := by
      rintro rfl
      exact absurd hlimit (by decide)
    have hwords : wordsIn [.node .error (.error .nestingTooDeep r :: vs.map .word)] = vs := by
      simp [wordsIn, words, wordsIn_map_word]
    have hnone : ¬ MissesEnd [.node .error (.error .nestingTooDeep r :: vs.map .word)] := by
      simp [MissesEnd, errorsIn, errors, errorsIn_map_word, Problem.isMissingEnd]
    rcases @behind_skipped [] false (vs ++ ws) _ hne 0 rfl with
      ⟨-, hbehind, helse⟩ | ⟨hnil, inside, opened, hbehind, hle⟩
    · rw [h] at hbehind helse
      exact .settled (by rw [hwords, resume_of_ne_nil hne]; exact hbehind) (by rw [hwords]; exact helse) hnone
    · rw [h] at hnil
      exact .ranOut hnil (by rw [hwords]; exact hbehind) hle (fun _ => hnone) fun hl _ => absurd hlimit (Nat.ne_of_lt hl)

end

/-- A block leaves the same blocks open, on every level. -/
lemma leads_isBlock {levels : Nat} (hlevels : levels + bs.length = nestingLimit) {inLoop : Bool} {x : Sprout}
    (h : IsBlock d levels inLoop x ws) : Leads bs [x] ws bs := by
  induction levels generalizing bs inLoop x ws with
  | zero => exact TooDeep.leads (by omega) h
  | succ levels ih =>
    refine BlockNode.leads (by omega) (fun {k _ _ _} h => ih ?_ h) h
    rw [List.length_cons]
    omega

/-! ## Documents -/

/-- A directive at the top level leaves no blocks open. -/
lemma TopItem.leads {x : Sprout} (h : TopItem d x ws) (hx : ∀ w, x ≠ .word w) : Leads [] [x] ws [] := by
  cases h with
  | item h =>
    cases h with
    | text => exact absurd rfl (hx _)
    | simple _ hxs hplain =>
      have hleads := hxs.leads [] rfl
      rw [enter_of_isPlain hplain] at hleads
      exact hleads.node
    | jump _ hxs hplain =>
      have hleads := hxs.leads [] rfl
      rw [enter_of_isPlain hplain] at hleads
      exact (hleads.append_error (by simp [Problem.isMissingEnd])).node
    | block h => exact leads_isBlock (by rfl) h
  | stray h =>
    obtain ⟨hk, hxs, hkey⟩ := h
    have hleads := hxs.leads [] hkey
    have henter : ∀ p ∈ [(Kind.templateEnd, Kind.endKeyword, "end"), (.templateElse, .elseKeyword, "else")],
        enter [] p.2.1 = [] := by decide
    rw [henter _ hk] at hleads
    exact (hleads.append_error fun e he => ⟨_, _, List.mem_singleton.1 he, rfl⟩).node

lemma Action.wordsIn_ne_nil (h : Action xs ws) : wordsIn xs ≠ [] := by
  obtain ⟨-, -, -⟩ := h
  exact List.cons_ne_nil _ _

lemma TopItem.words_ne_nil {x : Sprout} (h : TopItem d x ws) : x.words ≠ [] := by
  have hnode : ∀ {k xs ys ws}, Action xs ws → (Sprout.node k (xs ++ ys)).words ≠ [] := fun h => by
    rw [words, wordsIn_append]
    exact List.append_ne_nil_of_left_ne_nil h.wordsIn_ne_nil _
  cases h with
  | item h =>
    cases h with
    | text => exact List.cons_ne_nil _ _
    | simple _ hxs => exact hxs.wordsIn_ne_nil
    | jump _ hxs => exact hnode hxs
    | block h =>
      obtain ⟨-, hxs, -⟩ := (h : BlockNode d (IsBlock d 255) false x ws)
      exact hnode hxs
  | stray h =>
    obtain ⟨-, hxs, -⟩ := h
    exact hnode hxs

section

variable (h : Row (TopItem d) xs []) (hleft : kindAt (wordsIn xs) 0 = .leftDelimiter)

include h hleft

/-- A document that starts with an opening marker starts with a directive. -/
lemma exists_leads : ∃ k cs ys, xs = .node k cs :: ys ∧ Leads [] [.node k cs] (wordsIn ys) [] ∧ Row (TopItem d) ys [] := by
  cases h with
  | nil => exact nomatch hleft
  | @cons x ys _ hx hys =>
    rw [List.append_nil] at hx
    cases x with
    | node k cs => exact ⟨k, cs, ys, rfl, hx.leads fun _ => Sprout.noConfusion, hys⟩
    | word w =>
      cases hx with
      | item h =>
        cases h with
        | text hw => exact absurd hleft hw
        | block h => exact nomatch (h : BlockNode d (IsBlock d 255) false (.word w) _)
      | stray h => exact nomatch h
    | error p r => exact absurd rfl hx.words_ne_nil

/-- A document that starts with an opening marker is one directive if its directive takes all words; and then it misses
an `end` only if a block is open at its end. -/
lemma eq_singleton_of_row (helse : misplacesElse [] (kindsOf (wordsIn xs)) = false)
    (hend : ∀ ks, behind false [] (kindsOf (wordsIn xs)) = .ok ks → ks = []) :
    ∃ k cs, xs = [.node k cs] ∧
      ((∀ inside opened, behind false [] (kindsOf (wordsIn xs)) = .error (inside, opened) → opened = []) →
        ¬ MissesEnd xs) := by
  obtain ⟨k, cs, ys, rfl, hleads, hys⟩ := exists_leads h hleft
  have hwords : wordsIn [.node k cs] ++ wordsIn ys = wordsIn (.node k cs :: ys) := by simp [wordsIn]
  have hsingle : wordsIn ys = [] → ys = [] := by
    intro hnil
    cases hys with
    | nil => rfl
    | cons hx _ => exact absurd (List.append_eq_nil_iff.1 hnil).1 hx.words_ne_nil
  obtain rfl : ys = [] := by
    refine hsingle ?_
    cases hleads with
    | settled h => exact List.map_eq_nil_iff.1 (hend _ ((hwords ▸ h).trans rfl))
    | ranOut hws => exact hws
    | misplaced hm =>
      rw [hwords, helse] at hm
      exact Bool.noConfusion hm
  refine ⟨k, cs, rfl, fun hopened => ?_⟩
  cases hleads with
  | settled _ _ hnone => exact hnone
  | ranOut _ h _ hnone =>
    rw [hwords] at h
    rw [hopened _ _ h] at hnone
    exact hnone (Nat.le_refl _)
  | misplaced hm =>
    rw [hwords, helse] at hm
    exact Bool.noConfusion hm

/-- A document that starts with an opening marker and ends inside a block misses an `end`. -/
lemma missesEnd_of_row {inside : Bool} {opened : List Kind}
    (hbehind : behind false [] (kindsOf (wordsIn xs)) = .error (inside, opened)) (hopened : opened ≠ []) :
    MissesEnd xs := by
  obtain ⟨k, cs, ys, rfl, hleads, -⟩ := exists_leads h hleft
  have hwords : wordsIn [.node k cs] ++ wordsIn ys = wordsIn (.node k cs :: ys) := by simp [wordsIn]
  have hmore : MissesEnd [.node k cs] → MissesEnd (.node k cs :: ys) := fun h =>
    (missesEnd_append.2 (.inl h) : MissesEnd ([.node k cs] ++ ys))
  refine hmore ?_
  cases hleads with
  | settled h =>
    rw [hwords, hbehind] at h
    exact nomatch h
  | ranOut _ h _ _ hmissing =>
    rw [hwords, hbehind] at h
    cases h
    exact hmissing (by decide) (List.length_pos_iff.2 hopened)
  | misplaced _ hmissing => exact hmissing

end

end Template

end GoFront
