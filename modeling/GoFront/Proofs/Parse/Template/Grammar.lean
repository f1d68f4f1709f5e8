import GoFront.Parse.Template.Document
import GoFront.Proofs.Parse.Reading

/-!
# The grammar of templates

The language of templates over the kinds of their tokens, blanks left out. It is given by equations that
follow the levels of nesting: the pipelines of a level may hold parentheses around pipelines of the level
below, and the sequences of a level may hold blocks of the level below. A template is a sequence of the
level `nestingLimit`, so none of its tokens lies inside more blocks and parentheses than that.
-/

namespace GoFront.Template

open GoFront.Parser
open scoped Computability

/-! ## Pipelines -/

/-- One token of one of some kinds. -/
def oneOf (ks : List Kind) : Language Kind := {u | ∃ k ∈ ks, u = [k]}

/-- Something that may be missing. -/
def opt (L : Language Kind) : Language Kind := 1 + L

/-- The quoted name of a template. -/
def nameWord : Language Kind := oneOf [.string, .rawString]

/-- The kinds of tokens that are operands of their own. -/
def atoms : List Kind :=
  [.field, .dot, .variable, .identifier, .compareOperator, .logicOperator, .intNumber, .floatNumber,
    .imaginaryNumber, .rune, .string, .rawString, .trueKeyword, .falseKeyword, .nilKeyword]

/-- An operand: one token, or something between parentheses. -/
def operandWord (inner : Language Kind) : Language Kind :=
  oneOf atoms + tok .leftParen * inner * tok .rightParen

/-- A command: one operand or more. -/
def commandWord (inner : Language Kind) : Language Kind := operandWord inner * (operandWord inner)∗

/-- One variable or two, and the sign that declares or sets them. -/
def declarationWord : Language Kind :=
  tok .variable * opt (tok .comma * tok .variable) * oneOf [.define, .assign]

/-- A pipeline: variables that may be missing, and commands with bars between them. -/
def pipeOf (inner : Language Kind) : Language Kind :=
  opt declarationWord * (commandWord inner * (tok .pipe * commandWord inner)∗)

/-- What may stand between parentheses when so many levels may be entered. -/
def parenWord : (levels : Nat) → Language Kind
  | 0 => 0
  | levels + 1 => pipeOf (parenWord levels)

/-- A pipeline when so many levels may be entered. -/
def pipeWord (levels : Nat) : Language Kind := pipeOf (parenWord levels)

/-! ## Directives -/

/-- Something between an opening and a closing marker. -/
def actionWord (L : Language Kind) : Language Kind := tok .leftDelimiter * L * tok .rightDelimiter

/-- A directive without a body. A `break` or `continue` stands in the body of a loop only. -/
def simpleWord (levels : Nat) (inLoop : Bool) : Language Kind :=
  actionWord (pipeWord levels) + actionWord (tok .blockComment) +
    actionWord (tok .templateKeyword * (nameWord * opt (pipeWord levels))) +
    actionWord (tok .returnKeyword * opt (pipeWord levels)) +
    (if inLoop then actionWord (oneOf [.breakKeyword, .continueKeyword]) else 0)

/-- The `end` of a block. -/
def endWord : Language Kind := actionWord (tok .endKeyword)

/-- An `else` branch without a condition. -/
def plainElse (items : Language Kind) : Language Kind := actionWord (tok .elseKeyword) * items

/-- An `else` branch with a condition. -/
def chainedElse (levels : Nat) (items : Language Kind) : Language Kind :=
  actionWord (tok .elseKeyword * (oneOf [.ifKeyword, .withKeyword] * pipeWord levels)) * items

/-- A block, given what it may hold in the body of a loop and elsewhere. -/
def blockOf (levels : Nat) (items : Bool → Language Kind) (inLoop : Bool) : Language Kind :=
  actionWord (oneOf [.ifKeyword, .withKeyword] * pipeWord levels) * (items inLoop *
      ((chainedElse levels (items inLoop))∗ * opt (plainElse (items inLoop)) * endWord)) +
    actionWord (tok .rangeKeyword * pipeWord levels) * (items true *
      (opt (plainElse (items inLoop)) * endWord)) +
    actionWord (tok .defineKeyword * nameWord) * (items false * endWord) +
    actionWord (tok .blockKeyword * (nameWord * opt (pipeWord levels))) * (items false * endWord)

/-- Host text or a directive, given the blocks there may be. -/
def itemOf (levels : Nat) (inLoop : Bool) (blocks : Language Kind) : Language Kind :=
  tok .text + simpleWord levels inLoop + blocks

/-- A block when so many levels may be entered. -/
def blockWord : (levels : Nat) → (inLoop : Bool) → Language Kind
  | 0, _ => 0
  | levels + 1, inLoop =>
    blockOf levels (fun inLoop => (itemOf levels inLoop (blockWord levels inLoop))∗) inLoop

/-- Host text or a directive when so many levels may be entered. -/
def itemWord (levels : Nat) (inLoop : Bool) : Language Kind := itemOf levels inLoop (blockWord levels inLoop)

/-- A sequence of host text and directives when so many levels may be entered. -/
def itemsWord (levels : Nat) (inLoop : Bool) : Language Kind := (itemWord levels inLoop)∗

/-- A template. -/
def templateWord : Language Kind := itemsWord nestingLimit false

/-! ## First tokens -/

lemma mem_actionWord {L : Language Kind} {u : List Kind} :
    u ∈ actionWord L ↔ ∃ v ∈ L, u = .leftDelimiter :: (v ++ [Kind.rightDelimiter]) := by
  constructor
  · intro h
    obtain ⟨x, hx, y, rfl, rfl⟩ := Language.mem_mul.1 h
    obtain ⟨z, rfl, v, hv, rfl⟩ := Language.mem_mul.1 hx
    exact ⟨v, hv, rfl⟩
  · rintro ⟨v, hv, rfl⟩
    exact Language.mem_mul.2 ⟨.leftDelimiter :: v, Language.mem_mul.2 ⟨_, rfl, v, hv, rfl⟩, _, rfl, rfl⟩

/-- The kinds of tokens an operand can start with. -/
def operandStarts : List Kind := .leftParen :: atoms

/-- Words that are not empty and start with a token of one of some kinds. -/
def StartsIn (ks : List Kind) (L : Language Kind) : Prop := ∀ u ∈ L, ∃ k ∈ ks, ∃ v, u = k :: v

lemma StartsIn.mul {ks : List Kind} {L M : Language Kind} (h : StartsIn ks L) : StartsIn ks (L * M) := by
  intro x hx
  obtain ⟨u, hu, w, -, rfl⟩ := Language.mem_mul.1 hx
  obtain ⟨k, hk, v, rfl⟩ := h u hu
  exact ⟨k, hk, v ++ w, rfl⟩

lemma StartsIn.add {ks : List Kind} {L M : Language Kind} (h : StartsIn ks L) (h' : StartsIn ks M) :
    StartsIn ks (L + M) := fun u hu => hu.elim (h u) (h' u)

lemma startsIn_tok {ks : List Kind} {k : Kind} (h : k ∈ ks) : StartsIn ks (tok k) :=
  fun _ hu => ⟨k, h, [], hu⟩

lemma startsIn_oneOf (ks : List Kind) : StartsIn ks (oneOf ks) :=
  fun _ ⟨k, hk, hu⟩ => ⟨k, hk, [], hu⟩

lemma StartsIn.mono {ks js : List Kind} {L : Language Kind} (h : StartsIn ks L) (hks : ∀ k ∈ ks, k ∈ js) :
    StartsIn js L := fun u hu =>
  let ⟨k, hk, v, hv⟩ := h u hu
  ⟨k, hks k hk, v, hv⟩

lemma StartsIn.ahead_mem {ks : List Kind} {L : Language Kind} (h : StartsIn ks L) {u : List Kind} (hu : u ∈ L)
    (rest : List Kind) : ahead (u ++ rest) 0 ∈ ks := by
  obtain ⟨k, hk, v, rfl⟩ := h u hu
  exact hk

lemma StartsIn.nil_notMem {ks : List Kind} {L : Language Kind} (h : StartsIn ks L) : [] ∉ L := by
  intro hu
  obtain ⟨k, -, v, hv⟩ := h [] hu
  exact List.cons_ne_nil k v hv.symm

lemma startsIn_operandWord (inner : Language Kind) : StartsIn operandStarts (operandWord inner) :=
  .add ((startsIn_oneOf atoms).mono fun _ => List.mem_cons_of_mem _)
    (.mul (.mul (startsIn_tok (List.mem_cons_self ..))))

lemma startsIn_commandWord (inner : Language Kind) : StartsIn operandStarts (commandWord inner) :=
  (startsIn_operandWord inner).mul

lemma startsIn_pipeOf (inner : Language Kind) : StartsIn operandStarts (pipeOf inner) := by
  intro x hx
  obtain ⟨u, hu, w, hw, rfl⟩ := Language.mem_mul.1 hx
  rcases hu with rfl | hu
  · exact (startsIn_commandWord inner).mul w hw
  · have hstart : StartsIn operandStarts declarationWord := .mul (.mul (startsIn_tok (by decide)))
    obtain ⟨k, hk, v, rfl⟩ := hstart u hu
    exact ⟨k, hk, v ++ w, rfl⟩

/-! ## Directives and their keywords -/

/-- Directives whose first word is of one of some kinds, and what follows them. -/
def Opens (ks : List Kind) (L : Language Kind) : Prop :=
  ∀ u ∈ L, ∃ k ∈ ks, ∃ v, u = .leftDelimiter :: k :: v

lemma opens_actionWord {ks : List Kind} {L : Language Kind} (h : StartsIn ks L) : Opens ks (actionWord L) := by
  intro u hu
  obtain ⟨v, hv, rfl⟩ := mem_actionWord.1 hu
  obtain ⟨k, hk, w, rfl⟩ := h v hv
  exact ⟨k, hk, w ++ [.rightDelimiter], rfl⟩

lemma Opens.mul {ks : List Kind} {L M : Language Kind} (h : Opens ks L) : Opens ks (L * M) := by
  intro x hx
  obtain ⟨u, hu, w, -, rfl⟩ := Language.mem_mul.1 hx
  obtain ⟨k, hk, v, rfl⟩ := h u hu
  exact ⟨k, hk, v ++ w, rfl⟩

lemma Opens.add {ks : List Kind} {L M : Language Kind} (h : Opens ks L) (h' : Opens ks M) : Opens ks (L + M) :=
  fun u hu => hu.elim (h u) (h' u)

lemma Opens.mono {ks js : List Kind} {L : Language Kind} (h : Opens ks L) (hks : ∀ k ∈ ks, k ∈ js) :
    Opens js L := fun u hu =>
  let ⟨k, hk, v, hv⟩ := h u hu
  ⟨k, hks k hk, v, hv⟩

lemma Opens.ahead_mem {ks : List Kind} {L : Language Kind} (h : Opens ks L) {u : List Kind} (hu : u ∈ L)
    (rest : List Kind) : ahead (u ++ rest) 0 = .leftDelimiter ∧ ahead (u ++ rest) 1 ∈ ks := by
  obtain ⟨k, hk, v, rfl⟩ := h u hu
  exact ⟨rfl, hk⟩

/-- The keywords that open a block. -/
def blockKeywords : List Kind := [.ifKeyword, .withKeyword, .rangeKeyword, .defineKeyword, .blockKeyword]

/-- The kinds of words a directive without a body can start with. -/
def simpleStarts : List Kind :=
  [.blockComment, .templateKeyword, .returnKeyword, .breakKeyword, .continueKeyword] ++ operandStarts

lemma opens_simpleWord (levels : Nat) (inLoop : Bool) : Opens simpleStarts (simpleWord levels inLoop) := by
  have hpipe : Opens simpleStarts (actionWord (pipeWord levels)) :=
    (opens_actionWord (startsIn_pipeOf _)).mono fun _ => List.mem_append_right _
  have hloop : Opens simpleStarts (if inLoop then actionWord (oneOf [.breakKeyword, .continueKeyword]) else 0) := by
    cases inLoop with
    | true => exact (opens_actionWord (startsIn_oneOf _)).mono (by decide)
    | false => exact fun u hu => absurd hu (Language.notMem_zero u)
  exact .add (.add (.add (.add hpipe (opens_actionWord (startsIn_tok (by decide))))
    (opens_actionWord (startsIn_tok (by decide)).mul)) (opens_actionWord (startsIn_tok (by decide)).mul)) hloop

lemma opens_blockOf (levels : Nat) (items : Bool → Language Kind) (inLoop : Bool) :
    Opens blockKeywords (blockOf levels items inLoop) :=
  .add (.add (.add (opens_actionWord ((startsIn_oneOf _).mono (by decide)).mul).mul
    (opens_actionWord (startsIn_tok (by decide)).mul).mul) (opens_actionWord (startsIn_tok (by decide)).mul).mul)
    (opens_actionWord (startsIn_tok (by decide)).mul).mul

lemma opens_blockWord (levels : Nat) (inLoop : Bool) : Opens blockKeywords (blockWord levels inLoop) := by
  cases levels with
  | zero => exact fun u hu => absurd hu (Language.notMem_zero u)
  | succ levels => exact opens_blockOf levels _ inLoop

/-! ## Last tokens -/

/-- Words that end with host text or with the end of a directive. -/
def EndsOutside (L : Language Kind) : Prop :=
  ∀ u ∈ L, ∃ v k, u = v ++ [k] ∧ (k = .text ∨ k = .rightDelimiter)

lemma endsOutside_actionWord (L : Language Kind) : EndsOutside (actionWord L) := by
  intro u hu
  obtain ⟨v, -, rfl⟩ := mem_actionWord.1 hu
  exact ⟨.leftDelimiter :: v, .rightDelimiter, rfl, .inr rfl⟩

lemma EndsOutside.mul {L M : Language Kind} (h : EndsOutside M) : EndsOutside (L * M) := by
  intro x hx
  obtain ⟨u, -, w, hw, rfl⟩ := Language.mem_mul.1 hx
  obtain ⟨v, k, rfl, hk⟩ := h w hw
  exact ⟨u ++ v, k, by simp, hk⟩

lemma EndsOutside.add {L M : Language Kind} (h : EndsOutside L) (h' : EndsOutside M) : EndsOutside (L + M) :=
  fun u hu => hu.elim (h u) (h' u)

lemma endsOutside_itemWord (levels : Nat) (inLoop : Bool) : EndsOutside (itemWord levels inLoop) := by
  have hzero : EndsOutside 0 := fun u hu => absurd hu (Language.notMem_zero u)
  have htext : EndsOutside (tok .text) := fun u hu => ⟨[], .text, hu, .inl rfl⟩
  have hloop : EndsOutside (if inLoop then actionWord (oneOf [.breakKeyword, .continueKeyword]) else 0) := by
    cases inLoop with
    | true => exact endsOutside_actionWord _
    | false => exact hzero
  have hend : EndsOutside endWord := endsOutside_actionWord _
  refine .add (.add htext (.add (.add (.add (.add (endsOutside_actionWord _) (endsOutside_actionWord _))
    (endsOutside_actionWord _)) (endsOutside_actionWord _)) hloop)) ?_
  cases levels with
  | zero => exact hzero
  | succ levels => exact .add (.add (.add hend.mul.mul.mul hend.mul.mul.mul) hend.mul.mul) hend.mul.mul

/-! ## Lexical errors -/

/-- Words without lexical errors. -/
def Plain (L : Language Kind) : Prop := ∀ u ∈ L, ∀ k ∈ u, k.isLexicalError = false

namespace Plain

variable {L M : Language Kind}

lemma zero : Plain 0 := fun u hu => absurd hu (Language.notMem_zero u)

lemma tok {k : Kind} (hk : k.isLexicalError = false) : Plain (Parser.tok k) := by
  intro u hu j hj
  obtain rfl : u = [k] := hu
  rwa [List.mem_singleton.1 hj]

lemma oneOf {ks : List Kind} (hks : ∀ k ∈ ks, k.isLexicalError = false) : Plain (Template.oneOf ks) := by
  rintro u ⟨k, hk, rfl⟩ j hj
  rw [List.mem_singleton.1 hj]
  exact hks k hk

lemma mul (hL : Plain L) (hM : Plain M) : Plain (L * M) := by
  intro x hx k hk
  obtain ⟨u, hu, w, hw, rfl⟩ := Language.mem_mul.1 hx
  exact (List.mem_append.1 hk).elim (hL u hu k) (hM w hw k)

lemma add (hL : Plain L) (hM : Plain M) : Plain (L + M) := fun u hu => hu.elim (hL u) (hM u)

lemma kstar (hL : Plain L) : Plain L∗ := by
  intro x hx k hk
  obtain ⟨us, rfl, hus⟩ := Language.mem_kstar.1 hx
  obtain ⟨u, hu, hk⟩ := List.mem_flatten.1 hk
  exact hL u (hus u hu) k hk

lemma opt (hL : Plain L) : Plain (Template.opt L) := by
  rintro u (rfl | hu) k hk
  · exact nomatch hk
  · exact hL u hu k hk

lemma action (hL : Plain L) : Plain (actionWord L) := ((tok rfl).mul hL).mul (tok rfl)

end Plain

lemma plain_pipeOf {inner : Language Kind} (h : Plain inner) : Plain (pipeOf inner) := by
  have hoperand : Plain (operandWord inner) := (Plain.oneOf (by decide)).add (((Plain.tok rfl).mul h).mul (.tok rfl))
  have hcommand : Plain (commandWord inner) := hoperand.mul hoperand.kstar
  have hdeclaration : Plain declarationWord :=
    ((Plain.tok rfl).mul (.opt ((Plain.tok rfl).mul (.tok rfl)))).mul (.oneOf (by decide))
  exact hdeclaration.opt.mul (hcommand.mul ((Plain.tok rfl).mul hcommand).kstar)

lemma plain_pipeWord (levels : Nat) : Plain (pipeWord levels) := by
  refine plain_pipeOf ?_
  induction levels with
  | zero => exact .zero
  | succ levels ih => exact plain_pipeOf ih

lemma plain_itemOf (levels : Nat) (inLoop : Bool) {blocks : Language Kind} (h : Plain blocks) :
    Plain (itemOf levels inLoop blocks) := by
  have hpipe := plain_pipeWord levels
  have hname : Plain nameWord := .oneOf (by decide)
  have hloop : Plain (if inLoop then actionWord (oneOf [.breakKeyword, .continueKeyword]) else 0) := by
    cases inLoop with
    | true => exact .action (.oneOf (by decide))
    | false => exact .zero
  have hsimple : Plain (simpleWord levels inLoop) := .add (.add (.add (.add hpipe.action (.action (.tok rfl)))
    (.action ((Plain.tok rfl).mul (hname.mul hpipe.opt)))) (.action ((Plain.tok rfl).mul hpipe.opt))) hloop
  exact ((Plain.tok rfl).add hsimple).add h

lemma plain_blockOf (levels : Nat) {items : Bool → Language Kind} (h : ∀ inLoop, Plain (items inLoop))
    (inLoop : Bool) : Plain (blockOf levels items inLoop) := by
  have hpipe := plain_pipeWord levels
  have hname : Plain nameWord := .oneOf (by decide)
  have hend : Plain endWord := .action (.tok rfl)
  have hplain : Plain (plainElse (items inLoop)) := (Plain.action (.tok rfl)).mul (h inLoop)
  have hcondition : Plain (oneOf [.ifKeyword, .withKeyword] * pipeWord levels) := (Plain.oneOf (by decide)).mul hpipe
  have hchained : Plain (chainedElse levels (items inLoop)) :=
    (Plain.action ((Plain.tok rfl).mul hcondition)).mul (h inLoop)
  exact .add (.add (.add (hcondition.action.mul ((h inLoop).mul ((hchained.kstar.mul hplain.opt).mul hend)))
    ((Plain.action ((Plain.tok rfl).mul hpipe)).mul ((h true).mul (hplain.opt.mul hend))))
    ((Plain.action ((Plain.tok rfl).mul hname)).mul ((h false).mul hend)))
    ((Plain.action ((Plain.tok rfl).mul (hname.mul hpipe.opt))).mul ((h false).mul hend))

/-- No template has a lexical error. -/
lemma plain_templateWord : Plain templateWord := by
  have hblock : ∀ levels inLoop, Plain (blockWord levels inLoop) := by
    intro levels
    induction levels with
    | zero => exact fun _ => .zero
    | succ levels ih => exact plain_blockOf levels fun inLoop => (plain_itemOf levels inLoop (ih inLoop)).kstar
  exact (plain_itemOf nestingLimit false (hblock nestingLimit false)).kstar

end GoFront.Template
