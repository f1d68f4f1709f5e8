import GoFront.Token.Template
import Mathlib.Data.List.Chain
import Mathlib.Tactic.Common

/-!
# The modes of the template lexer

Outside directives the lexer yields host text, blanks and opening markers; inside them anything but host
text and opening markers, up to the closing marker. So the kinds of the tokens tell where directives start
and end.
-/

namespace GoFront

namespace Lexeme

/-- The kinds of numbers. -/
def numberKinds : List Kind := [.intNumber, .floatNumber, .imaginaryNumber]

lemma imaginary_mem {k : Kind} (hk : k ∈ numberKinds) (n : Nat) (cs : Text) : (imaginary k n cs).1 ∈ numberKinds := by
  unfold imaginary
  split
  · exact (by decide : Kind.imaginaryNumber ∈ numberKinds)
  · exact hk

lemma scaled_mem {k : Kind} (hk : k ∈ numberKinds) (isMarker : Char → Bool) (n : Nat) (cs : Text) :
    (scaled isMarker k n cs).1 ∈ numberKinds := by
  unfold scaled
  split
  · exact imaginary_mem hk _ _
  · exact imaginary_mem (by decide) _ _

lemma hexNumber_mem (cs : Text) : (hexNumber cs).1 ∈ numberKinds := by
  unfold hexNumber
  dsimp only
  split <;> exact scaled_mem (by decide) _ _ _

lemma decimalNumber_mem (cs : Text) : (decimalNumber cs).1 ∈ numberKinds := by
  unfold decimalNumber
  dsimp only
  split <;> exact scaled_mem (by decide) _ _ _

lemma number_mem (c : Char) (cs : Text) : (number c cs).1 ∈ numberKinds := by
  unfold number
  split
  · exact scaled_mem (by decide) _ _ _
  · split
    · split
      iterate 2 exact hexNumber_mem _
      iterate 4 exact imaginary_mem (by decide) _ _
      exact decimalNumber_mem _
    · exact decimalNumber_mem _

lemma closed_mem (k unclosed : Kind) (r : Bool × Nat) : (closed k unclosed r).1 ∈ [k, unclosed] := by
  unfold closed
  cases r.1 <;> simp

lemma blockComment_mem (cs : Text) : (blockComment cs).1 ∈ [Kind.blockComment, .unterminatedComment] := by
  unfold blockComment
  split <;> simp

end Lexeme

namespace Template

/-- Kinds that no token inside a directive has, the closing marker apart. -/
def foreignKinds : List Kind := [.text, .leftDelimiter, .rightDelimiter, .endOfInput]

/-- The kinds of words. -/
def wordKinds : List Kind := .compareOperator :: .logicOperator :: .identifier :: Kind.templateKeywords

lemma wordKind_mem (w : Text) : wordKind w ∈ wordKinds := by
  unfold wordKind
  split
  · exact List.mem_cons_self
  split
  · exact List.mem_cons_of_mem _ List.mem_cons_self
  cases h : Kind.ofTemplateKeyword? w with
  | none => exact List.mem_cons_of_mem _ (List.mem_cons_of_mem _ List.mem_cons_self)
  | some k =>
    unfold Kind.ofTemplateKeyword? Kind.spelled? at h
    have hmem : k ∈ Kind.templateKeywords := List.mem_of_find?_eq_some h
    exact List.mem_cons_of_mem _ (List.mem_cons_of_mem _ (List.mem_cons_of_mem _ hmem))

/-- The kinds of operators and of punctuation. -/
def operatorKinds : List Kind :=
  [.logicOperator, .pipe, .compareOperator, .assign, .define, .leftParen, .rightParen, .comma, .badCharacter]

lemma operator_mem (c : Char) (next : Option Char) : (operator c next).1 ∈ operatorKinds := by
  unfold operator
  split_ifs <;> simp [operatorKinds]

lemma wordKind_notMem (w : Text) : wordKind w ∉ foreignKinds := by
  have hwords : ∀ k ∈ wordKinds, k ∉ foreignKinds := by decide
  exact hwords _ (wordKind_mem w)

lemma ite_notMem {p : Prop} [Decidable p] {a b : Kind × Nat} (ha : a.1 ∉ foreignKinds) (hb : b.1 ∉ foreignKinds) :
    (if p then a else b).1 ∉ foreignKinds := by
  split
  · exact ha
  · exact hb

lemma operator_notMem (c : Char) (next : Option Char) : (operator c next).1 ∉ foreignKinds := by
  have hoperators : ∀ k ∈ operatorKinds, k ∉ foreignKinds := by decide
  exact hoperators _ (operator_mem c next)

lemma closed_notMem {k unclosed : Kind} (hks : ∀ l ∈ [k, unclosed], l ∉ foreignKinds) (r : Bool × Nat) :
    (Lexeme.closed k unclosed r).1 ∉ foreignKinds :=
  hks _ (Lexeme.closed_mem k unclosed r)

lemma number_notMem (c : Char) (cs : Text) : (Lexeme.number c cs).1 ∉ foreignKinds := by
  have hnumbers : ∀ k ∈ Lexeme.numberKinds, k ∉ foreignKinds := by decide
  exact hnumbers _ (Lexeme.number_mem c cs)

lemma blockComment_notMem (cs : Text) : (Lexeme.blockComment cs).1 ∉ foreignKinds := by
  have hcomments : ∀ k ∈ [Kind.blockComment, .unterminatedComment], k ∉ foreignKinds := by decide
  exact hcomments _ (Lexeme.blockComment_mem cs)

/-- A token inside a directive is neither host text nor a marker. -/
lemma lexeme_notMem (c : Char) (cs : Text) : (lexeme c cs).1 ∉ foreignKinds := by
  have hkind : ∀ k ∈ [Kind.whitespace, .badCharacter, .field, .dot, .variable], k ∉ foreignKinds := by decide
  refine ite_notMem (hkind .whitespace (by decide)) (ite_notMem (blockComment_notMem cs) ?_)
  refine ite_notMem ?_ (ite_notMem ?_ (ite_notMem ?_ (ite_notMem (number_notMem c cs) ?_)))
  iterate 3 exact closed_notMem (by decide) _
  refine ite_notMem (ite_notMem (number_notMem c cs) ?_) (ite_notMem (ite_notMem ?_ ?_) ?_)
  · split
    · exact number_notMem _ _
    · exact hkind .badCharacter (by decide)
  · exact hkind .field (by decide)
  · exact hkind .dot (by decide)
  exact ite_notMem (hkind .variable (by decide)) (ite_notMem (wordKind_notMem _) (operator_notMem _ _))

/-! ## Alternation -/

/-- A token of a kind leads from one mode to another. -/
inductive Turns : Bool → Kind → Bool → Prop
  /-- Host text, or blanks that a marker trims. -/
  | host {k : Kind} (h : k = .whitespace ∨ k = .text) : Turns false k false
  /-- An opening marker. -/
  | opens : Turns false .leftDelimiter true
  /-- A closing marker. -/
  | closes : Turns true .rightDelimiter false
  /-- Any other token of a directive. -/
  | inner {k : Kind} (h : k ∉ foreignKinds) : Turns true k true

/-- Tokens that lead from a mode on, each with the mode after it. -/
def Alternates : Bool → List Drawn → Prop
  | _, [] => True
  | mode, t :: ts => Turns mode t.token.kind t.inAction ∧ Alternates t.inAction ts

lemma turns_textPiece (d : Delimiters) (host : HostLanguage) (trimAfter : Bool) (t : Text) :
    Turns false (textPiece d host trimAfter t).kind (textPiece d host trimAfter t).inAction := by
  unfold textPiece
  split
  · exact .host (.inl rfl)
  split
  · exact .opens
  split
  · exact .host (.inr rfl)
  split
  · dsimp only
    split
    · exact .host (.inl rfl)
    · exact .host (.inr rfl)
  · exact .host (.inr rfl)

lemma turns_actionPiece (d : Delimiters) (previous : Option Char) (c : Char) (cs : Text) :
    Turns true (actionPiece d previous c cs).kind (actionPiece d previous c cs).inAction := by
  unfold actionPiece
  split
  · exact .closes
  · exact .inner (lexeme_notMem c cs)

lemma turns_piece (d : Delimiters) (host : HostLanguage) (s : State) (c : Char) (cs : Text) :
    Turns s.inAction (piece d host s c cs).kind (piece d host s c cs).inAction := by
  unfold piece
  split
  · next h =>
    rw [h]
    exact turns_actionPiece d s.previous c cs
  · next h =>
    rw [Bool.not_eq_true] at h
    rw [h]
    exact turns_textPiece d host s.trimAfter (c :: cs)

/-- The tokens of the lexer lead from its mode on. -/
lemma alternates_scan (d : Delimiters) (host : HostLanguage) (s : State) (offset : Nat) (t : Text) :
    Alternates s.inAction (scan d host s offset t) := by
  fun_induction scan d host s offset t with
  | case1 => trivial
  | case2 s offset c cs p text ih => exact ⟨turns_piece d host s c cs, ih⟩

/-! ## Kinds -/

/-- Host text and closing markers are followed by host text and opening markers only. -/
def Follows (a b : Kind) : Prop := a = .text ∨ a = .rightDelimiter → b = .text ∨ b = .leftDelimiter

/-- The kinds of the tokens that are no blanks. -/
def significantKinds (ts : List Token) : List Kind := (ts.map Token.kind).filter (· ≠ .whitespace)

lemma significantKinds_cons (t : Token) (ts : List Token) : significantKinds (t :: ts) =
    if t.kind = .whitespace then significantKinds ts else t.kind :: significantKinds ts := by
  unfold significantKinds
  split <;> simp_all

/-- Where directives start and end can be told from the kinds. -/
lemma Alternates.kinds {mode : Bool} {ts : List Drawn} (h : Alternates mode ts) :
    (significantKinds (ts.map Drawn.token)).IsChain Follows ∧
      (∀ k ∈ significantKinds (ts.map Drawn.token), k ≠ .endOfInput) ∧
      (mode = false → ∀ k ∈ (significantKinds (ts.map Drawn.token)).head?, k = .text ∨ k = .leftDelimiter) := by
  induction ts generalizing mode with
  | nil => simp [significantKinds]
  | cons t ts ih =>
    obtain ⟨⟨kind, start, text⟩, after⟩ := t
    obtain ⟨hturn, hrest⟩ := h
    obtain ⟨hchain, hplain, hhead⟩ := ih hrest
    rw [List.map_cons, significantKinds_cons]
    dsimp only at hturn hhead ⊢
    split
    · next hblank =>
      refine ⟨hchain, hplain, fun hmode => hhead ?_⟩
      subst hmode hblank
      cases hturn with
      | host => rfl
    · next hblank =>
      refine ⟨List.isChain_cons.2 ⟨fun k hk => ?_, hchain⟩, ?_, ?_⟩
      · -- what follows host text or a closing marker is outside directives
        rintro (rfl | rfl)
        · cases hturn with
          | host => exact hhead rfl k hk
          | inner h => exact absurd (by decide) h
        · cases hturn with
          | closes => exact hhead rfl k hk
          | host h => exact absurd h (by decide)
          | inner h => exact absurd (by decide) h
      · intro k hk
        rcases List.mem_cons.1 hk with rfl | hk
        · rintro rfl
          cases hturn with
          | host h => exact absurd h (by decide)
          | inner h => exact absurd (by decide) h
        · exact hplain k hk
      · rintro rfl k hk
        obtain rfl : kind = k := by simpa using hk
        cases hturn with
        | host h => exact .inl (h.resolve_left hblank)
        | opens => exact .inr rfl

end Template

end GoFront
