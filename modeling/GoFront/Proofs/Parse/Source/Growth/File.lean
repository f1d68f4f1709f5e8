import GoFront.Proofs.Parse.Fault
import GoFront.Proofs.Parse.Source.File
import GoFront.Proofs.Parse.Source.Growth.Expression
import GoFront.Proofs.Parse.Source.Growth.Statement
import GoFront.Proofs.Tree.Stem

/-!
# The source grammar grows what it should: files

The levels of the grammar are tied together by induction. A file in which nothing is reported starts with its package
clause, and declarations and semicolons follow to its end (`Filed`); every other round of its loop reports something.
-/

namespace GoFront.Source

open GoFront.Parser

variable {ws : List Word} {f : List Sprout}

/-- On every level the productions grow what they should. -/
lemma formed_nested (levels : Nat) : (nested levels).Formed := by
  induction levels with
  | zero => exact formed_bottom
  | succ levels ih =>
    exact {
      operand := fun _ => grows_operandInner ih
      type := grows_typeInner ih
      statement := grows_statementInner ih
      literalValue := grows_literalValue ih }

/-- What can follow the package clause in a file in which nothing is reported. -/
inductive IsItem : Sprout → Prop
  /-- A semicolon. -/
  | word {w : Word} : IsItem (.word w)
  | declaration {k : Kind} {cs : List Sprout} (hk : isTopLevel k = true) : IsItem (.node k cs)

/-- The package clause: its keyword and its name. -/
inductive IsClause : Sprout → Prop
  | intro {w w' : Word} (hw : w.kind = .packageKeyword) (hw' : w'.kind = .identifier) :
    IsClause (.node .packageClause [.word w, .node .name [.word w']])

/-- What is grown at the top level, last first: the package clause and what can follow it, unless something is
reported. -/
structure Filed (f : List Sprout) : Prop where
  leaves : Leaves [] f
  items : Sprout.reportsIn f.reverse = [] → ∃ c is, f = is ++ [c] ∧ IsClause c ∧ ∀ x ∈ is, IsItem x

lemma Reported.filed (hf : Reported f) : Filed f := ⟨hf.leaves, fun hclean => absurd hclean hf.reports⟩

lemma Filed.cons {x : Sprout} (hf : Filed f) (hx : Leaves [] [x]) (hitem : IsItem x) : Filed (x :: f) := by
  refine ⟨hx.cons hf.leaves, fun hclean => ?_⟩
  rw [List.reverse_cons, Sprout.reportsIn_append, List.append_eq_nil_iff] at hclean
  obtain ⟨c, is, rfl, hc, his⟩ := hf.items hclean.1
  exact ⟨c, x :: is, rfl, hc, List.forall_mem_cons.2 ⟨hitem, his⟩⟩

lemma Filed.tops {f' : List Sprout} (hf : Filed f) (h : Tops IsTopLevel f f') : Filed f' := by
  obtain ⟨x, rfl, hx, ⟨hk⟩⟩ := h
  exact hf.cons hx (.declaration hk)

lemma Filed.eat (hf : Filed f) : Grows ws f (eat .semicolon) fun _ _ f' => Filed f' := by
  have h : Grows ws f (Parser.eat .semicolon >>= pure) fun _ _ f' => Filed f' :=
    .ifEat (by decide) (fun w _ _ hw => .pure (hf.cons (Leaves.nil.word (hw ▸ rfl)) .word)) fun _ => .pure hf
  rwa [bind_pure] at h

lemma grows_packageClause : Grows ws [] packageClause fun _ _ f' => Filed f' := by
  refine .ite (.isAt _) (fun h => ?_) fun _ => (Reported.expected formedIn_nil).mono fun _ _ _ hf => hf.filed
  refine .bind (Q := fun _ _ f' => Filed f') (.node ?_) fun _ _ _ hf => hf.eat.andPure fun _ _ _ hf => hf
  refine .take (K := (· = .packageKeyword)) h (by decide) fun w _ _ hw => ?_
  have hkeyword : Leaves [] [.word w] := Leaves.nil.word (hw ▸ rfl)
  refine .ite (.isAt _) (fun h => .node ?_) fun _ => .expected fun k r => ?_
  · -- Both words are there.
    refine .advance_of_kindAt (K := (· = .identifier)) h (by decide) fun w' _ _ hw' => ?_
    have hname : Leaves [] [.node .name [.word w']] :=
      (Leaves.nil.word (w := w') (hw' ▸ rfl)).plainNode rfl
    exact ⟨(hname.cons hkeyword).plainNode rfl, fun _ => ⟨_, [], rfl, .intro hw hw', by simp⟩⟩
  · generalize Problem.expected _ k = e
    have hreported : Reported [.error e r, .word w] := .error hkeyword.formed
    have hleaves : Leaves [] [.node .packageClause [.word w, .error e r]] := hreported.leaves.plainNode rfl
    exact ⟨hleaves, fun hclean => absurd hclean (by simp [Sprout.reportsIn, Sprout.reports])⟩

lemma grows_skipToDeclaration (hf : Filed f) : Grows ws f skipToDeclaration fun _ _ f' => Filed f' := by
  refine .node ((Reported.expected formedIn_nil).bind fun _ _ _ hg => hg.advance.bind fun _ _ _ hg => ?_)
  refine .repeatWhile (I := fun _ g => Reported g) hg fun _ _ hg => .ite ((Asks.isAt _).or
    ((asks_startsDeclaration 0).or ((Asks.isAt _).and (asks_startsDeclaration 1)))) (fun _ => ?_) fun _ => ?_
  · exact .pure ⟨Bool.noConfusion, fun _ => (hg.node hf.leaves.formed).filed⟩
  · exact hg.advance.andPure fun _ _ _ hg => ⟨fun _ => hg, Bool.noConfusion⟩

lemma grows_misplacedPackage (hf : Filed f) : Grows ws f misplacedPackage fun _ _ f' => Filed f' := by
  refine .node ((Reported.fault formedIn_nil).bind fun _ _ _ hg => hg.advance.bind fun _ _ _ hg => ?_)
  refine .ifEat (by decide) (fun _ _ _ _ => .pure ?_) fun _ => .pure ?_
  · exact ((hg.cons (x := .word _) trivial).node hf.leaves.formed).filed
  · exact (hg.node hf.leaves.formed).filed

lemma grows_topLevel (hf : Filed f) : Grows ws f topLevel fun _ _ f' => Filed f' := by
  have htop : top.Formed := formed_nested nestingLimit
  refine .bind (Q := fun _ _ f' => Filed f') (.peek ?_) fun _ _ _ hf => hf.eat.discard fun _ _ _ hf => hf
  split
  · next h => exact (grows_declare h rfl grows_importSpec).mono fun _ _ _ h => hf.tops h
  · next h => exact (grows_functionDeclaration htop h).mono fun _ _ _ h => hf.tops h
  iterate 3
    · exact (grows_declaration htop).mono fun _ _ _ h => hf.tops h
  · next h =>
    refine .advance_of_kindAt (K := (· = .semicolon)) h (by decide) fun w _ _ hw => ?_
    exact hf.cons (Leaves.nil.word (hw ▸ rfl)) .word
  · exact grows_misplacedPackage hf
  · exact grows_skipToDeclaration hf

/-- A file is read to its end. -/
lemma grows_file : Grows ws [] file fun _ ws' f' => kindAt ws' 0 = .endOfInput ∧ Filed f' := by
  refine grows_packageClause.bind fun _ _ _ hf => .repeatWhile (I := fun _ f => Filed f) hf fun _ _ hf => ?_
  refine .ite (.isAt _) (fun hend => .pure ⟨Bool.noConfusion, fun _ => ⟨hend, hf⟩⟩) fun _ => ?_
  exact (grows_topLevel hf).andPure fun _ _ _ hf => ⟨fun _ => hf, Bool.noConfusion⟩

/-- No token is the end of the input. -/
lemma kind_ne_endOfInput {text : Text} {w : Word} (hw : w ∈ (Words.ofTokens Kind.isTrivia (tokens text)).words) :
    w.kind ≠ .endOfInput := by
  have htoken := List.mem_map_of_mem (f := Word.token) hw
  rw [Words.tokens_ofTokens] at htoken
  exact (sane_scan {} 0 text _ (List.mem_of_mem_filter htoken)).ends

/-- The parser ends a source file in a sound state. -/
lemma sound_file_run (text : Text) : (file.run (.start Kind.isTrivia text 0 (tokens text))).2.Sound := by
  have hlimit : 2 + 66 * nestingLimit + 68 ≤ lookLimit := by decide
  exact sound_of_fits (b := topFrame ⟨0, text.size⟩) (covers_tokens text) rfl rfl fits_file (by decide) hlimit

/-- Every source file is read to its end, and what is grown from it has the right form. -/
lemma filed_file_run (text : Text) : (file.run (.start Kind.isTrivia text 0 (tokens text))).2.rest = [] ∧
    Filed (file.run (.start Kind.isTrivia text 0 (tokens text))).2.grown := by
  obtain ⟨hend, hfiled⟩ := grows_file _ rfl rfl (sound_file_run text).calm
  refine ⟨?_, hfiled⟩
  obtain ⟨taken, htaken, -⟩ := (file.forward (.start Kind.isTrivia text 0 (tokens text))).moved
  by_contra hne
  obtain ⟨w, ws, hrest⟩ := List.exists_cons_of_ne_nil hne
  rw [hrest] at hend htaken
  have hmem : w ∈ (Words.ofTokens Kind.isTrivia (tokens text)).words := by
    rw [show (Words.ofTokens Kind.isTrivia (tokens text)).words = _ from htaken]
    simp
  exact kind_ne_endOfInput hmem hend

/-! ## The tree of a file -/

/-- If nothing is wrong with a file, nothing is reported in what is grown from it, and no token stands for a lexical
error. -/
lemma quiet_of_errors_nil {text : Text} (h : (parse text).errors = []) :
    Sprout.reportsIn (file.run (.start Kind.isTrivia text 0 (tokens text))).2.grown.reverse = [] ∧
      ∀ t ∈ tokens text, t.kind.isLexicalError = false := by
  have hlimit : 2 + 66 * nestingLimit + 68 ≤ lookLimit := by decide
  exact quiet_of_fits (b := topFrame ⟨0, text.size⟩) (covers_tokens text) rfl rfl fits_file (by decide) hlimit h

/-- The tree of a file has the stem of what is grown from it. -/
lemma stemsIn_parse (text : Text) : Element.stemsIn Kind.isTrivia (parse text).root.children =
    Sprout.stemsIn (file.run (.start Kind.isTrivia text 0 (tokens text))).2.grown.reverse := by
  rw [parse]
  exact stem_tree (filed_file_run text).1

lemma kind_root_parse (text : Text) : (parse text).root.kind = .sourceFile := (covers_parse text).2.kind

/-- In the tree of a file the operands are grouped by the strength of their operators. -/
lemma grouped_parse (text : Text) :
    ∀ n ∈ (parse text).root.descendants, Stem.All Grouped (n.stem Kind.isTrivia) := by
  refine Node.forall_descendants ?_ ?_
  · rw [kind_root_parse]
    trivial
  rw [stemsIn_parse]
  exact groupedIn_of_formedIn _ (formedIn_reverse (filed_file_run text).2.leaves.formed)

/-- In the tree of a file without errors no node stands for an error, and no operand is missing. -/
lemma clean_parse {text : Text} (h : (parse text).errors = []) :
    ∀ n ∈ (parse text).root.descendants, Stem.All Clean (n.stem Kind.isTrivia) := by
  refine Node.forall_descendants ?_ ?_
  · rw [kind_root_parse]
    exact ⟨nofun, nofun⟩
  rw [stemsIn_parse]
  exact cleanIn_of_formedIn _ (formedIn_reverse (filed_file_run text).2.leaves.formed) (quiet_of_errors_nil h).1

end GoFront.Source
