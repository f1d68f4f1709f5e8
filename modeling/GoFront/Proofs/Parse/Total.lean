import GoFront.Proofs.Parse.Effort
import GoFront.Proofs.Tree.Replay

/-!
# A parser that fits has a tree

The words of a text are in order, so a parser starts in a sound state. If it fits, it ends in one, and
what it has grown can be replayed into a tree that covers the text.
-/

namespace GoFront

lemma Token.Tile.right {n : Nat} {ts us : List Token} (h : Tile n (ts ++ us)) : ∃ m, n ≤ m ∧ Tile m us := by
  induction ts generalizing n with
  | nil => exact ⟨n, Nat.le_refl n, h⟩
  | cons t ts ih =>
    cases h with
    | cons h =>
      obtain ⟨m, hm, hus⟩ := ih h
      exact ⟨m, Nat.le_trans (Nat.le_add_right _ _) hm, hus⟩

namespace Parser

/-- Words whose tokens tile a stretch are in order. -/
lemma ordered_of_tile {ws : List Word} (tail : List Token) {n stop : Nat} (hn : n ≤ stop)
    (h : Token.Tile n (Words.mk ws tail).toTokens) (hstop : ∀ w ∈ ws, w.token.stop ≤ stop) :
    Ordered stop n ws := by
  induction ws generalizing n with
  | nil => exact hn
  | cons w ws ih =>
    simp only [Words.toTokens, List.flatMap_cons, List.append_assoc, List.cons_append] at h
    obtain ⟨m, hm, htile⟩ := h.right
    cases htile with
    | cons hrest => exact ⟨hm, ih (hstop w (by simp)) hrest fun v hv => hstop v (by simp [hv])⟩

/-- A parser starts in a sound state. -/
lemma sound_start {offset : Nat} {text : Text} {ws : Words} (h : Token.Covers offset text ws.toTokens) :
    State.Sound { span := ⟨offset, text.size⟩, rest := ws.words } where
  calm := rfl
  start := Nat.le_refl offset
  ordered := by
    refine ordered_of_tile ws.tail (Nat.le_add_right offset text.size) h.tile fun w hw => ?_
    refine (Span.covers_iff.1 (h.inside w.token ?_)).2
    exact List.mem_append_left _ (List.mem_flatMap.2 ⟨w, hw, by simp⟩)
  proper := by simp

section

variable {isTrivia : Kind → Bool} {body : Parser Unit} {text : Text} {offset : Nat} {ts : List Token} {b : Frame}
  {a c : Nat} (hts : Token.Covers offset text ts) (hspan : b.span = ⟨offset, text.size⟩) (hfloor : b.floor = 0)
  (hfits : ∀ {ws}, Fits b ws body anyway a c) (ha : a ≤ lookLimit) (hc : b.base + c ≤ lookLimit)

include hts hspan hfloor hfits ha hc

/-- A parser for the parts of the outermost node that fits ends in a sound state. -/
lemma sound_of_fits : (body.run (.start isTrivia text offset ts)).2.Sound := by
  have hcover : Token.Covers offset text (Words.ofTokens isTrivia ts).toTokens := by
    rwa [Words.toTokens_ofTokens]
  exact (hfits (.start isTrivia text offset ts) (sound_start hcover) hspan.symm rfl (hfloor ▸ Nat.zero_le _)
    (by simpa using ha) hc).1

/-- The errors that it finds lie in the text, and a grammar can find them. -/
lemma proper_of_fits : ∀ e ∈ Sprout.errorsIn (body.run (.start isTrivia text offset ts)).2.grown.reverse,
    Proper ⟨offset, text.size⟩ e := by
  intro e he
  obtain ⟨x, hx, hex⟩ := Sprout.mem_errorsIn.1 he
  have := (sound_of_fits hts hspan hfloor hfits ha hc).proper x (List.mem_reverse.1 hx) e hex
  rwa [(body.forward _).span] at this

end

/-- A parser for the parts of the outermost node that fits gives a tree, and the tree covers the text. -/
lemma tree?_eq_ok_of_fits (k : Kind) (isTrivia : Kind → Bool) {body : Parser Unit} {text : Text}
    {offset : Nat} {ts : List Token} {b : Frame} {a c : Nat} (hts : Token.Covers offset text ts)
    (hspan : b.span = ⟨offset, text.size⟩) (hfloor : b.floor = 0)
    (hfits : ∀ {ws}, Fits b ws body anyway a c) (ha : a ≤ lookLimit) (hc : b.base + c ≤ lookLimit) :
    body.tree? k isTrivia text offset ts = .ok (body.tree k isTrivia text offset ts) ∧
      (body.tree k isTrivia text offset ts).Covers k ⟨offset, text.size⟩ ts := by
  let ws := Words.ofTokens isTrivia ts
  have hws : ws.toTokens = ts := Words.toTokens_ofTokens isTrivia ts
  have hcover : Token.Covers offset text ws.toTokens := hws ▸ hts
  let start : State := .start isTrivia text offset ts
  have hsound : (body.run start).2.Sound := sound_of_fits hts hspan hfloor hfits ha hc
  -- The errors lie in the text, and no more words were grown than there are.
  have herrors : ∀ e ∈ Sprout.errorsIn (body.run start).2.grown.reverse,
      Span.covers ⟨offset, text.size⟩ e.2 :=
    fun e he => (proper_of_fits hts hspan hfloor hfits ha hc e he).inside
  have hcount : (Sprout.wordsIn (body.run start).2.grown.reverse).length ≤ ws.words.length := by
    obtain ⟨taken, hrest, hgrown, -⟩ := (body.forward start).moved
    have hlen := congrArg List.length hrest
    have hstart : start.grownWords = [] := rfl
    change (body.run start).2.grownWords.length ≤ _
    rw [hgrown, hstart, List.nil_append]
    have hall : start.rest.length = ws.words.length := rfl
    simp only [List.length_append] at hlen
    omega
  constructor
  · rw [Parser.tree?]
    split
    · next p hp => exact absurd (hp.symm.trans hsound.calm) (by simp)
    · exact Sprout.tree?_eq_ok hcover hcount herrors
  · have hcovers := Sprout.covers_tree (k := k) hcover herrors
    rw [hws] at hcovers
    exact hcovers

end Parser

end GoFront
