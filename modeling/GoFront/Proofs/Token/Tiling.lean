import GoFront.Token.Source
import GoFront.Token.Template
import Mathlib.Tactic.Common

/-!
# The tokens of a text tile it

Both lexers go through a text from front to back and cut off one piece after the other, so the tokens
they yield follow one another without gap, and their characters are the characters of the text. The
semicolon that a lexer supplies without a character of its own is the only token that may be empty.

`Token.Covers` is the statement for a text at an offset; the lexers are shown to meet it from any state.
-/

namespace GoFront

/-- A place between two characters of a text, or at one of its ends. -/
def Text.IsBoundary (t : Text) (n : Nat) : Prop := ∃ x y : Text, t = x ++ y ∧ x.size = n

lemma Text.isSome_cut?_iff {t : Text} {n : Nat} : (t.cut? n).isSome ↔ t.IsBoundary n := by
  constructor
  · intro h
    obtain ⟨⟨x, y⟩, hcut⟩ := Option.isSome_iff_exists.1 h
    obtain ⟨ht, hx⟩ := Text.eq_append_of_cut? hcut
    exact ⟨x, y, ht, hx⟩
  · rintro ⟨x, y, rfl, rfl⟩
    rw [Text.cut?_append]
    rfl

/-- Behind some of the characters of a text, the places are those of the rest. -/
lemma Text.isBoundary_append {x y : Text} {n : Nat} : (x ++ y).IsBoundary (x.size + n) ↔ y.IsBoundary n := by
  constructor
  · rintro ⟨u, v, huv, hu⟩
    rcases List.append_eq_append_iff.1 huv with ⟨w, rfl, hy⟩ | ⟨w, rfl, rfl⟩
    · exact ⟨w, v, hy, by simpa using hu⟩
    · simp only [Text.size_append] at hu
      exact ⟨[], y, rfl, by simp only [Text.size_nil]; omega⟩
  · rintro ⟨u, v, rfl, rfl⟩
    exact ⟨x ++ u, v, by simp, by simp⟩

lemma Span.covers_iff {s t : Span} : s.covers t ↔ s.start ≤ t.start ∧ t.stop ≤ s.stop := by
  simp [covers]

namespace Token

/-- Tokens that follow one another from an offset on and hold the characters of a text. -/
structure Covers (offset : Nat) (text : Text) (ts : List Token) : Prop where
  /-- The tokens follow one another. -/
  tile : Tile offset ts
  /-- The tokens hold the characters of the text, in order. -/
  chars : ts.flatMap Token.text = text

lemma Tile.start_eq {t : Token} {ts : List Token} {n : Nat} (h : Tile n (t :: ts)) : t.start = n := by
  generalize hts : t :: ts = us at h
  cases h with
  | nil => cases hts
  | cons => rw [(List.cons.inj hts).1]

lemma Tile.tail {t : Token} {ts : List Token} {n : Nat} (h : Tile n (t :: ts)) : Tile t.stop ts := by
  cases h with
  | cons h => exact h

lemma Tile.append {n : Nat} {ts us : List Token} (h : Tile n ts)
    (k : Tile (n + Text.size (ts.flatMap Token.text)) us) : Tile n (ts ++ us) := by
  induction h with
  | nil n => simpa using k
  | @cons t ts _ ih =>
    refine .cons (ih ?_)
    simpa [stop, Nat.add_assoc] using k

lemma Tile.left {n : Nat} {ts us : List Token} (h : Tile n (ts ++ us)) : Tile n ts := by
  induction ts generalizing n with
  | nil => exact .nil n
  | cons t ts ih =>
    cases h with
    | cons h => exact .cons (ih h)

/-- What follows some of them starts behind their characters. -/
lemma Tile.behind {n : Nat} {ts us : List Token} (h : Tile n (ts ++ us)) :
    Tile (n + Text.size (ts.flatMap Token.text)) us := by
  induction ts generalizing n with
  | nil => exact h
  | cons t ts ih =>
    cases h with
    | cons h => simpa [stop, Nat.add_assoc] using ih h

/-- Each of them lies between the start of the first and the end of the last. -/
lemma Tile.bounds {n : Nat} {ts : List Token} (h : Tile n ts) :
    ∀ t ∈ ts, n ≤ t.start ∧ t.stop ≤ n + Text.size (ts.flatMap Token.text) := by
  induction h with
  | nil => simp
  | @cons t ts _ ih =>
    intro u hu
    simp only [List.flatMap_cons, Text.size_append]
    rcases List.mem_cons.1 hu with rfl | hu
    · exact ⟨Nat.le_refl _, by simp only [stop]; omega⟩
    · obtain ⟨ha, hb⟩ := ih u hu
      simp only [stop] at ha hb ⊢
      exact ⟨by omega, by omega⟩

namespace Covers

lemma nil (offset : Nat) : Covers offset [] [] := ⟨.nil offset, rfl⟩

/-- One token covers its own characters. -/
lemma single (t : Token) : Covers t.start t.text [t] := ⟨.cons (.nil _), by simp⟩

/-- The tokens of two texts that follow one another. -/
lemma append {offset : Nat} {text text' : Text} {ts us : List Token} (h : Covers offset text ts)
    (k : Covers (offset + text.size) text' us) : Covers offset (text ++ text') (ts ++ us) :=
  ⟨h.tile.append (by rw [h.chars]; exact k.tile), by simp [h.chars, k.chars]⟩

/-- A token, and the tokens of what follows it. -/
lemma cons {t : Token} {text : Text} {ts : List Token} (h : Covers t.stop text ts) :
    Covers t.start (t.text ++ text) (t :: ts) := (single t).append h

/-- The tokens that cover a text lie inside it. -/
lemma inside {offset : Nat} {text : Text} {ts : List Token} (h : Covers offset text ts) :
    ∀ t ∈ ts, Span.covers ⟨offset, text.size⟩ t.span := by
  intro t ht
  have hb := h.tile.bounds t ht
  rw [h.chars] at hb
  exact Span.covers_iff.2 hb

end Covers

end Token

namespace Source

open Token

/-- The tokens for one piece of text cover it: an empty semicolon adds nothing. -/
lemma covers_step (s : State) (offset : Nat) (kind : Kind) (text : Text) :
    Covers offset text (s.step offset kind text).1 := by
  unfold State.step
  split
  · exact .single ⟨.semicolon, offset, text⟩
  · split
    · simpa using (Covers.single ⟨kind, offset, text⟩).append (.single ⟨.semicolon, _, []⟩)
    · split <;> exact .single ⟨kind, offset, text⟩

/-- From any state on, the tokens of a text cover it. -/
lemma covers_scan (s : State) (offset : Nat) (text : Text) : Covers offset text (scan s offset text) := by
  fun_induction scan s offset text with
  | case1 => exact .single ⟨.semicolon, _, []⟩
  | case2 => exact .nil _
  | case3 s offset c cs kind n _ piece ts s' h ih =>
    have hstep : Covers offset piece ts := by simpa only [h] using covers_step s offset kind piece
    have := hstep.append ih
    simpa [piece] using this

/-- The tokens of a source file cover it. -/
lemma covers_tokens (text : Text) : Covers 0 text (tokens text) := covers_scan {} 0 text

end Source

namespace Template

open Token

/-- Any stretch of a text between two of its characters can be cut out. -/
lemma slice?_append (before piece after : Text) :
    Text.slice? before.size (before.size + piece.size) (before ++ piece ++ after) = some piece := by
  have hsize : before.size + piece.size - before.size = piece.size := by omega
  simp [Text.slice?, List.append_assoc, Text.cut?_append, hsize]

/-- From any state on, the tokens of a text cover it. -/
lemma covers_scan (d : Delimiters) (host : HostLanguage) (s : State) (offset : Nat) (text : Text) :
    Covers offset text ((scan d host s offset text).map Drawn.token) := by
  fun_induction scan d host s offset text with
  | case1 => exact .nil _
  | case2 s offset c cs p piece ih =>
    have := Covers.cons (t := ⟨p.kind, offset, piece⟩) ih
    simpa [piece] using this

/-- The tokens of a piece of a document cover it. -/
lemma covers_tokens (d : Delimiters) (host : HostLanguage) (offset : Nat) (text : Text) :
    Covers offset text (tokens d host offset text) := covers_scan d host {} offset text

end Template

end GoFront
