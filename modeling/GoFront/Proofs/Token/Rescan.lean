import GoFront.Document.Region
import GoFront.Proofs.Token.Marker
import GoFront.Proofs.Token.Tiling

/-!
# Scanning a directive on its own

The regions of a template are cut from its tokens, and each directive is scanned once more on its own. The
second scan starts afresh and does not see what follows, but it yields the same tokens: the characters of a
directive end with a closing marker, and behind that the lexer is where it is at the start of a text. This
fails only when the closing marker is a single point, since a number in front of two points is cut there: on
its own, the number takes the marker (`Recut`).

`recut_extent` is the statement for the first directive of a text, `tokens_extent` the one that leaves out the
single point, `tokens_dropText` that for the markup in front of it.
-/

namespace GoFront.Template

variable {d : Delimiters} {host : HostLanguage} {s : State} {offset : Nat}

/-! ## One token -/

/-- The tokens of a text whose first token is given. -/
lemma scan_step {c : Char} {a z : Text} {p : Piece} (hp : piece d host s c (a ++ z) = p)
    (ha : a.length = p.length - 1) : scan d host s offset (c :: (a ++ z)) =
      ⟨⟨p.kind, offset, c :: a⟩, p.inAction⟩ ::
        scan d host ⟨p.inAction, p.trims, (c :: a).getLast?⟩ (offset + Text.size (c :: a)) z := by
  rw [scan, hp]
  simp only [← ha, List.take_left, List.drop_left]

/-- The first token of a text, and what follows it. -/
lemma scan_eq_cons {t : Text} {u : Drawn} {us : List Drawn} (h : scan d host s offset t = u :: us) :
    ∃ c a z, t = c :: (a ++ z) ∧
      a.length = min ((piece d host s c (a ++ z)).length - 1) (a.length + z.length) ∧
      u = ⟨⟨(piece d host s c (a ++ z)).kind, offset, c :: a⟩, (piece d host s c (a ++ z)).inAction⟩ ∧
      us = scan d host ⟨(piece d host s c (a ++ z)).inAction, (piece d host s c (a ++ z)).trims, (c :: a).getLast?⟩
        (offset + Text.size (c :: a)) z := by
  rcases t with _ | ⟨c, cs⟩
  · rw [scan] at h
    simp at h
  · rw [scan] at h
    obtain ⟨hu, hus⟩ := List.cons.inj h
    refine ⟨c, cs.take ((piece d host s c cs).length - 1), cs.drop ((piece d host s c cs).length - 1), ?_⟩
    rw [List.take_append_drop]
    refine ⟨rfl, ?_, hu.symm, hus.symm⟩
    rw [← List.length_append, List.take_append_drop, List.length_take]

/-- A closing marker is one whatever follows it. -/
lemma piece_close {c : Char} {a z : Text} (hkind : (piece d host s c (a ++ z)).kind = .rightDelimiter)
    (ha : a.length = min ((piece d host s c (a ++ z)).length - 1) (a.length + z.length)) :
    s.inAction = true ∧ ∃ trims, c :: a = closingMarker d trims ∧
      ∀ x, piece d host s c (a ++ x) = ⟨.rightDelimiter, a.length + 1, false, trims⟩ := by
  have hmode : s.inAction = true := by
    have hturn := turns_piece d host s c (a ++ z)
    rw [hkind] at hturn
    generalize s.inAction = mode, (piece d host s c (a ++ z)).inAction = mode' at hturn
    cases hturn with
    | host h => exact absurd h (by decide)
    | closes => rfl
    | inner h => rfl
  refine ⟨hmode, ?_⟩
  have hpiece : ∀ x, piece d host s c (a ++ x) = actionPiece d s.previous c (a ++ x) := by
    intro x
    rw [piece, if_pos hmode]
  rw [hpiece z] at hkind ha
  rcases actionPiece_cases d s.previous c (a ++ z) with ⟨n, trims, hm, he⟩ | ⟨-, hk, -⟩
  · rw [he] at ha
    dsimp only at ha
    obtain ⟨hn, hstarts⟩ := rightMarker?_eq_some hm
    have hpos : 0 < n := by
      rw [hn, List.length_pos_iff, closingMarker]
      split
      · exact List.cons_ne_nil _ _
      · exact d.right_ne_nil
    have hle : n ≤ a.length + z.length + 1 := by
      have := hstarts.length_le
      simp only [List.length_cons, List.length_append] at this
      omega
    have hlen : a.length + 1 = n := by omega
    have hmarker : c :: a = closingMarker d trims := by
      rw [← List.cons_append] at hstarts
      refine ((List.prefix_of_prefix_length_le hstarts (List.prefix_append _ _) ?_).eq_of_length ?_).symm
      · simp only [List.length_cons]; omega
      · simp only [List.length_cons]; omega
    refine ⟨trims, hmarker, fun x => ?_⟩
    have hshort : rightMarker? d s.previous (c :: a) = some (n, trims) :=
      rightMarker?_append (x := c :: a) hm (by rw [List.length_cons]; omega)
    have hlong : rightMarker? d s.previous (c :: (a ++ x)) = some (n, trims) := rightMarker?_extend x hshort
    rw [hpiece x, actionPiece, hlong, hlen]
  · exact absurd (hkind ▸ by decide) hk

/-- A token inside a directive does not depend on what follows the rest of the directive, unless it is a number and
the rest is the first of two points: the number takes that point, then. -/
lemma piece_inside {c : Char} {a x y : Text} (hmode : s.inAction = true)
    (ha : a.length = (piece d host s c (a ++ (x ++ y))).length - 1) (hx : x ≠ []) :
    piece d host s c (a ++ x) = piece d host s c (a ++ (x ++ y)) ∨
      x = ['.'] ∧ (piece d host s c (a ++ (x ++ y))).kind ∈ Lexeme.numberKinds ∧
        ∃ k ∈ Lexeme.numberKinds, piece d host s c (a ++ x) = ⟨k, (a ++ x).length + 1, true, false⟩ := by
  rw [piece, piece, if_pos hmode, if_pos hmode, ← List.append_assoc]
  rw [piece, if_pos hmode, ← List.append_assoc] at ha
  have hpos := List.length_pos_iff.2 hx
  rcases actionPiece_cases d s.previous c (a ++ x ++ y) with ⟨n, trims, hm, he⟩ | ⟨hm, -, he⟩
  · left
    apply actionPiece_append
    · simp only [List.length_cons, List.length_append]
      omega
    · exact fun hk => absurd (by rw [he]) hk
  · rw [he] at ha ⊢
    have hlen : (lexeme c (a ++ x ++ y)).2 < (a ++ x).length := by
      simp only [List.length_append]
      dsimp only at ha
      omega
    have hnone := rightMarker?_eq_none (x := c :: (a ++ x)) hm
    rcases lexeme_cut hlen with heq | ⟨hdrop, hall, hk, hk'⟩
    · left
      rw [actionPiece, hnone, heq]
    · right
      have hpoint : (a ++ x).drop (lexeme c (a ++ x ++ y)).2 = x := List.drop_left' (by simpa using ha)
      exact ⟨hpoint.symm.trans hdrop, hk', _, hk, by rw [actionPiece, hnone, hall]⟩

/-- A marker that opens a directive, and one more character behind it, within a piece of a text. -/
def HoldsMarker (d : Delimiters) (x y : Text) : Prop :=
  ∃ q m trims, leftMarker? d ((x ++ y).drop q) = some (m, trims) ∧ q + m < x.length

/-- A token outside directives does not depend on what follows the next directive. -/
lemma piece_outside {c : Char} {a x y : Text} (hmode : s.inAction = false)
    (ha : a.length = (piece d host s c (a ++ (x ++ y))).length - 1) (hx : x ≠ [])
    (hmarker : (piece d host s c (a ++ (x ++ y))).inAction = false → HoldsMarker d x y) :
    piece d host s c (a ++ x) = piece d host s c (a ++ (x ++ y)) ∧ HoldsMarker d (c :: (a ++ x)) y := by
  have hpos := List.length_pos_iff.2 hx
  -- a marker behind the token is one behind the rest, too
  have hlater : HoldsMarker d x y → HoldsMarker d (c :: (a ++ x)) y := by
    rintro ⟨q, m, trims, hm, hlt⟩
    refine ⟨(c :: a).length + q, m, trims, ?_, by simp only [List.length_cons, List.length_append]; omega⟩
    rw [← List.cons_append, List.append_assoc, ← List.drop_drop, List.drop_left]
    exact hm
  rw [piece, piece, if_neg (by simp [hmode]), if_neg (by simp [hmode])]
  rw [piece, if_neg (by simp [hmode])] at ha hmarker
  by_cases hblank : s.trimAfter = true ∧ isTrimSpace c = true
  · obtain ⟨htrim, hc⟩ := hblank
    rw [htrim, textPiece_of_blank hc] at ha hmarker
    rw [htrim, textPiece_of_blank hc, textPiece_of_blank hc]
    refine ⟨?_, hlater (hmarker rfl)⟩
    have hrun : Lexeme.run isTrimSpace (c :: (a ++ x) ++ y) ≤ (c :: (a ++ x)).length := by
      simp only [List.cons_append, List.append_assoc, List.length_cons, List.length_append]
      dsimp only at ha
      omega
    rw [Lexeme.run_append hrun, List.cons_append, List.append_assoc]
  · rw [textPiece_of_noBlank hblank] at ha hmarker
    rw [textPiece_of_noBlank hblank, textPiece_of_noBlank hblank]
    have hassoc : c :: (a ++ (x ++ y)) = c :: (a ++ x) ++ y := by
      rw [List.cons_append, List.append_assoc]
    rw [hassoc] at ha hmarker ⊢
    cases hleft : leftMarker? d (c :: (a ++ x) ++ y) with
    | some p =>
      obtain ⟨n, trims⟩ := p
      rw [textPiece_of_marker hleft] at ha ⊢
      dsimp only at ha
      have hlt : n < (c :: (a ++ x)).length := by
        simp only [List.length_cons, List.length_append]
        omega
      refine ⟨textPiece_of_marker (leftMarker?_append hleft hlt), 0, n, trims, hleft, by omega⟩
    | none =>
      obtain ⟨q, m, trims, hm, hlt⟩ := hmarker (inAction_textPiece hleft host false)
      have hm' : leftMarker? d ((c :: (a ++ x) ++ y).drop ((c :: a).length + q)) = some (m, trims) := by
        rw [← List.cons_append, List.append_assoc, ← List.drop_drop, List.drop_left]
        exact hm
      refine ⟨textPiece_append hleft hm' ?_ ?_, hlater ⟨q, m, trims, hm, hlt⟩⟩
      · simp only [List.length_cons, List.length_append]
        omega
      · simp only [List.length_cons]
        omega

/-! ## The tokens of a directive -/

/-- Tokens that end with a closing marker, and with the blanks behind it if it trims. -/
inductive Settles (d : Delimiters) : List Token → Prop
  /-- The closing marker. -/
  | close {t : Token} (h : t.kind = .rightDelimiter) : Settles d [t]
  /-- The closing marker, and the blanks it trims. -/
  | blank {t u : Token} (h : t.kind = .rightDelimiter) (htrim : t.text.size = d.right.size + 1)
    (hu : u.kind = .whitespace) : Settles d [t, u]
  /-- One more token in front. -/
  | cons {t : Token} {ts : List Token} (h : Settles d ts) : Settles d (t :: ts)

/-- Tokens, and those that are left of their characters on their own: the same, or, if the closing marker is a point
that a number takes, the number instead of both. -/
inductive Recut (d : Delimiters) : List Token → List Token → Prop
  /-- The same tokens. -/
  | same (ts : List Token) : Recut d ts ts
  /-- A number that takes the point behind it. -/
  | number {n r n' : Token} (hpoint : d.right = ['.']) (hn : n.kind ∈ Lexeme.numberKinds)
    (hn' : n'.kind ∈ Lexeme.numberKinds) (hr : r.kind = .rightDelimiter) : Recut d [n, r] [n']
  /-- One more token in front. -/
  | cons {t : Token} {ts us : List Token} (h : Recut d ts us) : Recut d (t :: ts) (t :: us)

/-- Only a closing marker that is a point can be taken. -/
lemma Recut.eq {ts us : List Token} (h : Recut d ts us) (hright : d.right ≠ ['.']) : us = ts := by
  induction h with
  | same => rfl
  | number hpoint => exact absurd hpoint hright
  | cons _ ih => rw [ih]

/-- A text is cut in two where some of its first tokens end: they are the tokens of the first part, and the
others are those of the second, behind a state outside directives. -/
structure Cut (d : Delimiters) (host : HostLanguage) (s : State) (offset : Nat) (first rest : List Drawn)
    (x y : Text) : Prop where
  /-- The first part holds the first tokens. -/
  first_eq : Recut d (first.map Drawn.token) ((scan d host s offset x).map Drawn.token)
  /-- The first tokens have the characters of the first part. -/
  chars : charsOf (first.map Drawn.token) = x
  /-- The second part holds the others. If it follows a closing marker that trims, that marker is the last of
  the first tokens. -/
  rest_eq : ∃ s', s'.inAction = false ∧ scan d host s' (offset + x.size) y = rest ∧
    (s'.trimAfter = true → ∃ u ∈ first.getLast?, u.token.kind = .rightDelimiter ∧
      u.token.text.size = d.right.size + 1)
  /-- The first part is not empty. -/
  ne_nil : x ≠ []
  /-- The first part is a point only if that is the closing marker. -/
  point : x = ['.'] → d.right = ['.'] ∧ ∃ u, first = [u] ∧ u.token.kind = .rightDelimiter
  /-- From outside directives, the first part holds a marker that opens one. -/
  marker : s.inAction = false → HoldsMarker d x y

/-- Scanning a closing marker on its own gives that marker again. -/
lemma cut_close {s : State} {t : Text} {u : Drawn} {rest : List Drawn} (h : u.token.kind = .rightDelimiter)
    (hscan : scan d host s offset t = u :: rest) : ∃ x y, t = x ++ y ∧ Cut d host s offset [u] rest x y := by
  obtain ⟨c, a, z, rfl, ha, rfl, hrest⟩ := scan_eq_cons hscan
  obtain ⟨hmode, trims, hmarker, hpiece⟩ := piece_close h ha
  rw [hpiece z] at hrest
  refine ⟨c :: a, z, rfl, ?_, ?_, ?_, List.cons_ne_nil _ _, fun hpoint => ⟨?_, _, rfl, h⟩,
    fun h => absurd h (by simp [hmode])⟩
  · have hstep := @scan_step d host s offset _ _ _ _ (hpiece []) rfl
    rw [List.append_nil, scan] at hstep
    rw [hstep, hpiece z]
    exact .same _
  · simp [charsOf]
  · refine ⟨_, rfl, hrest.symm, fun htrim => ⟨_, rfl, h, ?_⟩⟩
    have hsize : Text.size (c :: a) = d.right.size + 1 := by
      rw [hmarker, size_closingMarker]
      exact htrim
    exact hsize
  · rw [hmarker, closingMarker] at hpoint
    split at hpoint
    · exact absurd (List.cons.inj hpoint).1 (by decide)
    · exact hpoint

/-- Blanks that end before the text does end there, too, where the text ends with them. -/
lemma run_trimSpace_cut {c : Char} {a z : Text}
    (ha : a.length = min (Lexeme.run isTrimSpace (c :: (a ++ z)) - 1) (a.length + z.length)) :
    a.length = Lexeme.run isTrimSpace (c :: a) - 1 := by
  have hle : Lexeme.run isTrimSpace (c :: a) ≤ (c :: a).length := (List.takeWhile_prefix _).length_le
  have hle' : Lexeme.run isTrimSpace (c :: (a ++ z)) ≤ (c :: (a ++ z)).length := (List.takeWhile_prefix _).length_le
  have hrun : Lexeme.run isTrimSpace (c :: a) = Lexeme.run isTrimSpace (c :: a ++ z) := by
    apply Lexeme.run_append
    simp only [List.length_cons, List.length_append, List.cons_append] at ha hle' ⊢
    omega
  rw [List.cons_append] at hrun
  rw [← hrun] at ha
  simp only [List.length_cons] at ha hle
  omega

/-- Scanning a closing marker with the blanks it trims gives both again. -/
lemma cut_blank {s : State} {t : Text} {u v : Drawn} {rest : List Drawn} (h : u.token.kind = .rightDelimiter)
    (htrim : u.token.text.size = d.right.size + 1) (hv : v.token.kind = .whitespace)
    (hscan : scan d host s offset t = u :: v :: rest) : ∃ x y, t = x ++ y ∧ Cut d host s offset [u, v] rest x y := by
  obtain ⟨c, a, z, rfl, ha, rfl, hrest⟩ := scan_eq_cons hscan
  obtain ⟨hmode, trims, hmarker, hpiece⟩ := piece_close h ha
  obtain rfl : trims = true := by
    rw [← size_closingMarker d, ← hmarker]
    exact htrim
  rw [hpiece z] at hrest
  -- the blanks are scanned outside directives, behind a marker that trims
  obtain ⟨b, e, y, rfl, he, rfl, hrest'⟩ := scan_eq_cons hrest.symm
  have hb : isTrimSpace b = true := isTrimSpace_of_textPiece hv
  have hblank : ∀ x, piece d host ⟨false, true, (c :: a).getLast?⟩ b (e ++ x) =
      ⟨.whitespace, Lexeme.run isTrimSpace (b :: (e ++ x)), false, false⟩ := fun x => textPiece_of_blank hb _
  rw [hblank y] at he hrest'
  have hlen : e.length = Lexeme.run isTrimSpace (b :: e) - 1 := run_trimSpace_cut he
  refine ⟨c :: (a ++ b :: e), y, by simp, ?_, by simp [charsOf], ?_, List.cons_ne_nil _ _,
    fun hpoint => absurd hpoint (by simp), fun h => absurd h (by simp [hmode])⟩
  · rw [scan_step (hpiece _) rfl]
    have hstep := @scan_step d host _ (offset + Text.size (c :: a)) _ _ _ _ (hblank [])
      (by rw [List.append_nil]; exact hlen)
    rw [List.append_nil, scan] at hstep
    rw [hstep, hpiece, hblank]
    exact .same _
  · refine ⟨⟨false, false, (b :: e).getLast?⟩, rfl, ?_, fun h => absurd h Bool.false_ne_true⟩
    refine Eq.trans ?_ hrest'.symm
    simp [Nat.add_assoc]

/-- A token in front of a part is scanned with that part as it is with the whole text, unless it is a number that
takes the point of the closing marker. -/
lemma recut_cons {s : State} {c : Char} {a x y : Text} {us rest : List Drawn}
    (hcut : Cut d host ⟨(piece d host s c (a ++ (x ++ y))).inAction, (piece d host s c (a ++ (x ++ y))).trims,
      (c :: a).getLast?⟩ (offset + Text.size (c :: a)) us rest x y)
    (ha : a.length = (piece d host s c (a ++ (x ++ y))).length - 1) :
    Recut d ((⟨⟨(piece d host s c (a ++ (x ++ y))).kind, offset, c :: a⟩,
        (piece d host s c (a ++ (x ++ y))).inAction⟩ :: us).map Drawn.token)
      ((scan d host s offset (c :: (a ++ x))).map Drawn.token) := by
  have hsame : piece d host s c (a ++ x) = piece d host s c (a ++ (x ++ y)) →
      Recut d ((⟨⟨(piece d host s c (a ++ (x ++ y))).kind, offset, c :: a⟩,
        (piece d host s c (a ++ (x ++ y))).inAction⟩ :: us).map Drawn.token)
      ((scan d host s offset (c :: (a ++ x))).map Drawn.token) := fun hpiece => by
    rw [scan_step hpiece ha, List.map_cons, List.map_cons]
    exact .cons hcut.first_eq
  cases hmode : s.inAction with
  | false => exact hsame (piece_outside hmode ha hcut.ne_nil hcut.marker).1
  | true =>
    rcases piece_inside hmode ha hcut.ne_nil with hpiece | ⟨hx, hk, k, hk', hpiece⟩
    · exact hsame hpiece
    · obtain ⟨hpoint, r, rfl, hr⟩ := hcut.point hx
      have hstep := @scan_step d host s offset c (a ++ x) [] ⟨k, (a ++ x).length + 1, true, false⟩
        (by rw [List.append_nil]; exact hpiece) rfl
      rw [List.append_nil, scan] at hstep
      rw [hstep]
      exact .number hpoint hk hk' hr

/-- A cut of what is behind a token is a cut with that token in front. -/
lemma Cut.cons {s : State} {c : Char} {a x y : Text} {us rest : List Drawn}
    (hcut : Cut d host ⟨(piece d host s c (a ++ (x ++ y))).inAction, (piece d host s c (a ++ (x ++ y))).trims,
      (c :: a).getLast?⟩ (offset + Text.size (c :: a)) us rest x y)
    (ha : a.length = (piece d host s c (a ++ (x ++ y))).length - 1) :
    Cut d host s offset (⟨⟨(piece d host s c (a ++ (x ++ y))).kind, offset, c :: a⟩,
      (piece d host s c (a ++ (x ++ y))).inAction⟩ :: us) rest (c :: (a ++ x)) y := by
  obtain ⟨s', hs', hrest, hlast⟩ := hcut.rest_eq
  have hpos := List.length_pos_iff.2 hcut.ne_nil
  refine ⟨recut_cons hcut ha, ?_, ⟨s', hs', ?_, ?_⟩, List.cons_ne_nil _ _, ?_, ?_⟩
  · have hx := hcut.chars
    rw [charsOf] at hx ⊢
    rw [List.map_cons, List.flatMap_cons, hx]
    rfl
  · rw [← hrest]
    simp [Nat.add_assoc]
  · intro htrim
    obtain ⟨v, hv, hv'⟩ := hlast htrim
    exact ⟨v, by rw [List.getLast?_cons]; simp [Option.mem_def.1 hv], hv'⟩
  · intro hpoint
    have := congrArg List.length hpoint
    simp only [List.length_cons, List.length_append, List.length_nil] at this
    omega
  · exact fun hmode => (piece_outside hmode ha hcut.ne_nil hcut.marker).2

/-- A text can be cut behind a closing marker. -/
lemma exists_cut {ts : List Token} (hs : Settles d ts) :
    ∀ {s : State} {offset : Nat} {t : Text} {first rest : List Drawn}, first.map Drawn.token = ts →
      scan d host s offset t = first ++ rest → ∃ x y, t = x ++ y ∧ Cut d host s offset first rest x y := by
  induction hs with
  | close h =>
    intro s offset t first rest hts hscan
    obtain ⟨u, rfl, rfl⟩ := List.map_eq_singleton_iff.1 hts
    exact cut_close h hscan
  | @blank t u h htrim hu =>
    intro s offset t first rest hts hscan
    obtain ⟨t₁, us, rfl, rfl, hus⟩ := List.map_eq_cons_iff.1 hts
    obtain ⟨u₁, rfl, rfl⟩ := List.map_eq_singleton_iff.1 hus
    exact cut_blank h htrim hu hscan
  | @cons t ts h ih =>
    intro s offset t first rest hts hscan
    obtain ⟨u, us, rfl, rfl, hus⟩ := List.map_eq_cons_iff.1 hts
    obtain ⟨c, a, z, rfl, ha, rfl, hrest⟩ := scan_eq_cons hscan
    obtain ⟨x, y, rfl, hcut⟩ := ih hus hrest.symm
    have hpos := List.length_pos_iff.2 hcut.ne_nil
    refine ⟨c :: (a ++ x), y, by simp, hcut.cons ?_⟩
    simp only [List.length_append] at ha
    omega

/-! ## Regions -/

/-- Outside directives, and not in front of blanks that are trimmed, the lexer is where it is at the start. -/
lemma scan_fresh {s : State} {t : Text} (hmode : s.inAction = false)
    (htrim : s.trimAfter = true → ∀ c ∈ t.head?, isTrimSpace c = false) :
    scan d host s offset t = scan d host {} offset t := by
  rcases t with _ | ⟨c, cs⟩
  · rw [scan, scan]
  · have hblank : ¬ (s.trimAfter = true ∧ isTrimSpace c = true) := by
      rintro ⟨ht, hc⟩
      rw [htrim ht c rfl] at hc
      exact absurd hc (by simp)
    have hpiece : piece d host s c cs = piece d host {} c cs := by
      simp only [piece, hmode, Bool.false_eq_true, if_false]
      exact textPiece_of_noBlank hblank cs
    rw [scan, scan, hpiece]

/-- A directive that ends with a closing marker. If the marker trims, no blanks are left behind. -/
structure Extent.Closed (d : Delimiters) (e : Extent) : Prop where
  /-- The directive ends with a closing marker. -/
  settles : Settles d e.taken
  /-- If the marker trims, no blanks are left behind. -/
  trimmed : ∀ t ∈ e.taken.getLast?, t.kind = .rightDelimiter → t.text.size = d.right.size + 1 →
    ∀ u ∈ e.rest.head?, u.kind ≠ .whitespace

lemma Settles.ne_nil {ts : List Token} (h : Settles d ts) : ts ≠ [] := by
  cases h with
  | close => exact List.cons_ne_nil _ _
  | blank => exact List.cons_ne_nil _ _
  | cons => exact List.cons_ne_nil _ _

lemma Extent.Closed.cons {e : Extent} (h : e.Closed d) (t : Token) : (e.cons t).Closed d := by
  refine ⟨.cons h.settles, fun u hu => h.trimmed u ?_⟩
  obtain ⟨v, vs, hv⟩ := List.exists_cons_of_ne_nil h.settles.ne_nil
  rw [Extent.cons, hv, List.getLast?_cons_cons] at hu
  rwa [hv]

lemma closed_closeAt {t : Token} (h : t.kind = .rightDelimiter) (ts : List Token) : (closeAt d t ts).Closed d := by
  cases ts with
  | nil => exact ⟨.close h, by simp [closeAt]⟩
  | cons next ts =>
    rw [closeAt]
    split
    · next hblank =>
      rw [Bool.and_eq_true, decide_eq_true_eq, decide_eq_true_eq] at hblank
      refine ⟨.blank h hblank.1 hblank.2, fun u hu hk => ?_⟩
      obtain rfl : next = u := by simpa using hu
      rw [hblank.2] at hk
      exact absurd hk (by decide)
    · next hblank =>
      refine ⟨.close h, fun u hu _ hsize v hv hk => hblank ?_⟩
      obtain rfl : t = u := by simpa using hu
      obtain rfl : next = v := by simpa using hv
      simp [hsize, hk]

/-- A directive without a fault ends with a closing marker. -/
lemma closed_extent {depth : Nat} {inAction : Bool} {ts : List Token}
    (h : (extent d depth inAction ts).fault = none) : (extent d depth inAction ts).Closed d := by
  induction ts generalizing depth inAction with
  | nil => simp [extent] at h
  | cons t ts ih =>
    rw [extent] at h ⊢
    split at h
    · next hk =>
      rw [if_pos hk]
      exact (ih h).cons t
    · next hk =>
      rw [if_neg hk]
      split at h
      · next hk' =>
        rw [if_pos hk']
        split at h
        · next hz =>
          rw [if_pos hz]
          exact closed_closeAt hk' ts
        · next hz =>
          rw [if_neg hz]
          exact (ih h).cons t
      · next hk' =>
        rw [if_neg hk']
        exact (ih h).cons t

/-- A directive with a fault runs into the end. -/
lemma rest_extent {depth : Nat} {inAction : Bool} {ts : List Token}
    (h : (extent d depth inAction ts).fault ≠ none) : (extent d depth inAction ts).rest = [] := by
  induction ts generalizing depth inAction with
  | nil => rfl
  | cons t ts ih =>
    rw [extent] at h ⊢
    split at h
    · next hk =>
      rw [if_pos hk]
      exact ih h
    · next hk =>
      rw [if_neg hk]
      split at h
      · next hk' =>
        rw [if_pos hk']
        split at h
        · next hz =>
          refine absurd ?_ h
          cases ts with
          | nil => rfl
          | cons next ts =>
            rw [closeAt]
            split <;> rfl
        · next hz =>
          rw [if_neg hz]
          exact ih h
      · next hk' =>
        rw [if_neg hk']
        exact ih h

lemma charsOf_scan (d : Delimiters) (host : HostLanguage) (s : State) (offset : Nat) (t : Text) :
    charsOf ((scan d host s offset t).map Drawn.token) = t := (covers_scan d host s offset t).chars

/-- Blanks behind a closing marker that trims are a token. -/
lemma kind_of_trimAfter {u : Drawn} {us : List Drawn} {t : Text} (hmode : s.inAction = false)
    (htrim : s.trimAfter = true) (h : scan d host s offset t = u :: us) {c : Char} (hc : c ∈ t.head?)
    (hblank : isTrimSpace c = true) : u.token.kind = .whitespace := by
  obtain ⟨b, a, z, rfl, -, rfl, -⟩ := scan_eq_cons h
  obtain rfl : b = c := by simpa using hc
  simp [piece, hmode, htrim, textPiece_of_blank hblank]

/-- The first directive of a text on its own, and what follows it on its own: the latter is scanned in the same way, and
so is the former, unless a number takes its closing marker. That never happens if it runs into the end. -/
theorem recut_extent {t : Text} {ts : List Token} (hts : tokens d host offset t = ts) :
    Recut d (extent d 0 false ts).taken (tokens d host offset (charsOf (extent d 0 false ts).taken)) ∧
      tokens d host (offset + (charsOf (extent d 0 false ts).taken).size) (charsOf (extent d 0 false ts).rest) =
        (extent d 0 false ts).rest ∧
      ((extent d 0 false ts).fault ≠ none →
        tokens d host offset (charsOf (extent d 0 false ts).taken) = (extent d 0 false ts).taken) := by
  have happend := taken_append_rest_extent d 0 false ts
  by_cases hfault : (extent d 0 false ts).fault = none
  · have hclosed := closed_extent hfault
    generalize extent d 0 false ts = e at happend hclosed hfault
    rw [← hts, eq_comm, tokens, draw, List.map_eq_append_iff] at happend
    obtain ⟨first, rest, hscan, hfirst, hrest⟩ := happend
    obtain ⟨x, y, rfl, hcut⟩ := exists_cut hclosed.settles hfirst hscan
    obtain ⟨s', hmode, hrest', htrim⟩ := hcut.rest_eq
    have hx : charsOf e.taken = x := by
      rw [← hfirst, hcut.chars]
    have hy : charsOf e.rest = y := by
      rw [← hrest, ← hrest', charsOf_scan]
    have hfresh : scan d host s' (offset + x.size) y = scan d host {} (offset + x.size) y := by
      refine scan_fresh hmode fun ht c hc => ?_
      obtain ⟨u, hu, hk, hsize⟩ := htrim ht
      by_contra hblank
      rw [Bool.not_eq_false] at hblank
      rcases rest with _ | ⟨v, vs⟩
      · rw [← hy, ← hrest] at hc
        simp [charsOf] at hc
      · refine hclosed.trimmed u.token ?_ hk hsize v.token ?_ (kind_of_trimAfter hmode ht hrest' hc hblank)
        · rw [← hfirst, List.getLast?_map]
          exact Option.mem_map_of_mem _ hu
        · rw [← hrest]
          rfl
    rw [hx, hy, ← hfirst, ← hrest, tokens, tokens, draw, draw, ← hfresh, hrest']
    exact ⟨hcut.first_eq, rfl, fun hne => absurd hfault hne⟩
  · have hrest := rest_extent hfault
    rw [hrest, List.append_nil] at happend
    have hchars : charsOf (tokens d host offset t) = t := charsOf_scan d host {} offset t
    rw [hrest, happend, ← hts, hchars]
    exact ⟨.same _, by simp [charsOf, tokens, draw, scan], fun _ => rfl⟩

/-- The first directive of a text is scanned in the same way on its own, and so is what follows it. -/
theorem tokens_extent (hright : d.right ≠ ['.']) {t : Text} {ts : List Token} (hts : tokens d host offset t = ts) :
    tokens d host offset (charsOf (extent d 0 false ts).taken) = (extent d 0 false ts).taken ∧
      tokens d host (offset + (charsOf (extent d 0 false ts).taken).size) (charsOf (extent d 0 false ts).rest) =
        (extent d 0 false ts).rest := by
  obtain ⟨hfirst, hrest, -⟩ := recut_extent hts
  exact ⟨hfirst.eq hright, hrest⟩

/-- What follows a token of host text is scanned in the same way on its own. -/
lemma tokens_behind_text {t : Text} {u : Token} {us : List Token} (h : tokens d host offset t = u :: us)
    (hu : isText u = true) : u.start = offset ∧ tokens d host u.stop (charsOf us) = us := by
  rw [tokens, draw, List.map_eq_cons_iff] at h
  obtain ⟨v, vs, hscan, rfl, rfl⟩ := h
  obtain ⟨c, a, z, rfl, -, rfl, rfl⟩ := scan_eq_cons hscan
  have hkind : (piece d host {} c (a ++ z)).kind = .text := by simpa [isText] using hu
  have hmode : (piece d host {} c (a ++ z)).inAction = false := by
    have hturn := turns_piece d host {} c (a ++ z)
    rw [hkind] at hturn
    generalize (piece d host {} c (a ++ z)).inAction = mode at hturn ⊢
    cases hturn with
    | host => rfl
  have htrim : (piece d host {} c (a ++ z)).trims = false := trims_textPiece d host false (c :: (a ++ z))
  rw [hmode, htrim, charsOf_scan, tokens, draw]
  refine ⟨rfl, congrArg _ (scan_fresh rfl ?_).symm⟩
  exact fun h => absurd h Bool.false_ne_true

/-- What follows the markup at the front of a text is scanned in the same way on its own. -/
theorem tokens_dropText {ts us : List Token} (hts : ∀ u ∈ ts, isText u = true) {t : Text}
    (h : tokens d host offset t = ts ++ us) : tokens d host (offset + (charsOf ts).size) (charsOf us) = us := by
  induction ts generalizing offset t with
  | nil =>
    have hchars : charsOf (tokens d host offset t) = t := charsOf_scan d host {} offset t
    rw [h] at hchars
    rw [List.nil_append] at h hchars
    rw [hchars]
    exact h
  | cons u ts ih =>
    obtain ⟨rfl, hrest⟩ := tokens_behind_text h (hts u List.mem_cons_self)
    have := ih (fun v hv => hts v (List.mem_cons_of_mem _ hv)) hrest
    rwa [Token.stop, Nat.add_assoc, ← Text.size_append] at this

end GoFront.Template
