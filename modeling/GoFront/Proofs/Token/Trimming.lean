import GoFront.Proofs.Token.Length
import GoFront.Proofs.Token.Marker
import GoFront.Proofs.Token.Tiling

/-!
# Modes and trimmed blanks

The tokens of a template, read as a sequence: opening and closing markers alternate, host text stands outside
directives only, and blanks outside directives are tokens of their own exactly where a marker trims them.

What the lexer can yield outside directives is put down once, in `HostPiece`. The lexer itself is read as a
relation, `Draws`, in which a token has exactly as many characters as were counted for it, so that there is
nothing to lose at the end of the text. `Draws.split` gives the state in front of any token of a run, and what is
said about neighbouring tokens follows from the pieces that can be drawn in that state.
-/

namespace GoFront.Template

variable {d : Delimiters} {host : HostLanguage}

/-! ## Tokens outside directives -/

/-- The characters of an opening marker. -/
def openingMarker (d : Delimiters) (trims : Bool) : Text := if trims then d.left ++ ['-'] else d.left

lemma size_openingMarker (d : Delimiters) (trims : Bool) :
    (openingMarker d trims).size = d.left.size + 1 ↔ trims = true := by
  have hminus : '-'.utf8Size = 1 := rfl
  cases trims with
  | false => simp [openingMarker]
  | true => simp [openingMarker, hminus]

/-- An opening marker is what stands at the front of the text. -/
lemma leftMarker?_eq_openingMarker {t : Text} {n : Nat} {trims : Bool} (h : leftMarker? d t = some (n, trims)) :
    n = (openingMarker d trims).length ∧ openingMarker d trims <+: t := by
  unfold leftMarker? at h
  split at h
  · next hp =>
    obtain ⟨r, rfl⟩ := List.isPrefixOf_iff_prefix.1 hp
    rw [List.drop_left] at h
    split at h
    · split at h
      · obtain ⟨rfl, rfl⟩ := Prod.mk.inj (Option.some.inj h)
        refine ⟨by simp [openingMarker], ?_⟩
        simp only [openingMarker, if_true, List.prefix_append_right_inj]
        exact List.prefix_append ['-'] _
      · obtain ⟨rfl, rfl⟩ := Prod.mk.inj (Option.some.inj h)
        exact ⟨rfl, List.prefix_append _ _⟩
    · obtain ⟨rfl, rfl⟩ := Prod.mk.inj (Option.some.inj h)
      exact ⟨rfl, List.prefix_append _ _⟩
  · simp at h

/-- A text starts with as many characters of its own as a marker it starts with. -/
lemma eq_of_starts {marker text rest : Text} (h : marker <+: text ++ rest) (hlen : text.length = marker.length) :
    text = marker :=
  ((List.prefix_of_prefix_length_le h (List.prefix_append text rest) (Nat.le_of_eq hlen.symm)).eq_of_length
    hlen.symm).symm

/-- What a token outside directives can be. -/
inductive HostPiece (d : Delimiters) (host : HostLanguage) (trimAfter : Bool) (t : Text) : Piece → Prop
  /-- The blanks behind a closing marker that trims. -/
  | blanks (htrim : trimAfter = true) (hblank : t.head?.any isTrimSpace = true) :
    HostPiece d host trimAfter t ⟨.whitespace, Lexeme.run isTrimSpace t, false, false⟩
  /-- An opening marker. -/
  | marker {n : Nat} {trims : Bool} (hmarker : leftMarker? d t = some (n, trims)) :
    HostPiece d host trimAfter t ⟨.leftDelimiter, n, true, false⟩
  /-- The blanks in front of a marker that trims. -/
  | gap {n m : Nat} (hpos : 0 < n) (hblank : ∀ c ∈ t.take n, isTrimSpace c = true)
    (hmarker : leftMarker? d (t.drop n) = some (m, true)) : HostPiece d host trimAfter t ⟨.whitespace, n, false, false⟩
  /-- Host text in front of such blanks, or in front of the marker if there are none. -/
  | trimmed {k n m : Nat} (hpos : 0 < k) (hle : k ≤ n) (hlast : ∀ c ∈ (t.take k).getLast?, isTrimSpace c = false)
    (hblank : ∀ c ∈ (t.take n).drop k, isTrimSpace c = true) (hfind : findMarker? d.left host t = some n)
    (hmarker : leftMarker? d (t.drop n) = some (m, true)) : HostPiece d host trimAfter t ⟨.text, k, false, false⟩
  /-- Host text in front of a marker that does not trim. -/
  | plain {n m : Nat} (hpos : 0 < n) (hfind : findMarker? d.left host t = some n)
    (hmarker : leftMarker? d (t.drop n) = some (m, false)) : HostPiece d host trimAfter t ⟨.text, n, false, false⟩
  /-- Host text up to the end. -/
  | last (hfind : findMarker? d.left host t = none) : HostPiece d host trimAfter t ⟨.text, t.length, false, false⟩

lemma hostPiece_textPiece (host : HostLanguage) (trimAfter : Bool) (t : Text) :
    HostPiece d host trimAfter t (textPiece d host trimAfter t) := by
  unfold textPiece
  split
  · next h =>
    rw [Bool.and_eq_true] at h
    exact .blanks h.1 h.2
  cases hleft : leftMarker? d t with
  | some p => exact .marker hleft
  | none =>
    cases hfind : findMarker? d.left host t with
    | none => exact .last hfind
    | some n =>
      have hp := isPrefixOf_drop_of_findMarker? hfind
      have hpos : 0 < n := by
        rw [leftMarker?_eq_none_iff] at hleft
        refine Nat.pos_of_ne_zero ?_
        rintro rfl
        rw [List.drop_zero, hleft] at hp
        simp at hp
      obtain ⟨⟨m, trims⟩, hmarker⟩ : ∃ p, leftMarker? d (t.drop n) = some p := by
        cases h : leftMarker? d (t.drop n) with
        | some p => exact ⟨p, rfl⟩
        | none =>
          rw [leftMarker?_eq_none_iff, hp] at h
          exact absurd h (by simp)
      cases trims with
      | false =>
        simp only [hmarker, Option.any_some, Bool.false_eq_true, if_false]
        exact .plain hpos hfind hmarker
      | true =>
        simp only [hmarker, Option.any_some, if_true]
        have hblank := fun c => isTrimSpace_of_mem_drop (t := t.take n) (c := c)
        have hlast := fun c => not_isTrimSpace_of_mem_getLast? (t := t.take n) (c := c)
        have hle : ((t.take n).reverse.dropWhile isTrimSpace).length ≤ n := by
          have := (List.dropWhile_suffix isTrimSpace (l := (t.take n).reverse)).length_le
          simp only [List.length_reverse, List.length_take] at this
          omega
        split
        · next hkept =>
          rw [hkept, List.drop_zero] at hblank
          exact .gap hpos hblank hmarker
        · next hkept =>
          rw [List.take_take, Nat.min_eq_left hle] at hlast
          exact .trimmed (Nat.pos_of_ne_zero hkept) hle hlast hblank hfind hmarker

lemma lt_length_of_leftMarker? {t : Text} {n m : Nat} {trims : Bool}
    (h : leftMarker? d (t.drop n) = some (m, trims)) : n < t.length := by
  by_contra hle
  rw [List.drop_eq_nil_of_le (Nat.not_lt.1 hle)] at h
  have hp := (leftMarker?_eq_some h).1
  rw [List.isPrefixOf_iff_prefix, List.prefix_nil] at hp
  exact d.left_ne_nil hp

/-- No token outside directives is a closing marker. -/
lemma HostPiece.no_closing {trimAfter : Bool} {t : Text} {p : Piece} (h : HostPiece d host trimAfter t p) :
    p.kind ≠ .rightDelimiter ∧ p.trims = false := by
  cases h <;> simp

/-- A token outside directives takes some of the characters that are there. -/
lemma HostPiece.length_bounds {trimAfter : Bool} {t : Text} {p : Piece} (h : HostPiece d host trimAfter t p)
    (ht : t ≠ []) : 0 < p.length ∧ p.length ≤ t.length := by
  cases h with
  | blanks _ hblank =>
    obtain ⟨c, cs, rfl⟩ := List.exists_cons_of_ne_nil ht
    refine ⟨?_, Lexeme.run_le _ _⟩
    have hc : isTrimSpace c = true := hblank
    simp [Lexeme.run, hc]
  | marker hmarker =>
    obtain ⟨-, hle, -⟩ := leftMarker?_eq_some hmarker
    obtain ⟨hn, hstarts⟩ := leftMarker?_eq_openingMarker hmarker
    have hleft := List.length_pos_iff.2 d.left_ne_nil
    exact ⟨Nat.lt_of_lt_of_le hleft hle, hn ▸ hstarts.length_le⟩
  | gap hpos _ hmarker => exact ⟨hpos, Nat.le_of_lt (lt_length_of_leftMarker? hmarker)⟩
  | trimmed hpos hle _ _ _ hmarker =>
    exact ⟨hpos, Nat.le_trans hle (Nat.le_of_lt (lt_length_of_leftMarker? hmarker))⟩
  | plain hpos _ hmarker => exact ⟨hpos, Nat.le_of_lt (lt_length_of_leftMarker? hmarker)⟩
  | last => exact ⟨List.length_pos_iff.2 ht, Nat.le_refl _⟩

/-! ## The lexer, token by token -/

/-- A closing marker that is one byte longer than the delimiters say, so that it trims what follows. -/
def TrimsBehind (d : Delimiters) (t : Token) : Prop := t.kind = .rightDelimiter ∧ t.text.size = d.right.size + 1

/-- An opening marker that is one byte longer than the delimiters say, so that it trims what comes before. -/
def TrimsBefore (d : Delimiters) (t : Token) : Prop := t.kind = .leftDelimiter ∧ t.text.size = d.left.size + 1

/-- Every token takes some of the characters that are there. -/
lemma length_piece_bounds (d : Delimiters) (host : HostLanguage) (s : State) (c : Char) (cs : Text) :
    0 < (piece d host s c cs).length ∧ (piece d host s c cs).length ≤ (c :: cs).length := by
  unfold piece
  split
  · rcases actionPiece_cases d s.previous c cs with ⟨n, trims, hm, he⟩ | ⟨-, -, he⟩
    · obtain ⟨hn, hstarts⟩ := rightMarker?_eq_some hm
      rw [he]
      refine ⟨?_, hn ▸ hstarts.length_le⟩
      rw [hn, List.length_pos_iff, closingMarker]
      split
      · exact List.cons_ne_nil _ _
      · exact d.right_ne_nil
    · rw [he]
      exact ⟨Nat.succ_pos _, Nat.succ_le_succ (lexeme_le c cs)⟩
  · exact (hostPiece_textPiece host s.trimAfter (c :: cs)).length_bounds (List.cons_ne_nil c cs)

/-- The tokens drawn from a text in a state. Each has exactly the characters that are counted for it, and at
least one. -/
inductive Draws (d : Delimiters) (host : HostLanguage) : State → Nat → Text → List Drawn → Prop
  /-- At the end of the text nothing is drawn. -/
  | done (s : State) (offset : Nat) : Draws d host s offset [] []
  /-- A token, and those of the rest of the text. -/
  | token {s : State} {offset : Nat} {c : Char} {cs text rest : Text} {p : Piece} {us : List Drawn}
    (hp : piece d host s c cs = p) (htext : c :: cs = text ++ rest) (hpos : 0 < text.length)
    (hlen : text.length = p.length)
    (h : Draws d host ⟨p.inAction, p.trims, text.getLast?⟩ (offset + text.size) rest us) :
    Draws d host s offset (c :: cs) (⟨⟨p.kind, offset, text⟩, p.inAction⟩ :: us)

lemma draws_scan (d : Delimiters) (host : HostLanguage) (s : State) (offset : Nat) (t : Text) :
    Draws d host s offset t (scan d host s offset t) := by
  fun_induction scan d host s offset t with
  | case1 => exact .done _ _
  | case2 s offset c cs p text ih =>
    obtain ⟨hpos, hle⟩ : 0 < p.length ∧ p.length ≤ (c :: cs).length := length_piece_bounds d host s c cs
    have hlen : text.length = p.length := by
      simp only [text, List.length_cons, List.length_take] at hle ⊢
      omega
    refine .token rfl ?_ (hlen ▸ hpos) hlen ih
    simp only [text, List.cons_append, List.take_append_drop]

/-- No token is empty. -/
lemma Draws.ne_nil {s : State} {offset : Nat} {t : Text} {ds : List Drawn} (h : Draws d host s offset t ds) :
    ∀ u ∈ ds, u.token.text ≠ [] := by
  induction h with
  | done => simp
  | token _ _ hpos _ _ ih => exact List.forall_mem_cons.2 ⟨List.length_pos_iff.1 hpos, ih⟩

lemma tokens_ne_nil (d : Delimiters) (host : HostLanguage) (offset : Nat) (text : Text) :
    ∀ t ∈ tokens d host offset text, t.text ≠ [] := by
  intro t ht
  obtain ⟨u, hu, rfl⟩ := List.mem_map.1 ht
  exact (draws_scan d host {} offset text).ne_nil u hu

/-- A token trims what follows it exactly if it is a closing marker that is one byte longer than the delimiters
say. -/
lemma trims_piece_iff {s : State} {c : Char} {cs text rest : Text} (htext : c :: cs = text ++ rest)
    (hlen : text.length = (piece d host s c cs).length) (offset : Nat) :
    (piece d host s c cs).trims = true ↔ TrimsBehind d ⟨(piece d host s c cs).kind, offset, text⟩ := by
  cases hmode : s.inAction with
  | false =>
    have hpiece : piece d host s c cs = textPiece d host s.trimAfter (c :: cs) := by simp [piece, hmode]
    obtain ⟨hkind, htrims⟩ := (hostPiece_textPiece (d := d) host s.trimAfter (c :: cs)).no_closing
    rw [hpiece, htrims]
    exact ⟨fun h => absurd h Bool.false_ne_true, fun h => absurd h.1 hkind⟩
  | true =>
    have hpiece : piece d host s c cs = actionPiece d s.previous c cs := by simp [piece, hmode]
    rw [hpiece] at hlen ⊢
    rcases actionPiece_cases d s.previous c cs with ⟨n, trims, hm, he⟩ | ⟨-, hk, he⟩
    · obtain ⟨hn, hstarts⟩ := rightMarker?_eq_some hm
      have hmarker : text = closingMarker d trims := by
        rw [htext] at hstarts
        rw [he, hn] at hlen
        exact eq_of_starts hstarts hlen
      rw [he, hmarker]
      simp only [TrimsBehind, size_closingMarker, true_and]
    · refine ⟨fun h => absurd h (by simp [he]), fun h => absurd ?_ hk⟩
      rw [show (actionPiece d s.previous c cs).kind = .rightDelimiter from h.1]
      decide

/-- A state in which the lexer can be behind a token, or at the start of a text. -/
def State.Behind (d : Delimiters) (s : State) : Option Drawn → Prop
  | none => s.inAction = false ∧ s.trimAfter = false
  | some u => s.inAction = u.inAction ∧ (s.trimAfter = true ↔ TrimsBehind d u.token)

/-- In the middle of a run the lexer is in a state behind the last token drawn. -/
lemma Draws.split {before after : List Drawn} {s : State} {offset : Nat} {t : Text} {last : Option Drawn}
    (hs : s.Behind d last) (h : Draws d host s offset t (before ++ after)) :
    ∃ s' offset' t', s'.Behind d (before.getLast?.or last) ∧ Draws d host s' offset' t' after := by
  induction before generalizing s offset t last with
  | nil => exact ⟨s, offset, t, hs, h⟩
  | cons u before ih =>
    cases h with
    | @token _ _ c cs text _ p _ hp htext _ hlen h =>
      subst hp
      have hbehind : State.Behind d ⟨(piece d host s c cs).inAction, (piece d host s c cs).trims, text.getLast?⟩
          (some ⟨⟨(piece d host s c cs).kind, offset, text⟩, (piece d host s c cs).inAction⟩) :=
        ⟨rfl, trims_piece_iff htext hlen offset⟩
      obtain ⟨s', offset', t', hs', h'⟩ := ih hbehind h
      refine ⟨s', offset', t', ?_, h'⟩
      rw [List.getLast?_cons]
      cases hlast : before.getLast? with
      | none => simpa [hlast] using hs'
      | some v => simpa [hlast] using hs'

/-! ## Neighbours outside directives -/

/-- The first token drawn outside directives, and what is drawn behind it. -/
lemma Draws.host_cons {s : State} {offset : Nat} {t : Text} {u : Drawn} {us : List Drawn} (hmode : s.inAction = false)
    (h : Draws d host s offset t (u :: us)) :
    ∃ p text rest, HostPiece d host s.trimAfter (text ++ rest) p ∧ t = text ++ rest ∧ text.length = p.length ∧
      text ≠ [] ∧ u = ⟨⟨p.kind, offset, text⟩, p.inAction⟩ ∧
      Draws d host ⟨p.inAction, false, text.getLast?⟩ (offset + text.size) rest us := by
  cases h with
  | @token _ _ c cs text rest p _ hp htext hpos hlen h =>
    have hhost := hostPiece_textPiece (d := d) host s.trimAfter (c :: cs)
    rw [piece, if_neg (by simp [hmode])] at hp
    rw [hp] at hhost
    rw [hhost.no_closing.2] at h
    exact ⟨p, text, rest, htext ▸ hhost, htext, hlen, List.length_pos_iff.1 hpos, rfl, h⟩

/-- Where an opening marker stands, it is drawn. -/
lemma Draws.marker {s : State} {offset : Nat} {t : Text} {u : Drawn} {us : List Drawn} (hmode : s.inAction = false)
    (htrim : s.trimAfter = false) {n : Nat} {trims : Bool} (hmarker : leftMarker? d t = some (n, trims))
    (h : Draws d host s offset t (u :: us)) :
    u.token.kind = .leftDelimiter ∧ (u.token.text.size = d.left.size + 1 ↔ trims = true) := by
  cases h with
  | @token _ _ c cs text rest p _ hp htext hpos hlen h =>
    rw [piece, if_neg (by simp [hmode]), htrim, textPiece_of_marker hmarker] at hp
    subst hp
    refine ⟨rfl, ?_⟩
    obtain ⟨hn, hstarts⟩ := leftMarker?_eq_openingMarker hmarker
    rw [htext] at hstarts
    have htext' : text = openingMarker d trims := eq_of_starts hstarts (hlen.trans hn)
    rw [htext']
    exact size_openingMarker d trims

/-- A marker is drawn unless the text ends. -/
lemma Draws.exists_marker {s : State} {offset : Nat} {t : Text} {us : List Drawn} (hmode : s.inAction = false)
    (htrim : s.trimAfter = false) {n : Nat} (hmarker : leftMarker? d t = some (n, true))
    (h : Draws d host s offset t us) : ∃ u ∈ us.head?, TrimsBefore d u.token := by
  cases us with
  | nil =>
    cases h with
    | done =>
      have hlt := lt_length_of_leftMarker? (n := 0) hmarker
      simp at hlt
  | cons u us =>
    obtain ⟨hk, hsize⟩ := h.marker hmode htrim hmarker
    exact ⟨u, rfl, hk, hsize.2 rfl⟩

/-- Blanks outside directives stand behind a closing marker that trims or in front of an opening one. -/
lemma Draws.trimmed_of_blank {s : State} {offset : Nat} {t : Text} {u : Drawn} {us : List Drawn}
    (hmode : s.inAction = false) (h : Draws d host s offset t (u :: us)) (hu : u.token.kind = .whitespace) :
    s.trimAfter = true ∨ ∃ v ∈ us.head?, TrimsBefore d v.token := by
  obtain ⟨p, text, rest, hhost, rfl, hlen, -, rfl, hrest⟩ := h.host_cons hmode
  cases hhost with
  | blanks htrim => exact .inl htrim
  | gap _ _ hmarker =>
    rw [List.drop_left' hlen] at hmarker
    exact .inr (hrest.exists_marker rfl rfl hmarker)
  | marker | trimmed | plain | last => exact absurd hu (by simp)

/-- Host text in front of a marker that trims does not end with a blank. -/
lemma Draws.text_marker {s : State} {offset : Nat} {t : Text} {u v : Drawn} {us : List Drawn}
    (hmode : s.inAction = false) (h : Draws d host s offset t (u :: v :: us)) (hu : u.token.kind = .text)
    (hv : TrimsBefore d v.token) : ∀ c ∈ u.token.text.getLast?, isTrimSpace c = false := by
  obtain ⟨p, text, rest, hhost, rfl, hlen, -, rfl, hrest⟩ := h.host_cons hmode
  cases hhost with
  | trimmed _ _ hlast =>
    rw [List.take_left' hlen] at hlast
    exact hlast
  | plain _ _ hmarker =>
    rw [List.drop_left' hlen] at hmarker
    exact absurd ((hrest.marker rfl rfl hmarker).2.1 hv.2) Bool.false_ne_true
  | last =>
    have hnil : rest = [] := List.length_eq_zero_iff.1 (by simp only [List.length_append] at hlen; omega)
    subst hnil
    cases hrest
  | blanks | marker | gap => exact absurd hu (by simp)

/-- Host text is followed by no other. -/
lemma Draws.text_text {s : State} {offset : Nat} {t : Text} {u v : Drawn} {us : List Drawn}
    (hmode : s.inAction = false) (h : Draws d host s offset t (u :: v :: us)) (hu : u.token.kind = .text) :
    v.token.kind ≠ .text := by
  obtain ⟨p, text, rest, hhost, rfl, hlen, -, rfl, hrest⟩ := h.host_cons hmode
  intro hv
  cases hhost with
  | @trimmed k n m hpos hle hlast hblank hfind hmarker =>
    rcases Nat.eq_or_lt_of_le hle with rfl | hlt
    · rw [List.drop_left' hlen] at hmarker
      rw [(hrest.marker rfl rfl hmarker).1] at hv
      exact absurd hv (by decide)
    · -- the blanks between the text and the marker are drawn next
      have hfind' := findMarker?_drop d.left_ne_nil hfind hle hblank
      rw [List.drop_left' hlen] at hfind'
      have hblank' : ∀ c ∈ rest.take (n - k), isTrimSpace c = true := by
        rwa [List.drop_take, List.drop_left' hlen] at hblank
      have hmarker' : leftMarker? d (rest.drop (n - k)) = some (m, true) := by
        rw [← Nat.add_sub_cancel' hle, ← List.drop_drop, List.drop_left' hlen] at hmarker
        exact hmarker
      obtain ⟨p', text', rest', hhost', rfl, hlen', hne', rfl, -⟩ := hrest.host_cons rfl
      cases hhost' with
      | @trimmed k' n' m' hpos' hle' hlast' _ hfind'' _ =>
        obtain rfl : n - k = n' := Option.some.inj (hfind'.symm.trans hfind'')
        rw [List.take_left' hlen'] at hlast'
        have hlast := hlast' _ (List.getLast?_eq_some_getLast hne')
        have hmem : text'.getLast hne' ∈ (text' ++ rest').take (n - k) := by
          rw [← Nat.add_sub_cancel' hle', List.take_add]
          exact List.mem_append_left _ (by rw [List.take_left' hlen']; exact List.getLast_mem hne')
        exact absurd (hblank' _ hmem) (by simp [hlast])
      | @plain n' _ _ hfind'' hmarker'' =>
        obtain rfl : n - k = n' := Option.some.inj (hfind'.symm.trans hfind'')
        exact absurd (hmarker'.symm.trans hmarker'') (by simp)
      | last hfind'' => exact absurd (hfind'.symm.trans hfind'') (by simp)
      | blanks | marker | gap => exact absurd hv (by simp)
  | plain _ _ hmarker =>
    rw [List.drop_left' hlen] at hmarker
    rw [(hrest.marker rfl rfl hmarker).1] at hv
    exact absurd hv (by decide)
  | last =>
    have hnil : rest = [] := List.length_eq_zero_iff.1 (by simp only [List.length_append] at hlen; omega)
    subst hnil
    cases hrest
  | blanks | marker | gap => exact absurd hu (by simp)

/-- A token starts where the text does. -/
lemma Draws.head?_text {s : State} {offset : Nat} {t : Text} {u : Drawn} {us : List Drawn}
    (h : Draws d host s offset t (u :: us)) : u.token.text.head? = t.head? := by
  cases h with
  | token _ htext hpos =>
    rw [htext, List.head?_append_of_ne_nil _ (List.length_pos_iff.1 hpos)]

/-- Blanks that are drawn outside directives start with one. -/
lemma Draws.head?_blank {s : State} {offset : Nat} {t : Text} {u : Drawn} {us : List Drawn}
    (hmode : s.inAction = false) (h : Draws d host s offset t (u :: us)) (hu : u.token.kind = .whitespace) :
    ∀ c ∈ t.head?, isTrimSpace c = true := by
  cases h with
  | @token _ _ c cs _ _ _ _ hp _ _ _ _ =>
    intro b hb
    obtain rfl : c = b := by simpa using hb
    rw [piece, if_neg (by simp [hmode])] at hp
    subst hp
    exact isTrimSpace_of_textPiece hu

/-- The first token behind a closing marker that trims is all the blanks there, if there are any. -/
lemma Draws.blanks {s : State} {offset : Nat} {t : Text} {u : Drawn} {us : List Drawn} (hmode : s.inAction = false)
    (htrim : s.trimAfter = true) (h : Draws d host s offset t (u :: us)) (hblank : t.head?.any isTrimSpace = true) :
    u.token.kind = .whitespace ∧ ∃ s' offset' rest, s'.inAction = false ∧ Draws d host s' offset' rest us ∧
      ∀ c ∈ rest.head?, isTrimSpace c = false := by
  cases h with
  | @token _ _ c cs text rest p _ hp htext hpos hlen h =>
    rw [piece, if_neg (by simp [hmode]), htrim, textPiece_of_blank (by simpa using hblank)] at hp
    subst hp
    refine ⟨rfl, _, _, rest, rfl, h, ?_⟩
    have hrest : rest = (c :: cs).dropWhile isTrimSpace := by
      have hsplit : (c :: cs).drop (Lexeme.run isTrimSpace (c :: cs)) = (c :: cs).dropWhile isTrimSpace := by
        nth_rewrite 2 [← List.takeWhile_append_dropWhile (p := isTrimSpace) (l := c :: cs)]
        exact List.drop_left' rfl
      rw [← hsplit, htext]
      exact (List.drop_left' (by rw [← htext]; exact hlen)).symm
    intro b hb
    rw [hrest] at hb
    simpa [Option.mem_def.1 hb] using List.head?_dropWhile_not isTrimSpace (c :: cs)

/-- The first host text behind a closing marker that trims does not start with a blank. -/
lemma Draws.text_behind_trim {s : State} {offset : Nat} {t : Text} {gap us : List Drawn} {u : Drawn}
    (hmode : s.inAction = false) (htrim : s.trimAfter = true) (h : Draws d host s offset t (gap ++ u :: us))
    (hgap : ∀ g ∈ gap, g.token.kind ≠ .leftDelimiter ∧ g.token.kind ≠ .text) (hu : u.token.kind = .text) :
    ∀ c ∈ u.token.text.head?, isTrimSpace c = false := by
  have hkind : ∀ {s : State} {offset : Nat} {t : Text} {g : Drawn} {us : List Drawn}, s.inAction = false →
      Draws d host s offset t (g :: us) → g.token.kind ≠ .leftDelimiter ∧ g.token.kind ≠ .text →
      g.token.kind = .whitespace := by
    intro s offset t g us hmode h hg
    obtain ⟨p, text, rest, hhost, -, -, -, rfl, -⟩ := h.host_cons hmode
    cases hhost <;> simp_all
  by_cases hblank : t.head?.any isTrimSpace = true
  · rcases gap with _ | ⟨g, gap⟩
    · rw [(h.blanks hmode htrim hblank).1] at hu
      exact absurd hu (by decide)
    · obtain ⟨-, s', offset', rest, hmode', hrest, hstart⟩ := Draws.blanks hmode htrim h hblank
      rcases gap with _ | ⟨g', gap⟩
      · rw [Draws.head?_text hrest]
        exact hstart
      · -- a second token of blanks would have to start with one
        exfalso
        have hg' := hkind hmode' hrest (hgap g' (by simp))
        have hblank' := Draws.head?_blank hmode' hrest hg'
        cases hrest with
        | token => exact absurd (hblank' _ rfl) (by simp [hstart _ rfl])
  · rcases gap with _ | ⟨g, gap⟩
    · rw [Draws.head?_text h]
      intro c hc
      simpa [Option.mem_def.1 hc] using hblank
    · exfalso
      have hg := hkind hmode h (hgap g (by simp))
      have hblank' := Draws.head?_blank hmode h hg
      cases h with
      | @token _ _ c _ _ _ _ _ => exact hblank (by simpa using hblank' c rfl)

/-! ## Modes -/

/-- The markers among tokens. -/
def markers (ts : List Token) : List Kind :=
  (ts.map Token.kind).filter fun k => k = .leftDelimiter || k = .rightDelimiter

/-- The last marker among tokens is an opening one. -/
def IsOpen (ts : List Token) : Prop := (markers ts).getLast? = some .leftDelimiter

lemma markers_cons (t : Token) (ts : List Token) : markers (t :: ts) =
    if t.kind = .leftDelimiter ∨ t.kind = .rightDelimiter then t.kind :: markers ts else markers ts := by
  unfold markers
  split <;> simp_all

/-- What a token does to the mode shows in the markers. -/
lemma Turns.mode_eq {mode mode' : Bool} {k : Kind} (h : Turns mode k mode') :
    mode' = if k = .leftDelimiter then true else if k = .rightDelimiter then false else mode := by
  cases h with
  | host h => rcases h with rfl | rfl <;> rfl
  | opens => rfl
  | closes => rfl
  | inner h =>
    have hl : ¬ k = .leftDelimiter := by rintro rfl; exact h (by decide)
    have hr : ¬ k = .rightDelimiter := by rintro rfl; exact h (by decide)
    rw [if_neg hl, if_neg hr]

/-- Outside directives the next marker is an opening one, inside a closing one. -/
lemma Turns.marker_eq {mode mode' : Bool} {k : Kind} (h : Turns mode k mode')
    (hk : k = .leftDelimiter ∨ k = .rightDelimiter) : k = if mode then .rightDelimiter else .leftDelimiter := by
  cases h with
  | host h => rcases h with rfl | rfl <;> exact absurd hk (by decide)
  | opens => rfl
  | closes => rfl
  | inner h => rcases hk with rfl | rfl <;> exact absurd (by decide) h

/-- The mode behind some tokens, from the mode in front of them. -/
def modeAfter (mode : Bool) (ds : List Drawn) : Bool := (ds.getLast?.map Drawn.inAction).getD mode

lemma modeAfter_cons (mode : Bool) (u : Drawn) (ds : List Drawn) :
    modeAfter mode (u :: ds) = modeAfter u.inAction ds := by
  unfold modeAfter
  rw [List.getLast?_cons]
  cases ds.getLast? <;> rfl

lemma Alternates.right {mode : Bool} {before after : List Drawn} (h : Alternates mode (before ++ after)) :
    Alternates (modeAfter mode before) after := by
  induction before generalizing mode with
  | nil => exact h
  | cons u before ih =>
    rw [modeAfter_cons]
    exact ih h.2

lemma Alternates.left {mode : Bool} {before after : List Drawn} (h : Alternates mode (before ++ after)) :
    Alternates mode before := by
  induction before generalizing mode with
  | nil => trivial
  | cons u before ih => exact ⟨h.1, ih h.2⟩

/-- The lexer is inside a directive exactly if the last marker was an opening one. -/
lemma Alternates.modeAfter_iff {mode : Bool} {ds : List Drawn} (h : Alternates mode ds) :
    modeAfter mode ds = true ↔ ((markers (ds.map Drawn.token)).getLast?.map (· = .leftDelimiter)).getD (mode = true) := by
  induction ds generalizing mode with
  | nil => simp [modeAfter, markers]
  | cons u ds ih =>
    rw [modeAfter_cons, ih h.2, List.map_cons, markers_cons, h.1.mode_eq]
    by_cases hl : u.token.kind = .leftDelimiter
    · rw [if_pos hl, if_pos (.inl hl), List.getLast?_cons, hl]
      cases (markers (ds.map Drawn.token)).getLast? <;> simp
    by_cases hr : u.token.kind = .rightDelimiter
    · rw [if_neg hl, if_pos hr, if_pos (.inr hr), List.getLast?_cons, hr]
      cases (markers (ds.map Drawn.token)).getLast? <;> simp
    · rw [if_neg hl, if_neg hr, if_neg (not_or.2 ⟨hl, hr⟩)]

lemma Alternates.isOpen_iff {ds : List Drawn} (h : Alternates false ds) :
    modeAfter false ds = true ↔ IsOpen (ds.map Drawn.token) := by
  rw [h.modeAfter_iff, IsOpen]
  cases (markers (ds.map Drawn.token)).getLast? <;> simp

/-- Opening and closing markers alternate. -/
lemma Alternates.markers {mode : Bool} {ds : List Drawn} (h : Alternates mode ds) :
    (markers (ds.map Drawn.token)).IsChain (· ≠ ·) ∧
      ∀ k ∈ (markers (ds.map Drawn.token)).head?, k = if mode then .rightDelimiter else .leftDelimiter := by
  induction ds generalizing mode with
  | nil => simp [Template.markers]
  | cons u ds ih =>
    obtain ⟨hturn, hrest⟩ := h
    obtain ⟨hchain, hhead⟩ := ih hrest
    rw [List.map_cons, markers_cons]
    split
    · next hk =>
      refine ⟨List.isChain_cons.2 ⟨fun k hk' => ?_, hchain⟩, fun k hk' => ?_⟩
      · rw [hhead k hk', hturn.mode_eq]
        rcases hk with hk | hk <;> simp [hk]
      · obtain rfl : u.token.kind = k := by simpa using hk'
        exact hturn.marker_eq hk
    · next hk =>
      rw [not_or] at hk
      rw [hturn.mode_eq, if_neg hk.1, if_neg hk.2] at hhead
      exact ⟨hchain, hhead⟩

/-! ## The tokens of a stretch of a document -/

/-- The shape of the tokens of a text at an offset, each with the mode behind it. -/
structure Lexed (d : Delimiters) (host : HostLanguage) (offset : Nat) (text : Text) (ds : List Drawn) : Prop where
  /-- The tokens are drawn one by one, none of them empty or cut short. -/
  draws : Draws d host {} offset text ds
  ne_nil : ∀ u ∈ ds, u.token.text ≠ []
  /-- They tile the text. -/
  covers : Token.Covers offset text (ds.map Drawn.token)
  /-- Opening and closing markers alternate, the first being an opening one. -/
  alternate : (markers (ds.map Drawn.token)).IsChain (· ≠ ·)
  opens : ∀ k ∈ (markers (ds.map Drawn.token)).head?, k = .leftDelimiter
  /-- The lexer is inside a directive exactly if the last marker was an opening one. -/
  mode : ∀ {before after : List Drawn} {u : Drawn}, ds = before ++ u :: after →
    (u.inAction = true ↔ IsOpen ((before ++ [u]).map Drawn.token))
  /-- Outside directives there are host text, blanks and opening markers. -/
  outside : ∀ {before after : List Token} {t : Token}, ds.map Drawn.token = before ++ t :: after → ¬ IsOpen before →
    t.kind = .text ∨ t.kind = .whitespace ∨ t.kind = .leftDelimiter
  /-- Inside directives there are neither host text nor opening markers. -/
  inside : ∀ {before after : List Token} {t : Token}, ds.map Drawn.token = before ++ t :: after → IsOpen before →
    t.kind ≠ .text ∧ t.kind ≠ .leftDelimiter
  /-- Host text is in one piece. -/
  whole : ∀ {before after : List Token} {t u : Token}, ds.map Drawn.token = before ++ t :: u :: after →
    t.kind = .text → u.kind ≠ .text
  /-- Blanks outside directives stand right behind a closing marker that trims or right in front of an opening
  one. -/
  blanks : ∀ {before after : List Token} {t : Token}, ds.map Drawn.token = before ++ t :: after → ¬ IsOpen before →
    t.kind = .whitespace → (∃ r ∈ before.getLast?, TrimsBehind d r) ∨ ∃ l ∈ after.head?, TrimsBefore d l
  /-- Host text in front of an opening marker that trims does not end with a blank. -/
  trimmedEnd : ∀ {before after : List Token} {t l : Token}, ds.map Drawn.token = before ++ t :: l :: after →
    t.kind = .text → TrimsBefore d l → ∀ c ∈ t.text.getLast?, isTrimSpace c = false
  /-- The first host text behind a closing marker that trims does not start with a blank. -/
  trimmedStart : ∀ {before gap after : List Token} {r t : Token},
    ds.map Drawn.token = before ++ r :: (gap ++ t :: after) → TrimsBehind d r →
    (∀ g ∈ gap, g.kind ≠ .leftDelimiter ∧ g.kind ≠ .text) → t.kind = .text →
    ∀ c ∈ t.text.head?, isTrimSpace c = false

/-- Tokens that stand in front of a token, and the state of the lexer there. -/
lemma exists_state {offset : Nat} {text : Text} {before after : List Token}
    (h : (draw d host offset text).map Drawn.token = before ++ after) :
    ∃ us s offset' t, us.map Drawn.token = after ∧ Draws d host s offset' t us ∧
      (s.inAction = true ↔ IsOpen before) ∧ (s.trimAfter = true ↔ ∃ r ∈ before.getLast?, TrimsBehind d r) ∧
      Alternates s.inAction us := by
  obtain ⟨front, us, hds, rfl, rfl⟩ := List.map_eq_append_iff.1 h
  have halt := alternates_scan d host {} offset text
  have hdraws := draws_scan d host {} offset text
  rw [show scan d host {} offset text = front ++ us from hds] at halt hdraws
  have hstart : State.Behind d {} none := ⟨rfl, rfl⟩
  obtain ⟨s, offset', t, hbehind, hus⟩ := Draws.split hstart hdraws
  rw [Option.or_none] at hbehind
  have hmode : s.inAction = modeAfter false front := by
    unfold modeAfter
    cases hlast : front.getLast? with
    | none => rw [hlast] at hbehind; exact hbehind.1
    | some u => rw [hlast] at hbehind; exact hbehind.1
  refine ⟨us, s, offset', t, rfl, hus, ?_, ?_, ?_⟩
  · rw [hmode]
    exact halt.left.isOpen_iff
  · rw [List.getLast?_map]
    cases hlast : front.getLast? with
    | none => rw [hlast] at hbehind; simp [hbehind.2]
    | some u => rw [hlast] at hbehind; simpa using hbehind.2
  · rw [hmode]
    exact halt.right

section Shape

variable {offset : Nat} {text : Text} {before after : List Token} {t u : Token}

lemma outside_draw (h : (draw d host offset text).map Drawn.token = before ++ t :: after) (hopen : ¬ IsOpen before) :
    t.kind = .text ∨ t.kind = .whitespace ∨ t.kind = .leftDelimiter := by
  obtain ⟨us, s, _, _, hus, -, hmode, -, halt⟩ := exists_state h
  obtain ⟨v, vs, rfl, rfl, -⟩ := List.map_eq_cons_iff.1 hus
  rw [Bool.eq_false_iff.2 (hmode.not.2 hopen)] at halt
  obtain ⟨hturn, -⟩ := halt
  generalize v.token.kind = k, v.inAction = mode at hturn ⊢
  cases hturn with
  | host h => exact h.symm.imp_right .inl
  | opens => exact .inr (.inr rfl)

lemma inside_draw (h : (draw d host offset text).map Drawn.token = before ++ t :: after) (hopen : IsOpen before) :
    t.kind ≠ .text ∧ t.kind ≠ .leftDelimiter := by
  obtain ⟨us, s, _, _, hus, -, hmode, -, halt⟩ := exists_state h
  obtain ⟨v, vs, rfl, rfl, -⟩ := List.map_eq_cons_iff.1 hus
  rw [hmode.2 hopen] at halt
  obtain ⟨hturn, -⟩ := halt
  generalize v.token.kind = k, v.inAction = mode at hturn ⊢
  cases hturn with
  | closes => exact ⟨by decide, by decide⟩
  | inner h => exact ⟨by rintro rfl; exact h (by decide), by rintro rfl; exact h (by decide)⟩

/-- Host text stands outside directives. -/
lemma not_isOpen_of_text (h : (draw d host offset text).map Drawn.token = before ++ t :: after) (ht : t.kind = .text) :
    ¬ IsOpen before := fun hopen => (inside_draw h hopen).1 ht

lemma whole_draw (h : (draw d host offset text).map Drawn.token = before ++ t :: u :: after) (ht : t.kind = .text) :
    u.kind ≠ .text := by
  have hopen := not_isOpen_of_text h ht
  obtain ⟨us, s, _, _, hus, hdraws, hmode, -, -⟩ := exists_state h
  obtain ⟨v, vs, rfl, rfl, hvs⟩ := List.map_eq_cons_iff.1 hus
  obtain ⟨w, ws, rfl, rfl, -⟩ := List.map_eq_cons_iff.1 hvs
  exact hdraws.text_text (Bool.eq_false_iff.2 (hmode.not.2 hopen)) ht

lemma blanks_draw (h : (draw d host offset text).map Drawn.token = before ++ t :: after) (hopen : ¬ IsOpen before)
    (ht : t.kind = .whitespace) : (∃ r ∈ before.getLast?, TrimsBehind d r) ∨ ∃ l ∈ after.head?, TrimsBefore d l := by
  obtain ⟨us, s, _, _, hus, hdraws, hmode, htrim, -⟩ := exists_state h
  obtain ⟨v, vs, rfl, rfl, rfl⟩ := List.map_eq_cons_iff.1 hus
  refine (hdraws.trimmed_of_blank (Bool.eq_false_iff.2 (hmode.not.2 hopen)) ht).imp htrim.1 ?_
  rintro ⟨w, hw, hbefore⟩
  exact ⟨w.token, by rw [List.head?_map]; exact Option.mem_map_of_mem _ hw, hbefore⟩

lemma trimmedEnd_draw (h : (draw d host offset text).map Drawn.token = before ++ t :: u :: after) (ht : t.kind = .text)
    (hu : TrimsBefore d u) : ∀ c ∈ t.text.getLast?, isTrimSpace c = false := by
  have hopen := not_isOpen_of_text h ht
  obtain ⟨us, s, _, _, hus, hdraws, hmode, -, -⟩ := exists_state h
  obtain ⟨v, vs, rfl, rfl, hvs⟩ := List.map_eq_cons_iff.1 hus
  obtain ⟨w, ws, rfl, rfl, -⟩ := List.map_eq_cons_iff.1 hvs
  exact hdraws.text_marker (Bool.eq_false_iff.2 (hmode.not.2 hopen)) ht hu

lemma trimmedStart_draw {gap : List Token} (h : (draw d host offset text).map Drawn.token = before ++ u :: (gap ++ t :: after))
    (hu : TrimsBehind d u) (hgap : ∀ g ∈ gap, g.kind ≠ .leftDelimiter ∧ g.kind ≠ .text) (ht : t.kind = .text) :
    ∀ c ∈ t.text.head?, isTrimSpace c = false := by
  rw [List.append_cons] at h
  obtain ⟨us, s, _, _, hus, hdraws, hmode, htrim, -⟩ := exists_state h
  obtain ⟨front, vs, rfl, rfl, hvs⟩ := List.map_eq_append_iff.1 hus
  obtain ⟨w, ws, rfl, rfl, -⟩ := List.map_eq_cons_iff.1 hvs
  have hclosed : ¬ IsOpen (before ++ [u]) := by simp [IsOpen, markers, hu.1]
  refine hdraws.text_behind_trim (Bool.eq_false_iff.2 (hmode.not.2 hclosed)) (htrim.2 ⟨u, by simp, hu⟩) ?_ ht
  exact fun g hg => hgap g.token (List.mem_map_of_mem hg)

end Shape

/-- The tokens of any stretch of a document between two of its characters: there are finitely many, none is empty,
they tile the stretch, and they have the shape that the modes and the trimming markers give them. -/
theorem drawRange?_lexed (d : Delimiters) (host : HostLanguage) (before piece after : Text) :
    ∃ ds, drawRange? d host (before ++ piece ++ after) before.size (before.size + piece.size) = some ds ∧
      Lexed d host before.size piece ds := by
  have halt := alternates_scan d host {} before.size piece
  refine ⟨draw d host before.size piece, by rw [drawRange?, slice?_append]; rfl, ?_⟩
  exact
    { draws := draws_scan d host {} before.size piece
      ne_nil := (draws_scan d host {} before.size piece).ne_nil
      covers := covers_scan d host {} before.size piece
      alternate := halt.markers.1
      opens := halt.markers.2
      mode := by
        intro front rest u h
        have hsplit : scan d host {} before.size piece = (front ++ [u]) ++ rest := h.trans (List.append_cons ..)
        rw [hsplit] at halt
        rw [← halt.left.isOpen_iff]
        simp [modeAfter]
      outside := outside_draw
      inside := inside_draw
      whole := whole_draw
      blanks := blanks_draw
      trimmedEnd := trimmedEnd_draw
      trimmedStart := trimmedStart_draw }

end GoFront.Template
