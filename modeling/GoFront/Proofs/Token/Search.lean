import GoFront.Proofs.Token.Marker
import GoFront.Token.Search

/-!
# The search for opening markers is a scan from left to right

The next opening marker of a template is found by jumps: from each place the search looks for the next marker and for
the next comment, and jumps to what comes first. Markers may begin or end as comments do and may hold each other, so it
has to be said what the jumps come to. They come to a plain scan (`plainMarker?`), which looks at one place after the
other and asks of each whether a marker stands there, and if not, whether a comment does.

The scan goes by what stands at its front. `plainMarker?_of_marker`, `plainMarker?_of_comment` and
`plainMarker?_of_noMarker` say what it comes to in terms of what is found first, and the jumps follow these.
-/

namespace GoFront

namespace Text

/-- What is not found occurs nowhere. -/
lemma not_isPrefixOf_drop_of_find? {pat t : Text} (hpat : pat ≠ []) (h : find? pat t = none) (q : Nat) :
    ¬pat.isPrefixOf (t.drop q) = true := by
  induction t generalizing q with
  | nil => simpa using hpat
  | cons c t ih =>
    rw [find?] at h
    split at h
    · cases h
    · next hp =>
      cases q with
      | zero => exact hp
      | succ q => exact ih (Option.map_eq_none_iff.1 h) q

/-- The first occurrence in a text is the first one in every longer text. -/
lemma find?_extend {pat x : Text} {n : Nat} (y : Text) (h : find? pat x = some n) : find? pat (x ++ y) = some n := by
  have hle := add_length_le_of_find? h
  have hinside : ∀ q ≤ n, pat.isPrefixOf ((x ++ y).drop q) = pat.isPrefixOf (x.drop q) := by
    intro q hq
    rw [List.drop_append_of_le_length (by omega)]
    exact isPrefixOf_append y (by rw [List.length_drop]; omega)
  refine find?_of_first ?_ fun q hq => ?_
  · rw [hinside n (Nat.le_refl n)]
    exact isPrefixOf_drop_of_find? h
  · by_contra hlt
    rw [hinside q (by omega)] at hq
    exact hlt (find?_le h hq)

end Text

namespace Template

open HostLanguage

/-- What follows a comment, given what follows its opening: the text behind the first closing, or nothing. -/
def behindClosing : Text → Text
  | [] => []
  | c :: cs => if commentCloser.isPrefixOf (c :: cs) then (c :: cs).drop commentCloser.length else behindClosing cs

lemma behindClosing_eq (t : Text) : behindClosing t =
    match Text.find? commentCloser t with
    | some n => t.drop (n + commentCloser.length)
    | none => [] := by
  induction t with
  | nil => rfl
  | cons c cs ih =>
    rw [behindClosing, Text.find?]
    split
    · simp
    · rw [ih]
      cases Text.find? commentCloser cs with
      | none => rfl
      | some n =>
        simp only [Option.map_some]
        rw [Nat.add_right_comm, List.drop_succ_cons]

lemma drop_commentLength (t : Text) :
    t.drop (commentLength commentOpener t) = behindClosing (t.drop commentOpener.length) := by
  rw [behindClosing_eq, commentLength]
  cases Text.find? commentCloser (t.drop commentOpener.length) with
  | none => exact List.drop_length
  | some n => simp only [List.drop_drop, Nat.add_assoc]

lemma commentLength_le {t : Text} (h : commentOpener.isPrefixOf t = true) :
    commentLength commentOpener t ≤ t.length := by
  have hopener := (List.isPrefixOf_iff_prefix.1 h).length_le
  unfold commentLength
  split
  · next n hn =>
    have := Text.add_length_le_of_find? hn
    rw [List.length_drop] at this
    omega
  · exact Nat.le_refl _

lemma length_behindClosing_le (t : Text) : (behindClosing t).length ≤ t.length := by
  rw [behindClosing_eq]
  split
  · exact (List.drop_sublist _ _).length_le
  · exact Nat.zero_le _

/-- Whether a comment of the host language opens at the front of a text. -/
def OpensComment (host : HostLanguage) (t : Text) : Prop := host = .html ∧ commentOpener.isPrefixOf t = true

instance (host : HostLanguage) (t : Text) : Decidable (OpensComment host t) :=
  inferInstanceAs (Decidable (_ ∧ _))

/-- The number of characters before the first opening marker, scanned for from left to right. At each place a marker is
found if one stands there; else a comment of the host language that opens there is left out, up to and with its first
closing, or up to the end of the text; else the next place is looked at. -/
def plainMarker? (left : Text) (host : HostLanguage) : Text → Option Nat
  | [] => none
  | c :: cs =>
    if left.isPrefixOf (c :: cs) then some 0
    else if OpensComment host (c :: cs) then
      let rest := behindClosing ((c :: cs).drop commentOpener.length)
      (plainMarker? left host rest).map (· + ((c :: cs).length - rest.length))
    else (plainMarker? left host cs).map (· + 1)
termination_by t => t.length
decreasing_by
  · have := length_behindClosing_le ((c :: cs).drop commentOpener.length)
    simp only [List.length_drop, List.length_cons] at this ⊢
    have hopener : commentOpener.length = 4 := rfl
    omega
  · exact Nat.lt_succ_self _

section

variable {left t : Text} {host : HostLanguage} (hleft : left ≠ [])

include hleft in
lemma plainMarker?_marker (h : left.isPrefixOf t = true) : plainMarker? left host t = some 0 := by
  cases t with
  | nil => exact absurd (List.prefix_nil.1 (List.isPrefixOf_iff_prefix.1 h)) hleft
  | cons c cs => rw [plainMarker?, if_pos h]

/-- Where a comment opens, and no marker stands, the scan goes on behind the comment. -/
lemma plainMarker?_comment (hmarker : ¬left.isPrefixOf t = true) (h : OpensComment host t) :
    plainMarker? left host t =
      (plainMarker? left host (t.drop (commentLength commentOpener t))).map (· + commentLength commentOpener t) := by
  have hle := commentLength_le h.2
  cases t with
  | nil => exact absurd h.2 (by decide)
  | cons c cs =>
    rw [plainMarker?, if_neg hmarker, if_pos h]
    dsimp only
    rw [← drop_commentLength, List.length_drop, Nat.sub_sub_self hle]

lemma plainMarker?_plain {c : Char} {cs : Text} (hmarker : ¬left.isPrefixOf (c :: cs) = true)
    (h : ¬OpensComment host (c :: cs)) :
    plainMarker? left host (c :: cs) = (plainMarker? left host cs).map (· + 1) := by
  rw [plainMarker?, if_neg hmarker, if_neg h]

/-- The scan passes by places where nothing is found. -/
lemma plainMarker?_skip {n : Nat} (hn : n ≤ t.length)
    (h : ∀ q < n, ¬left.isPrefixOf (t.drop q) = true ∧ ¬OpensComment host (t.drop q)) :
    plainMarker? left host t = (plainMarker? left host (t.drop n)).map (· + n) := by
  induction n generalizing t with
  | zero => simp
  | succ n ih =>
    cases t with
    | nil => exact absurd hn (Nat.not_succ_le_zero n)
    | cons c cs =>
      obtain ⟨hmarker, hcomment⟩ := h 0 (Nat.succ_pos n)
      have hrest : plainMarker? left host cs = (plainMarker? left host (cs.drop n)).map (· + n) :=
        ih (Nat.le_of_succ_le_succ hn) fun q hq => h (q + 1) (Nat.succ_lt_succ hq)
      rw [plainMarker?_plain hmarker hcomment, hrest, Option.map_map, List.drop_succ_cons]
      rfl

/-! ## What is found first -/

/-- The first comment of the host language in a text. -/
def comment? (host : HostLanguage) (t : Text) : Option Nat :=
  match host with
  | .html => Text.find? commentOpener t
  | .text => none

lemma opensComment_of_comment? {n : Nat} (h : comment? host t = some n) : OpensComment host (t.drop n) := by
  cases host with
  | html => exact ⟨rfl, Text.isPrefixOf_drop_of_find? h⟩
  | text => exact nomatch h

lemma comment?_le {q : Nat} (h : OpensComment host (t.drop q)) : ∃ n ∈ comment? host t, n ≤ q := by
  obtain ⟨rfl, hopener⟩ := h
  cases hfind : Text.find? commentOpener t with
  | none => exact absurd hopener (Text.not_isPrefixOf_drop_of_find? (by decide) hfind q)
  | some n => exact ⟨n, hfind, Text.find?_le hfind hopener⟩

lemma add_length_le_of_comment? {n : Nat} (h : comment? host t = some n) : n + commentOpener.length ≤ t.length := by
  cases host with
  | html => exact Text.add_length_le_of_find? h
  | text => exact nomatch h

/-- The scan does not find what is not there. -/
lemma plainMarker?_of_noMarker (h : ∀ q, ¬left.isPrefixOf (t.drop q) = true) : plainMarker? left host t = none := by
  fun_induction plainMarker? left host t with
  | case1 => rfl
  | case2 c cs hmarker => exact absurd hmarker (h 0)
  | case3 c cs hmarker hcomment rest ih =>
    have hrest : rest = (c :: cs).drop (commentLength commentOpener (c :: cs)) := (drop_commentLength _).symm
    rw [ih fun q => by rw [hrest, List.drop_drop]; exact h _]
    rfl
  | case4 c cs hmarker hcomment ih =>
    rw [ih fun q => h (q + 1)]
    rfl

include hleft in
/-- A marker in front of which no comment opens is found. -/
lemma plainMarker?_of_marker {n : Nat} (h : Text.find? left t = some n) (hfirst : ∀ m ∈ comment? host t, n ≤ m) :
    plainMarker? left host t = some n := by
  have hle := Text.add_length_le_of_find? h
  have hmarker : plainMarker? left host (t.drop n) = some 0 :=
    plainMarker?_marker hleft (Text.isPrefixOf_drop_of_find? h)
  rw [plainMarker?_skip (n := n) (by omega), hmarker, Option.map_some, Nat.zero_add]
  refine fun q hq => ⟨fun hprefix => ?_, fun hcomment => ?_⟩
  · exact absurd (Text.find?_le h hprefix) (by omega)
  · obtain ⟨m, hm, hmq⟩ := comment?_le hcomment
    exact absurd (hfirst m hm) (by omega)

/-- A comment in front of which no marker stands is left out. -/
lemma plainMarker?_of_comment {m : Nat} (h : comment? host t = some m) (hfirst : ∀ n ∈ Text.find? left t, m < n) :
    plainMarker? left host t =
      (plainMarker? left host (t.drop (behindComment m t))).map (· + behindComment m t) := by
  have hle := add_length_le_of_comment? h
  have hmarker : ∀ q ≤ m, ¬left.isPrefixOf (t.drop q) = true := by
    intro q hq hprefix
    cases hfind : Text.find? left t with
    | none =>
      have hempty : left = [] := by
        by_contra hne
        exact Text.not_isPrefixOf_drop_of_find? hne hfind q hprefix
      subst hempty
      cases t <;> simp [Text.find?] at hfind
    | some n => exact absurd (Text.find?_le hfind hprefix) (by have := hfirst n hfind; omega)
  rw [plainMarker?_skip (n := m) (by omega),
    plainMarker?_comment (hmarker m (Nat.le_refl m)) (opensComment_of_comment? h), Option.map_map, List.drop_drop]
  · congr 1
    funext n
    simp only [Function.comp_apply, behindComment]
    omega
  · refine fun q hq => ⟨hmarker q (Nat.le_of_lt hq), fun hcomment => ?_⟩
    obtain ⟨n, hn, hnq⟩ := comment?_le hcomment
    obtain rfl : m = n := Option.some.inj (h.symm.trans hn)
    omega

/-! ## The search -/

include hleft in
lemma visibleMarker?_eq_plainMarker? (ho : commentOpener ≠ []) :
    visibleMarker? left commentOpener ho t = plainMarker? left .html t := by
  have hopener : commentOpener.length = 4 := rfl
  fun_induction visibleMarker? left commentOpener ho t with
  | case1 t h => rw [plainMarker?_of_noMarker (Text.not_isPrefixOf_drop_of_find? hleft h)]
  | case2 t n h hnone =>
    rw [plainMarker?_of_marker hleft h]
    -- a comment in front of the marker opens in the part looked at
    intro m hm
    by_contra hlt
    have hle := add_length_le_of_comment? hm
    have hfound : Text.find? commentOpener (t.take (n + commentOpener.length - 1) ++ t.drop _) = some m :=
      (List.take_append_drop _ t).symm ▸ hm
    rw [Text.find?_append hfound (by rw [List.length_take]; omega)] at hnone
    cases hnone
  | case3 t n h m hm len =>
    rename_i ih
    have hle := Text.add_length_le_of_find? hm
    rw [List.length_take] at hle
    have hcomment : comment? .html t = some m := by
      have := Text.find?_extend (t.drop (n + commentOpener.length - 1)) hm
      rwa [List.take_append_drop] at this
    have hfirst : ∀ k ∈ Text.find? left t, m < k := by
      intro k hk
      obtain rfl : n = k := Option.some.inj (h.symm.trans hk)
      omega
    rw [ih, plainMarker?_of_comment hcomment hfirst]
    rfl

include hleft in
/-- The marker that no comment hides is the one the scan finds. -/
lemma findMarker?_eq_plainMarker? : findMarker? left host t = plainMarker? left host t := by
  cases host with
  | html => exact visibleMarker?_eq_plainMarker? hleft _
  | text =>
    rw [findMarker?]
    cases h : Text.find? left t with
    | none => rw [plainMarker?_of_noMarker (Text.not_isPrefixOf_drop_of_find? hleft h)]
    | some n => rw [plainMarker?_of_marker hleft h fun m hm => by simp [comment?] at hm]

/-! ## The rounds -/

lemma commentFrom?_eq (start : Nat) : commentFrom? host start t = (comment? host (t.drop start)).map (start + ·) := by
  cases host <;> rfl

lemma behindComment_add (start m : Nat) : behindComment (start + m) t = start + behindComment m (t.drop start) := by
  rw [behindComment, behindComment, List.drop_drop, Nat.add_assoc]

lemma lt_behindComment {m : Nat} (h : comment? host t = some m) : m < behindComment m t := by
  have hle := add_length_le_of_comment? h
  have hopener : commentOpener.length = 4 := rfl
  unfold behindComment commentLength
  rw [List.length_drop]
  split <;> omega

/-- Where a comment comes first, the round sends the search behind it, unless no marker follows at all. -/
lemma searchRound_of_comment {start m : Nat} (hm : comment? host (t.drop start) = some m)
    (hfirst : ∀ n ∈ Text.find? left (t.drop start), m < n) :
    searchRound left host t start = .next (start + behindComment m (t.drop start)) ∨
      (searchRound left host t start = .answer none ∧ Text.find? left (t.drop start) = none) := by
  rw [searchRound, commentFrom?_eq, hm, findFrom?, ← behindComment_add]
  cases hfind : Text.find? left (t.drop start) with
  | none =>
    by_cases hend : t.length ≤ behindComment (start + m) t
    · exact .inr ⟨by simp [hend], rfl⟩
    · exact .inl (by simp [hend])
  | some n => exact .inl (by simp [hfirst n hfind])

/-- Where no comment comes first, the round answers with what it has found. -/
lemma searchRound_of_marker {start : Nat}
    (hfirst : ∀ m ∈ comment? host (t.drop start), ∃ n ∈ Text.find? left (t.drop start), n ≤ m) :
    searchRound left host t start = .answer ((Text.find? left (t.drop start)).map (start + ·)) := by
  rw [searchRound, commentFrom?_eq, findFrom?]
  cases hm : comment? host (t.drop start) with
  | none => cases Text.find? left (t.drop start) <;> rfl
  | some m =>
    obtain ⟨n, hn, hle⟩ := hfirst m hm
    rw [Option.mem_def.1 hn]
    simp [Nat.not_lt.2 hle]

include hleft in
/-- From each round on the search comes to the marker that the scan finds from the same place on. -/
lemma searches_plainMarker? (start : Nat) :
    Searches left host t start ((plainMarker? left host (t.drop start)).map (start + ·)) := by
  -- each round starts further behind than the one before
  induction hk : t.length - start using Nat.strongRecOn generalizing start with
  | _ k ih =>
    by_cases hcomment : ∃ m ∈ comment? host (t.drop start), ∀ n ∈ Text.find? left (t.drop start), m < n
    · obtain ⟨m, hm, hfirst⟩ := hcomment
      rcases searchRound_of_comment hm hfirst with hround | ⟨hround, hnone⟩
      · have hle := add_length_le_of_comment? hm
        have hlt := lt_behindComment hm
        have hopener : commentOpener.length = 4 := rfl
        rw [List.length_drop] at hle
        have hrest := ih _ (by omega) (start + behindComment m (t.drop start)) rfl
        rw [plainMarker?_of_comment hm hfirst, Option.map_map, List.drop_drop]
        refine .more hround (Eq.subst ?_ hrest)
        congr 1
        funext n
        simp only [Function.comp_apply]
        omega
      · rw [plainMarker?_of_noMarker (Text.not_isPrefixOf_drop_of_find? hleft hnone)]
        exact .last hround
    · simp only [not_exists, not_and, not_forall, Nat.not_lt] at hcomment
      have hfound : plainMarker? left host (t.drop start) = Text.find? left (t.drop start) := by
        cases hfind : Text.find? left (t.drop start) with
        | none => exact plainMarker?_of_noMarker (Text.not_isPrefixOf_drop_of_find? hleft hfind)
        | some n =>
          refine plainMarker?_of_marker hleft hfind fun m hm => ?_
          obtain ⟨k, hk, hle⟩ := hcomment m hm
          obtain rfl : n = k := Option.some.inj (hfind.symm.trans hk)
          exact hle
      rw [hfound]
      exact .last (searchRound_of_marker fun m hm => by simpa using hcomment m hm)

end

/-- The search comes to one answer only. -/
lemma Searches.unique {left t : Text} {host : HostLanguage} {start : Nat} {found found' : Option Nat}
    (h : Searches left host t start found) (h' : Searches left host t start found') : found = found' := by
  induction h with
  | last hround =>
    cases h' with
    | last hround' => exact SearchRound.answer.inj (hround.symm.trans hround')
    | more hround' _ => exact nomatch hround.symm.trans hround'
  | more hround _ ih =>
    cases h' with
    | last hround' => exact nomatch hround.symm.trans hround'
    | more hround' hrest =>
      obtain rfl := SearchRound.next.inj (hround.symm.trans hround')
      exact ih hrest

/-- **The search for the next opening marker comes to an answer, and to no other than the one of the scan from left to
right.** -/
theorem markers_scanned (left : Text) (host : HostLanguage) (t : Text) (hleft : left ≠ []) :
    findMarker? left host t = plainMarker? left host t ∧
      ∀ found, Searches left host t 0 found ↔ found = plainMarker? left host t := by
  refine ⟨findMarker?_eq_plainMarker? hleft, fun found => ?_⟩
  have hsearch : Searches left host t 0 (plainMarker? left host t) := by
    simpa using searches_plainMarker? (t := t) hleft 0
  exact ⟨fun h => h.unique hsearch, fun h => h ▸ hsearch⟩

/-- The marker that closes a comment opens no directive, but its next occurrence does. -/
theorem markers_scanned_closer :
    findMarker? "-->".toList .html "<!-- -->a-->".toList = plainMarker? "-->".toList .html "<!-- -->a-->".toList ∧
      Searches "-->".toList .html "<!-- -->a-->".toList 0 (some 9) := by
  obtain ⟨heq, hsearch⟩ := markers_scanned "-->".toList .html "<!-- -->a-->".toList (by decide)
  exact ⟨heq, (hsearch (some 9)).2 (by rw [← heq]; decide +kernel)⟩

end Template

end GoFront
