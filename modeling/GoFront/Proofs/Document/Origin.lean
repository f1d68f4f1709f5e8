import GoFront.Proofs.Document.Extent
import GoFront.Proofs.Parse.Template.Verdict

/-!
# Where the directives of a template come from

Each directive of a template is cut out of its tokens by counting blocks, and its tree is made of the tokens that its
characters have on their own (`Origin`). These are the tokens it was cut out of, but for a number that takes a closing
marker that is a point. So the tree of a directive is read off the tokens of the whole template: `directives_rescanned`.
-/

namespace GoFront

namespace Template

open GoFront.Parser

variable {c : TemplateConfig} {us after : List Token} {r : Region}

/-- A directive comes from the tokens `us` in front of the tokens `after`: the former are those that the count of blocks
takes, and on their own its characters have the same, unless a number takes the closing marker. -/
structure Origin (c : TemplateConfig) (us after : List Token) (r : Region) : Prop where
  extent_eq : extent c.delimiters 0 false (us ++ after) = ⟨us, r.fault?, after⟩
  /-- The directive leads in with an opening marker. -/
  leads : LeadsIn us
  start_eq : r.start = startOf us
  text_eq : r.text = charsOf us
  tree_eq : r.tree? = some (parse c.delimiters c.host r.start r.text)
  recut : Recut c.delimiters us (tokens c.delimiters c.host r.start r.text)
  /-- If the directive runs into the end, there is no closing marker to take. -/
  whole : r.fault? ≠ none → tokens c.delimiters c.host r.start r.text = us

/-- The directive at the front of a text. -/
lemma origin_directiveRegion {offset : Nat} {text : Text} {t : Token} {ts : List Token} (ht : isText t = false)
    (h : tokens c.delimiters c.host offset text = t :: ts) {e : Extent} (he : extent c.delimiters 0 false (t :: ts) = e) :
    Origin c e.taken e.rest (directiveRegion c e.taken e.fault) := by
  obtain ⟨hrecut, -, hwhole⟩ := recut_extent h
  -- a region can start where a text does, so host text or an opening marker comes first
  have hsplit := taken_append_rest_extent c.delimiters 0 false (t :: ts)
  have hlead := (leadsIn_of_fresh h (⟨by simp [IsOpen, markers], by simp⟩ : Fresh c.delimiters [] (t :: ts)) ht).extent
    (d := c.delimiters)
  rw [he] at hrecut hwhole hsplit hlead
  have hstart : startOf e.taken = offset := by
    have hcovers := covers_tokens c.delimiters c.host offset text
    rw [h, ← hsplit] at hcovers
    exact startOf_of_tile hlead.ne_nil hcovers.tile
  exact
    { extent_eq := by rw [hsplit]; exact he
      leads := hlead
      start_eq := rfl
      text_eq := rfl
      tree_eq := rfl
      recut := by
        change Recut c.delimiters e.taken (tokens c.delimiters c.host (startOf e.taken) (charsOf e.taken))
        rwa [hstart]
      whole := by
        change e.fault ≠ none → tokens c.delimiters c.host (startOf e.taken) (charsOf e.taken) = e.taken
        rwa [hstart] }

/-- Each directive comes from some of the tokens that are divided. -/
lemma exists_origin_divide (ts : List Token) : ∀ offset text, tokens c.delimiters c.host offset text = ts →
    ∀ r ∈ divide c ts, r.isDirective = true → ∃ before us after, ts = before ++ us ++ after ∧ Origin c us after r := by
  have hlater : ∀ {us rest : List Token} {r : Region},
      (∃ before vs after, rest = before ++ vs ++ after ∧ Origin c vs after r) →
      ∃ before vs after, us ++ rest = before ++ vs ++ after ∧ Origin c vs after r := by
    rintro us rest r ⟨before, vs, after, rfl, horigin⟩
    exact ⟨us ++ before, vs, after, by simp, horigin⟩
  fun_induction divide c ts with
  | case1 => simp
  | case2 t ts ht ih =>
    intro offset text h
    have hsplit : t :: ts = (t :: ts.takeWhile isText) ++ ts.dropWhile isText := by
      rw [List.cons_append, List.takeWhile_append_dropWhile]
    have htext : ∀ u ∈ t :: ts.takeWhile isText, isText u = true := by
      refine List.forall_mem_cons.2 ⟨ht, fun u hu => List.all_eq_true.1 List.all_takeWhile u hu⟩
    rw [hsplit] at h ⊢
    refine List.forall_mem_cons.2 ⟨fun hdir => ?_, fun r hr hdir => hlater (ih _ _ (tokens_dropText htext h) r hr hdir)⟩
    exact absurd hdir (by simp [hostRegion, Region.isDirective, Region.tree?])
  | case3 t ts ht e ih =>
    intro offset text h
    have hsplit : e.taken ++ e.rest = t :: ts := taken_append_rest_extent c.delimiters 0 false (t :: ts)
    have horigin : Origin c e.taken e.rest (directiveRegion c e.taken e.fault) :=
      origin_directiveRegion (by simpa using ht) h rfl
    rw [← hsplit]
    -- what follows is scanned in the same way on its own, even if a number takes the closing marker
    exact List.forall_mem_cons.2 ⟨fun _ => ⟨[], _, _, rfl, horigin⟩,
      fun r hr hdir => hlater (ih _ _ (recut_extent h).2.1 r hr hdir)⟩

/-- Each directive of a template comes from some of its tokens. -/
lemma exists_origin (text : Text) (hr : r ∈ regions c text) (hdir : r.isDirective = true) :
    ∃ before us after, tokens c.delimiters c.host 0 text = before ++ us ++ after ∧ Origin c us after r :=
  exists_origin_divide _ 0 text rfl r hr hdir

/-! ## The count on the tokens of a directive alone -/

namespace Origin

variable (h : Origin c us after r)

include h

/-- The words of a directive start with its opening marker. -/
lemma ahead_eq : ahead (significantKinds (tokens c.delimiters c.host r.start r.text)) 0 = .leftDelimiter := by
  obtain ⟨ks, hks⟩ := (h.recut.leadsIn h.leads).significantKinds_eq
  rw [hks]
  rfl

/-- The count on the tokens a directive without a fault comes from. -/
lemma behind_of_fault (hfault : r.fault? = none) : behind false [] (significantKinds us) = .ok [] := by
  have htaken : (extent c.delimiters 0 false (us ++ after)).taken = us := congrArg Extent.taken h.extent_eq
  have hcount := behind_taken ((congrArg Extent.fault h.extent_eq).trans hfault)
  rwa [htaken] at hcount

/-- A directive without a fault closes all it opens. -/
lemma closed (hfault : r.fault? = none) :
    behind false [] (significantKinds (tokens c.delimiters c.host r.start r.text)) = .ok [] ∨
      ∃ inside, behind false [] (significantKinds (tokens c.delimiters c.host r.start r.text)) = .error (inside, []) :=
  h.recut.behind (h.behind_of_fault hfault)

/-- A directive with a fault ends inside an action or inside a block, as the fault says. -/
lemma opened {f : RegionFault} (hf : r.fault? = some f) : ∃ inside opened,
    f = (if inside then .unclosedAction else .missingEnd c.delimiters) ∧
      behind false [] (significantKinds (tokens c.delimiters c.host r.start r.text)) = .error (inside, opened) ∧
      (inside = false → opened ≠ []) := by
  have hfault : (extent c.delimiters 0 false (us ++ after)).fault = some f :=
    (congrArg Extent.fault h.extent_eq).trans hf
  -- nothing follows, so the count on the tokens that are taken is that on all of them
  have hrest : after = [] := by
    have hnil := rest_extent (fun hnone => Option.some_ne_none f (hfault.symm.trans hnone))
    rwa [h.extent_eq] at hnil
  subst hrest
  rw [List.append_nil] at hfault
  rw [h.whole (fun hnone => Option.some_ne_none f (hf.symm.trans hnone))]
  rcases behind_extent (d := c.delimiters) false [] us with ⟨hnone, -⟩ | ⟨inside, opened, hsome, hbehind⟩
  · exact absurd (hnone.symm.trans hfault) (Option.some_ne_none f).symm
  · refine ⟨inside, opened, Option.some.inj (hfault.symm.trans hsome), hbehind, ?_⟩
    rintro rfl
    obtain ⟨ks, hks⟩ := h.leads.significantKinds_eq
    rw [hks, behind_left] at hbehind
    exact opened_ne_nil hbehind (.inl rfl)

end Origin

/-! ## The tokens of a directive among those of the template -/

/-- Of tokens that follow one another and are not empty, some are those that lie in the stretch they cover. -/
lemma filter_covers {n : Nat} {before us after : List Token} (h : Token.Tile n (before ++ us ++ after))
    (hne : ∀ t ∈ before ++ us ++ after, t.text ≠ []) :
    (before ++ us ++ after).filter (fun t => Span.covers ⟨n + (charsOf before).size, (charsOf us).size⟩ t.span) = us := by
  have hsize : ∀ t ∈ before ++ us ++ after, t.start < t.stop := fun t ht =>
    Nat.lt_add_of_pos_right (Nat.pos_of_ne_zero (mt Text.size_eq_zero.1 (hne t ht)))
  have hus : Token.Tile (n + (charsOf before).size) us := h.left.behind
  have hafter : Token.Tile (n + (charsOf before).size + (charsOf us).size) after := by
    have := h.behind
    rwa [List.flatMap_append, Text.size_append, ← Nat.add_assoc] at this
  rw [List.filter_append, List.filter_append]
  have hnone : before.filter (fun t => Span.covers ⟨n + (charsOf before).size, (charsOf us).size⟩ t.span) = [] := by
    rw [List.filter_eq_nil_iff]
    intro t ht hcovers
    have hbound : t.stop ≤ n + (charsOf before).size := (h.left.left.bounds t ht).2
    have hstart : n + (charsOf before).size ≤ t.start := (Span.covers_iff.1 hcovers).1
    exact absurd (hsize t (by simp [ht])) (Nat.not_lt.2 (hbound.trans hstart))
  have hall : us.filter (fun t => Span.covers ⟨n + (charsOf before).size, (charsOf us).size⟩ t.span) = us := by
    rw [List.filter_eq_self]
    exact fun t ht => Span.covers_iff.2 (hus.bounds t ht)
  have hnone' : after.filter (fun t => Span.covers ⟨n + (charsOf before).size, (charsOf us).size⟩ t.span) = [] := by
    rw [List.filter_eq_nil_iff]
    intro t ht hcovers
    have hbound : n + (charsOf before).size + (charsOf us).size ≤ t.start := (hafter.bounds t ht).1
    have hstop : t.stop ≤ n + (charsOf before).size + (charsOf us).size := (Span.covers_iff.1 hcovers).2
    exact absurd (hsize t (by simp [ht])) (Nat.not_lt.2 (hstop.trans hbound))
  rw [hnone, hall, hnone', List.nil_append, List.append_nil]

/-- Scanning a directive once more changes nothing, unless the closing marker is a single point: the tokens of which its
tree is made are those of the whole template that lie in its stretch, and without a fault of the directive no error of its
tree says that an action is not closed. -/
theorem directives_rescanned (c : TemplateConfig) (hright : c.delimiters.right ≠ ['.']) (text : Text) (r : Region)
    (hr : r ∈ regions c text) (hdir : r.isDirective = true) : ∃ ds t,
      drawRange? c.delimiters c.host text r.span.start r.span.stop = some ds ∧ r.tree? = some t ∧
      t.root.leaves.map Leaf.token = ds.map Drawn.token ∧
      ds.map Drawn.token = (tokens c.delimiters c.host 0 text).filter (fun u => r.span.covers u.span) ∧
      (r.fault? = none → ∀ e ∈ t.errors, e.message ≠ "unclosed action") := by
  obtain ⟨before, us, after, hts, horigin⟩ := exists_origin text hr hdir
  have hcovers := covers_tokens c.delimiters c.host 0 text
  have hne := tokens_ne_nil c.delimiters c.host 0 text
  rw [hts] at hcovers hne
  have hsame : tokens c.delimiters c.host r.start r.text = us := horigin.recut.eq hright
  have hstart : r.start = (charsOf before).size := by
    have htile := hcovers.tile
    rw [List.append_assoc] at htile
    have hbehind := startOf_of_tile horigin.leads.ne_nil htile.behind
    rwa [Nat.zero_add, ← horigin.start_eq] at hbehind
  have htext : text = charsOf before ++ r.text ++ charsOf after := by
    rw [horigin.text_eq, ← charsOf_append, ← charsOf_append]
    exact hcovers.chars.symm
  have hslice : text.slice? r.span.start r.span.stop = some r.text := by
    rw [Region.span, Span.stop, hstart, htext]
    exact slice?_append _ _ _
  refine ⟨draw c.delimiters c.host r.start r.text, parse c.delimiters c.host r.start r.text, ?_, horigin.tree_eq,
    (parse?_eq_ok c.delimiters c.host r.start r.text).2.tokens, ?_, fun hfault e he hmessage => ?_⟩
  · rw [drawRange?, hslice]
    rfl
  · have hfilter := filter_covers hcovers.tile hne
    rw [Nat.zero_add, ← hstart, ← horigin.text_eq] at hfilter
    rw [hts]
    exact hsame.trans hfilter.symm
  · have hends : endsInside false (significantKinds (tokens c.delimiters c.host r.start r.text)) = false := by
      rw [hsame]
      exact endsInside_of_closed (horigin.behind_of_fault hfault)
    have hnone := unclosed_eq_nil hends
    rw [← map_report_unclosed, List.map_eq_nil_iff, List.filter_eq_nil_iff] at hnone
    exact hnone e he (decide_eq_true hmessage)

theorem directives_rescanned_standard : ∃ r ∈ regions .standard "a{{.}}".toList, r.isDirective = true ∧ ∃ ds t,
    drawRange? .braces .html "a{{.}}".toList r.span.start r.span.stop = some ds ∧ r.tree? = some t ∧
      t.root.leaves.map Leaf.token = ds.map Drawn.token ∧
      ds.map Drawn.token = (tokens .braces .html 0 "a{{.}}".toList).filter (fun u => r.span.covers u.span) ∧
      (r.fault? = none → ∀ e ∈ t.errors, e.message ≠ "unclosed action") := by
  have hexists : ∃ r ∈ regions .standard "a{{.}}".toList, r.isDirective = true := by decide +kernel
  obtain ⟨r, hr, hdir⟩ := hexists
  exact ⟨r, hr, hdir, directives_rescanned .standard (by decide) _ r hr hdir⟩

/-- Where the closing marker is a single point, a number in front of it takes it when the directive is scanned once
more. -/
theorem point_taken : ∃ c : TemplateConfig, c.delimiters.left = ['{', '{'] ∧ c.delimiters.right = ['.'] ∧
    ∃ r ∈ regions c "\x7b\x7b1..".toList, r.isDirective = true ∧ r.fault? = none ∧
      tokens c.delimiters c.host r.start r.text ≠
        (tokens c.delimiters c.host 0 "\x7b\x7b1..".toList).filter (fun u => r.span.covers u.span) ∧
      ∃ t ∈ r.tree?, ∃ e ∈ t.errors, e.message = "unclosed action" := by
  refine ⟨⟨⟨['{', '{'], ['.'], by decide, by decide⟩, .html, by decide⟩, rfl, rfl, ?_⟩
  decide +kernel

end Template

end GoFront
