import GoFront.Proofs.Parse.Template.Effort
import GoFront.Proofs.Token.Rescan
import GoFront.Proofs.Token.Trimming

/-!
# The regions of a template tile it

The regions are cut from the tokens of a template, one block of tokens after another. `Cuts` says what a block can
be: a run of host text, or a directive that starts with an opening marker, in front of which stand at most the
blanks it trims. That a directive never starts with other blanks needs the state of the lexer: blanks outside
directives stand behind a closing marker that trims or in front of an opening one, and those behind a closing
marker belong to the directive it closes.

What holds of all regions is read off the blocks: `regions_divided`.
-/

namespace GoFront

/-- Regions that follow one another from one offset to another. -/
def Region.Tile : Nat → List Region → Nat → Prop
  | a, [], b => a = b
  | a, r :: rs, b => r.span.start = a ∧ Tile r.span.stop rs b

namespace Template

variable {c : TemplateConfig} {d : Delimiters} {host : HostLanguage}

/-! ## Blocks of tokens -/

/-- Tokens that start with an opening marker, behind at most one token of blanks. -/
def LeadsIn (ts : List Token) : Prop :=
  ∃ (gap : List Token) (l : Token) (more : List Token), ts = gap ++ l :: more ∧ gap.length ≤ 1 ∧
    (∀ g ∈ gap, g.kind = .whitespace) ∧ l.kind = .leftDelimiter

/-- Tokens cut into blocks, and the regions made of them. -/
inductive Cuts (c : TemplateConfig) : List Token → List Region → Prop
  /-- No tokens, no regions. -/
  | nil : Cuts c [] []
  /-- A run of host text, which ends where something else starts. -/
  | host {us rest : List Token} {rs : List Region} (hne : us ≠ []) (htext : ∀ u ∈ us, isText u = true)
    (hend : ∀ t ∈ rest.head?, isText t = false) (h : Cuts c rest rs) : Cuts c (us ++ rest) (hostRegion us :: rs)
  /-- A directive. Only one with a fault runs into the end. -/
  | directive {us rest : List Token} {fault : Option RegionFault} {rs : List Region} (hlead : LeadsIn us)
    (hfault : fault ≠ none → rest = []) (h : Cuts c rest rs) :
    Cuts c (us ++ rest) (directiveRegion c us fault :: rs)

/-- A point between the tokens of a template at which a region can start: outside directives, and not in front of
blanks that a closing marker trims. -/
structure Fresh (d : Delimiters) (before after : List Token) : Prop where
  /-- No directive is open. -/
  closed : ¬ IsOpen before
  /-- Blanks behind a closing marker that trims do not follow. -/
  trimmed : ∀ r ∈ before.getLast?, TrimsBehind d r → ∀ u ∈ after.head?, u.kind ≠ .whitespace

lemma markers_append (ts us : List Token) : markers (ts ++ us) = markers ts ++ markers us := by
  simp [markers]

/-- Behind a closing marker, with the blanks it trims, no directive is open. -/
lemma Settles.not_isOpen {ts : List Token} (h : Settles d ts) (before : List Token) : ¬ IsOpen (before ++ ts) := by
  have hlast : (markers ts).getLast? = some .rightDelimiter := by
    induction h with
    | close h => simp [markers, h]
    | blank h _ hu => simp [markers, h, hu]
    | @cons t ts _ ih =>
      rw [markers_cons]
      split
      · rw [List.getLast?_cons, ih]
        rfl
      · exact ih
  rw [IsOpen, markers_append, List.getLast?_append, hlast]
  simp

/-- Where a region starts and no host text follows, a directive leads in. -/
lemma leadsIn_of_fresh {offset : Nat} {text : Text} {before after : List Token} {t : Token}
    (h : tokens d host offset text = before ++ t :: after) (hfresh : Fresh d before (t :: after))
    (ht : isText t = false) : LeadsIn (t :: after) := by
  have hkind : t.kind ≠ .text := by simpa [isText] using ht
  rcases outside_draw h hfresh.closed with hk | hk | hk
  · exact absurd hk hkind
  · rcases blanks_draw h hfresh.closed hk with ⟨r, hr, htrim⟩ | ⟨l, hl, htrim⟩
    · exact absurd hk (hfresh.trimmed r hr htrim t rfl)
    · obtain ⟨more, rfl⟩ := List.head?_eq_some_iff.1 hl
      exact ⟨[t], l, more, rfl, Nat.le_refl 1, by simpa using hk, htrim.1⟩
  · exact ⟨[], t, after, rfl, Nat.zero_le 1, by simp, hk⟩

/-- A directive takes the marker that leads in, and the blanks in front of it. -/
lemma LeadsIn.extent {ts : List Token} (h : LeadsIn ts) : LeadsIn (extent d 0 false ts).taken := by
  obtain ⟨gap, l, more, rfl, hgap, hblank, hl⟩ := h
  have hopen : ∀ inAction, (Template.extent d 0 inAction (l :: more)).taken =
      l :: (Template.extent d (depthAfter 0 more) true more).taken := by
    intro inAction
    rw [Template.extent, if_pos hl]
    rfl
  rcases gap with _ | ⟨g, gap⟩
  · rw [List.nil_append, hopen]
    exact ⟨[], l, _, rfl, Nat.zero_le 1, by simp, hl⟩
  · obtain rfl : gap = [] := List.length_eq_zero_iff.1 (by simp only [List.length_cons] at hgap; omega)
    have hg : g.kind = .whitespace := hblank g (by simp)
    have htaken : (Template.extent d 0 false (g :: l :: more)).taken =
        g :: (Template.extent d 0 false (l :: more)).taken := by
      rw [Template.extent, if_neg (by simp [hg]), if_neg (by simp [hg])]
      rfl
    rw [List.cons_append, List.nil_append, htaken, hopen]
    exact ⟨[g], l, _, rfl, Nat.le_refl 1, by simpa using hg, hl⟩

/-- Behind a run of host text a region can start. -/
lemma fresh_of_text {before us rest : List Token} (hclosed : ¬ IsOpen before) (hne : us ≠ [])
    (htext : ∀ u ∈ us, isText u = true) : Fresh d (before ++ us) rest := by
  have hmarkers : markers us = [] := by
    rw [markers, List.filter_eq_nil_iff]
    intro k hk
    obtain ⟨u, hu, rfl⟩ := List.mem_map.1 hk
    have := htext u hu
    simp_all [isText]
  refine ⟨?_, fun r hr htrim => ?_⟩
  · rwa [IsOpen, markers_append, hmarkers, List.append_nil]
  · rw [List.getLast?_append_of_ne_nil _ hne] at hr
    have := htext r (List.mem_of_getLast? hr)
    rw [isText, htrim.1] at this
    exact absurd this (by decide)

/-- Behind a directive that is closed a region can start. -/
lemma fresh_of_closed {before : List Token} {e : Extent} (h : e.Closed d) : Fresh d (before ++ e.taken) e.rest := by
  refine ⟨h.settles.not_isOpen before, fun r hr htrim => ?_⟩
  rw [List.getLast?_append_of_ne_nil _ h.settles.ne_nil] at hr
  exact h.trimmed r hr htrim.1 htrim.2

/-- The regions of a template are made of blocks of its tokens. -/
lemma cuts_divide {text : Text} {ts : List Token} : ∀ before,
    tokens c.delimiters c.host 0 text = before ++ ts → (ts ≠ [] → Fresh c.delimiters before ts) →
    Cuts c ts (divide c ts) := by
  fun_induction divide c ts with
  | case1 => exact fun _ _ _ => .nil
  | case2 t ts ht ih =>
    intro before h hfresh
    have hsplit : t :: ts = (t :: ts.takeWhile isText) ++ ts.dropWhile isText := by
      rw [List.cons_append, List.takeWhile_append_dropWhile]
    have htext : ∀ u ∈ t :: ts.takeWhile isText, isText u = true := by
      refine List.forall_mem_cons.2 ⟨ht, fun u hu => List.all_eq_true.1 List.all_takeWhile u hu⟩
    rw [hsplit] at h
    have hrest := ih (before ++ (t :: ts.takeWhile isText)) (by rw [h, List.append_assoc])
      fun _ => fresh_of_text (hfresh (List.cons_ne_nil t ts)).closed (List.cons_ne_nil _ _) htext
    rw [hsplit]
    refine .host (List.cons_ne_nil _ _) htext (fun u hu => ?_) hrest
    simpa [Option.mem_def.1 hu] using List.head?_dropWhile_not isText ts
  | case3 t ts ht e ih =>
    intro before h hfresh
    have hsplit : e.taken ++ e.rest = t :: ts := taken_append_rest_extent c.delimiters 0 false (t :: ts)
    have hlead : LeadsIn (t :: ts) := leadsIn_of_fresh h (hfresh (List.cons_ne_nil t ts)) (by simpa using ht)
    have hrest : Cuts c e.rest (divide c e.rest) := by
      refine ih (before ++ e.taken) (by rw [h, List.append_assoc, hsplit]) fun hne => ?_
      refine fresh_of_closed (closed_extent ?_)
      by_contra hfault
      exact hne (rest_extent hfault)
    have hcuts := Cuts.directive (c := c) (hlead.extent (d := c.delimiters)) rest_extent hrest
    rwa [hsplit] at hcuts

/-- The regions of a template are made of blocks of its tokens, all of them. -/
lemma cuts_regions (c : TemplateConfig) (text : Text) :
    Cuts c (tokens c.delimiters c.host 0 text) (regions c text) :=
  cuts_divide [] rfl fun _ => ⟨by simp [IsOpen, markers], by simp⟩

/-! ## What holds of all regions -/

lemma LeadsIn.ne_nil {ts : List Token} (h : LeadsIn ts) : ts ≠ [] := by
  obtain ⟨gap, l, more, rfl, -⟩ := h
  simp

lemma charsOf_append (ts us : List Token) : charsOf (ts ++ us) = charsOf ts ++ charsOf us := List.flatMap_append

lemma startOf_of_tile {n : Nat} {us rest : List Token} (hne : us ≠ []) (h : Token.Tile n (us ++ rest)) :
    startOf us = n := by
  obtain ⟨u, us, rfl⟩ := List.exists_cons_of_ne_nil hne
  cases h
  rfl

/-- The block of tokens a region is made of. -/
structure Block (c : TemplateConfig) (us : List Token) (r : Region) : Prop where
  ne_nil : us ≠ []
  start_eq : r.start = startOf us
  text_eq : r.text = charsOf us
  /-- A directive has the tree of its characters. -/
  tree_eq : r.isDirective = true → r.tree? = some (parse c.delimiters c.host (startOf us) (charsOf us))
  /-- A directive leads in with an opening marker. -/
  leads : r.isDirective = true → LeadsIn us

lemma block_host {us : List Token} (hne : us ≠ []) : Block c us (hostRegion us) :=
  ⟨hne, rfl, rfl, fun h => absurd h (by simp [hostRegion, Region.isDirective, Region.tree?]),
    fun h => absurd h (by simp [hostRegion, Region.isDirective, Region.tree?])⟩

lemma block_directive {us : List Token} (hlead : LeadsIn us) (fault : Option RegionFault) :
    Block c us (directiveRegion c us fault) :=
  ⟨hlead.ne_nil, rfl, rfl, fun _ => rfl, fun _ => hlead⟩

lemma Cuts.exists_block {ts : List Token} {rs : List Region} (h : Cuts c ts rs) :
    ∀ r ∈ rs, ∃ before us after, ts = before ++ us ++ after ∧ Block c us r := by
  have hlater : ∀ {us rest : List Token} {r : Region},
      (∃ before vs after, rest = before ++ vs ++ after ∧ Block c vs r) →
      ∃ before vs after, us ++ rest = before ++ vs ++ after ∧ Block c vs r := by
    rintro us rest r ⟨before, vs, after, rfl, hblock⟩
    exact ⟨us ++ before, vs, after, by simp, hblock⟩
  induction h with
  | nil => simp
  | host hne _ _ _ ih =>
    exact List.forall_mem_cons.2 ⟨⟨[], _, _, rfl, block_host hne⟩, fun r hr => hlater (ih r hr)⟩
  | directive hlead _ _ ih =>
    exact List.forall_mem_cons.2 ⟨⟨[], _, _, rfl, block_directive hlead _⟩, fun r hr => hlater (ih r hr)⟩

lemma Cuts.tile {ts : List Token} {rs : List Region} (h : Cuts c ts rs) :
    ∀ {n : Nat}, Token.Tile n ts → Region.Tile n rs (n + (charsOf ts).size) := by
  have hcons : ∀ {us rest : List Token} {rs : List Region} {r : Region} {n : Nat}, us ≠ [] →
      r.start = startOf us → r.text = charsOf us → Token.Tile n (us ++ rest) →
      (∀ {m : Nat}, Token.Tile m rest → Region.Tile m rs (m + (charsOf rest).size)) →
      Region.Tile n (r :: rs) (n + (charsOf (us ++ rest)).size) := by
    intro us rest rs r n hne hstart htext htile hrest
    have hn : r.start = n := hstart.trans (startOf_of_tile hne htile)
    have hstop : r.span.stop = n + (charsOf us).size := by
      rw [Region.span, Span.stop, hn, htext]
    refine ⟨hn, ?_⟩
    have := hrest htile.behind
    rwa [hstop, charsOf_append, Text.size_append, ← Nat.add_assoc]
  induction h with
  | nil => exact fun _ => rfl
  | host hne _ _ _ ih => exact fun htile => hcons hne rfl rfl htile ih
  | directive hlead _ _ ih => exact fun htile => hcons hlead.ne_nil rfl rfl htile ih

lemma Cuts.chars {ts : List Token} {rs : List Region} (h : Cuts c ts rs) : rs.flatMap Region.text = charsOf ts := by
  induction h with
  | nil => rfl
  | host _ _ _ _ ih | directive _ _ _ ih =>
    rw [List.flatMap_cons, ih, charsOf_append]
    rfl

/-- Two stretches of markup are never next to one another. -/
lemma Cuts.alternate {ts : List Token} {rs : List Region} (h : Cuts c ts rs) :
    rs.IsChain fun a b => a.isDirective = true ∨ b.isDirective = true := by
  induction h with
  | nil => exact .nil
  | host _ _ hend hrest ih =>
    refine List.isChain_cons.2 ⟨fun r hr => .inr ?_, ih⟩
    -- what follows a run of host text does not start with any
    cases hrest with
    | nil => simp at hr
    | host hne htext _ _ =>
      obtain ⟨u, us, rfl⟩ := List.exists_cons_of_ne_nil hne
      exact absurd (htext u (by simp)) (by simp [hend u rfl])
    | directive =>
      obtain rfl : _ = r := by simpa using hr
      rfl
  | directive _ _ _ ih => exact List.isChain_cons.2 ⟨fun _ _ => .inl rfl, ih⟩

lemma Cuts.eq_nil {rs : List Region} (h : Cuts c [] rs) : rs = [] := by
  generalize hts : ([] : List Token) = ts at h
  cases h with
  | nil => rfl
  | host hne => exact absurd (List.append_eq_nil_iff.1 hts.symm).1 hne
  | directive hlead => exact absurd (List.append_eq_nil_iff.1 hts.symm).1 hlead.ne_nil

/-- A fault is that of the last region. -/
lemma Cuts.fault {ts : List Token} {rs : List Region} (h : Cuts c ts rs) : ∀ r ∈ rs.dropLast, r.fault? = none := by
  induction h with
  | nil => simp
  | @host us rest rs _ _ _ hrest ih =>
    cases rs with
    | nil => simp
    | cons s rs => exact List.forall_mem_cons.2 ⟨rfl, ih⟩
  | @directive us rest fault rs _ hfault hrest ih =>
    cases rs with
    | nil => simp
    | cons s rs =>
      refine List.forall_mem_cons.2 ⟨?_, ih⟩
      by_contra hne
      rw [hfault hne] at hrest
      exact absurd hrest.eq_nil (List.cons_ne_nil s rs)

/-- The regions of a template: they tile it, markup and directives take turns, and a directive has the tree of its
own stretch and starts with an opening marker. -/
structure Divided (c : TemplateConfig) (text : Text) (rs : List Region) : Prop where
  /-- The regions follow one another from the start of the template to its end. -/
  tile : Region.Tile 0 rs text.size
  chars : rs.flatMap Region.text = text
  /-- No region is empty. -/
  ne_nil : ∀ r ∈ rs, r.text ≠ []
  /-- Only the empty template has no regions. -/
  empty : rs = [] ↔ text = []
  /-- Two stretches of markup are never next to one another. -/
  alternate : rs.IsChain fun a b => a.isDirective = true ∨ b.isDirective = true
  /-- Markup has neither a tree nor a fault. -/
  host : ∀ r ∈ rs, r.isDirective = false → r.tree? = none ∧ r.fault? = none
  /-- A directive has the tree of its stretch, on the way to which no assertion fails, and the root covers the
  stretch. -/
  tree : ∀ r ∈ rs, r.isDirective = true → ∃ t, r.tree? = some t ∧
    parseRange? c.delimiters c.host text r.span.start r.span.stop = .ok t ∧ t.root.span = r.span
  /-- Among the tokens of the template that make up a directive, the first is an opening marker, or the second if
  the first are blanks. -/
  leads : ∀ r ∈ rs, r.isDirective = true → ∃ before us after,
    tokens c.delimiters c.host 0 text = before ++ us ++ after ∧ Token.Covers r.span.start r.text us ∧ LeadsIn us
  /-- Only the last region can have a fault. -/
  fault : ∀ r ∈ rs.dropLast, r.fault? = none

/-- The stretch of a region between the characters before it and those behind it. -/
lemma Block.covers {text : Text} {before us after : List Token} {r : Region} (h : Block c us r)
    (hts : Token.Covers 0 text (before ++ us ++ after)) :
    text = charsOf before ++ r.text ++ charsOf after ∧ r.start = (charsOf before).size ∧
      Token.Covers r.start r.text us := by
  have htile : Token.Tile (charsOf before).size (us ++ after) := by
    have := hts.tile
    rw [List.append_assoc] at this
    simpa [charsOf] using this.behind
  have hstart : r.start = (charsOf before).size := h.start_eq.trans (startOf_of_tile h.ne_nil htile)
  refine ⟨?_, hstart, hstart ▸ htile.left, h.text_eq.symm⟩
  rw [h.text_eq, ← charsOf_append, ← charsOf_append]
  exact hts.chars.symm

/-- A directive has the tree of its stretch. -/
lemma Block.tree {text : Text} {before us after : List Token} {r : Region} (h : Block c us r)
    (hts : Token.Covers 0 text (before ++ us ++ after)) (hdir : r.isDirective = true) :
    ∃ t, r.tree? = some t ∧ parseRange? c.delimiters c.host text r.span.start r.span.stop = .ok t ∧
      t.root.span = r.span := by
  obtain ⟨htext, hstart, -⟩ := h.covers hts
  obtain ⟨hparse, hcovers⟩ := parse?_eq_ok c.delimiters c.host r.start r.text
  refine ⟨parse c.delimiters c.host r.start r.text, ?_, ?_, hcovers.span⟩
  · rw [h.tree_eq hdir, h.start_eq, h.text_eq]
  · have hslice : text.slice? r.span.start r.span.stop = some r.text := by
      rw [Region.span, Span.stop, hstart, htext]
      exact slice?_append _ _ _
    rw [parseRange?, hslice]
    exact hparse

/-- The regions of every template tile it in order, without empty ones, each directive parsed on its own stretch. -/
theorem regions_divided (c : TemplateConfig) (text : Text) : Divided c text (regions c text) := by
  have hcuts := cuts_regions c text
  have hcovers := covers_tokens c.delimiters c.host 0 text
  have hchars : (regions c text).flatMap Region.text = text := hcuts.chars.trans hcovers.chars
  have hne : ∀ r ∈ regions c text, r.text ≠ [] := by
    intro r hr
    obtain ⟨before, us, after, hts, hblock⟩ := hcuts.exists_block r hr
    obtain ⟨u, us, rfl⟩ := List.exists_cons_of_ne_nil hblock.ne_nil
    have hu : u.text ≠ [] := tokens_ne_nil c.delimiters c.host 0 text u (by simp [hts])
    rw [hblock.text_eq, charsOf, List.flatMap_cons]
    exact List.append_ne_nil_of_left_ne_nil hu _
  exact
    { tile := by
        have := hcuts.tile hcovers.tile
        rwa [Nat.zero_add, show charsOf (tokens c.delimiters c.host 0 text) = text from hcovers.chars] at this
      chars := hchars
      ne_nil := hne
      empty := by
        refine ⟨fun h => by rw [← hchars, h]; rfl, fun h => ?_⟩
        rw [h, List.flatMap_eq_nil_iff] at hchars
        rw [h] at hne ⊢
        exact List.eq_nil_iff_forall_not_mem.2 fun r hr => hne r hr (hchars r hr)
      alternate := hcuts.alternate
      host := by
        intro r _ hr
        cases r with
        | host => exact ⟨rfl, rfl⟩
        | directive => exact absurd hr (by simp [Region.isDirective, Region.tree?])
      tree := by
        intro r hr hdir
        obtain ⟨before, us, after, hts, hblock⟩ := hcuts.exists_block r hr
        exact hblock.tree (hts ▸ hcovers) hdir
      leads := by
        intro r hr hdir
        obtain ⟨before, us, after, hts, hblock⟩ := hcuts.exists_block r hr
        exact ⟨before, us, after, hts, (hblock.covers (hts ▸ hcovers)).2.2, hblock.leads hdir⟩
      fault := hcuts.fault }

end Template

end GoFront
