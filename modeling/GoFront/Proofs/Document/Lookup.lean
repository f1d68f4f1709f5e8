import GoFront.Document.Basic
import GoFront.Proofs.Document.Division
import GoFront.Proofs.Tree.Lookup

/-!
# Looking things up in a template

A search by halving asks for numbers on both sides of the point it looks for and comes out at a point where the answer
changes (`bisect_switches`), whatever it asks. The regions of a template tile it, so they end one behind the other: the
answer changes at one point only, and there is the region looked for (`TemplateDocument.regionAt?_eq`). The tree of a
directive covers its region, so a look-up goes on in the tree with the innermost node around the offset.

The main statement is `TemplateDocument.located`.
-/

namespace GoFront

/-! ## A search by halving -/

/-- A search ends at a number that is not chosen, or at the upper bound, and behind one that is, or at the lower bound. -/
lemma bisect_switches (before : Nat → Bool) {lo hi : Nat} (h : lo ≤ hi) :
    lo ≤ bisect before lo hi ∧ bisect before lo hi ≤ hi ∧
      (lo < bisect before lo hi → before (bisect before lo hi - 1) = true) ∧
      (bisect before lo hi < hi → before (bisect before lo hi) = false) := by
  fun_induction bisect before lo hi with
  | case1 lo hi hlt mid hmid ih =>
    obtain ⟨hlo, hhi, hchosen, hother⟩ := ih (by omega)
    refine ⟨by omega, hhi, fun _ => ?_, hother⟩
    rcases Nat.eq_or_lt_of_le hlo with heq | hlt
    · rw [← heq]
      exact hmid
    · exact hchosen hlt
  | case2 lo hi hlt mid hmid ih =>
    obtain ⟨hlo, hhi, hchosen, hother⟩ := ih (by omega)
    refine ⟨hlo, by omega, hchosen, fun _ => ?_⟩
    rcases Nat.eq_or_lt_of_le hhi with heq | hlt
    · rw [heq]
      exact Bool.eq_false_iff.2 hmid
    · exact hother hlt
  | case3 lo hi hlt => exact ⟨le_rfl, h, fun h => absurd h (Nat.lt_irrefl _), fun h => absurd h hlt⟩

/-! ## Regions that follow one another -/

namespace Region.Tile

variable {a b offset : Nat} {rs : List Region}

lemma le (h : Tile a rs b) : a ≤ b := by
  induction rs generalizing a with
  | nil => exact Nat.le_of_eq h
  | cons r rs ih =>
    obtain ⟨rfl, hrest⟩ := h
    exact r.span.start_le_stop.trans (ih hrest)

lemma start_le (h : Tile a rs b) : ∀ r ∈ rs, a ≤ r.span.start := by
  induction rs generalizing a with
  | nil => simp
  | cons r rs ih =>
    obtain ⟨rfl, hrest⟩ := h
    exact List.forall_mem_cons.2 ⟨le_rfl, fun s hs => r.span.start_le_stop.trans (ih hrest s hs)⟩

lemma stop_le (h : Tile a rs b) : ∀ r ∈ rs, r.span.stop ≤ b := by
  induction rs generalizing a with
  | nil => simp
  | cons r rs ih => exact List.forall_mem_cons.2 ⟨h.2.le, ih h.2⟩

/-- They end one behind the other. -/
lemma pairwise_stop (h : Tile a rs b) : rs.Pairwise fun r s => r.span.stop ≤ s.span.stop := by
  induction rs generalizing a with
  | nil => exact .nil
  | cons r rs ih =>
    refine List.pairwise_cons.2 ⟨fun s hs => ?_, ih h.2⟩
    exact (h.2.start_le s hs).trans s.span.start_le_stop

lemma stop_getLast? (h : Tile a rs b) : ∀ r ∈ rs.getLast?, r.span.stop = b := by
  induction rs generalizing a with
  | nil => simp
  | cons r rs ih =>
    cases rs with
    | nil =>
      intro s hs
      obtain rfl := Option.some.inj hs
      exact h.2
    | cons s rs => simpa [List.getLast?_cons_cons] using ih h.2

/-- The first region that ends behind an offset is the only one that holds it. -/
lemma exists_holds (h : Tile a rs b) (ha : a ≤ offset) (hb : offset < b) :
    ∃ r, rs.find? (offset < ·.span.stop) = some r ∧ rs.filter (·.span.holds offset) = [r] := by
  induction rs generalizing a with
  | nil => exact absurd (h ▸ hb) (Nat.not_lt.2 ha)
  | cons r rs ih =>
    obtain ⟨rfl, hrest⟩ := h
    by_cases hstop : offset < r.span.stop
    · have hat : r.span.holds offset = true := Span.holds_iff.2 ⟨ha, hstop⟩
      have hnone : rs.filter (·.span.holds offset) = [] := by
        refine List.filter_eq_nil_iff.2 fun s hs hsat => ?_
        have hbehind := hrest.start_le s hs
        have hbounds := Span.holds_iff.1 hsat
        omega
      refine ⟨r, by simp [hstop], ?_⟩
      rw [List.filter_cons, if_pos hat, hnone]
    · have hoff : ¬ r.span.holds offset = true := fun hat => hstop (Span.holds_iff.1 hat).2
      obtain ⟨s, hfind, hfilter⟩ := ih hrest (Nat.not_lt.1 hstop)
      exact ⟨s, by simpa [hstop] using hfind, by rwa [List.filter_cons, if_neg hoff]⟩

lemma find?_eq_none (h : Tile a rs b) (hb : b ≤ offset) : rs.find? (offset < ·.span.stop) = none := by
  rw [List.find?_eq_none]
  intro r hr
  have hstop := (h.stop_le r hr).trans hb
  simpa using hstop

end Region.Tile

namespace TemplateDocument

variable {doc : TemplateDocument} {offset : Nat}

/-! ## Looking up -/

lemma endsBy_eq_true {i : Nat} :
    doc.endsBy offset i = true ↔ ∃ r, doc.regions[i]? = some r ∧ r.span.stop ≤ offset := by
  simp [endsBy, Option.any_eq_true]

/-- If the regions tile a text, the search by halving finds the first one that ends behind the offset. -/
lemma regionAt?_eq {a b : Nat} (h : Region.Tile a doc.regions b) : doc.regionAt? offset =
    (doc.regions.find? (offset < ·.span.stop)).or (doc.regions.getLast?.filter (·.span.stop = offset)) := by
  obtain ⟨-, hle, hchosen, hother⟩ := bisect_switches (doc.endsBy offset) (Nat.zero_le doc.regions.length)
  rw [regionAt?]
  generalize bisect (doc.endsBy offset) 0 doc.regions.length = i at hle hchosen hother
  congr 1
  have hbefore : ∀ j (hj : j < doc.regions.length), j < i → doc.regions[j].span.stop ≤ offset := by
    intro j hj hji
    obtain ⟨r, hr, hstop⟩ := endsBy_eq_true.1 (hchosen (Nat.zero_lt_of_lt hji))
    obtain ⟨hi, rfl⟩ := List.getElem?_eq_some_iff.1 hr
    rcases Nat.eq_or_lt_of_le (Nat.le_sub_one_of_lt hji) with rfl | hlt
    · exact hstop
    · exact (List.pairwise_iff_getElem.1 h.pairwise_stop j (i - 1) hj hi hlt).trans hstop
  rcases Nat.eq_or_lt_of_le hle with rfl | hlt
  · rw [List.getElem?_eq_none le_rfl, eq_comm, List.find?_eq_none]
    intro r hr
    obtain ⟨j, hj, rfl⟩ := List.getElem_of_mem hr
    simpa using hbefore j hj hj
  · rw [List.getElem?_eq_getElem hlt, eq_comm, List.find?_eq_some_iff_getElem]
    have hends : ¬ doc.regions[i].span.stop ≤ offset := fun hstop =>
      Bool.eq_false_iff.1 (hother hlt) (endsBy_eq_true.2 ⟨_, List.getElem?_eq_getElem hlt, hstop⟩)
    refine ⟨by simpa using hends, i, hlt, rfl, fun j hj => ?_⟩
    simpa using hbefore j (hj.trans hlt) hj

section Tile

variable {a b : Nat} (h : Region.Tile a doc.regions b)

include h

/-- The region at an offset is the only one that holds it. -/
lemma exists_regionAt? (ha : a ≤ offset) (hb : offset < b) :
    ∃ r, doc.regionAt? offset = some r ∧ doc.regions.filter (·.span.holds offset) = [r] := by
  obtain ⟨r, hfind, hfilter⟩ := h.exists_holds ha hb
  exact ⟨r, by rw [regionAt?_eq h, hfind, Option.some_or], hfilter⟩

/-- The last region is the one at the end. -/
lemma regionAt?_end : doc.regionAt? b = doc.regions.getLast? := by
  rw [regionAt?_eq h, h.find?_eq_none le_rfl, Option.none_or]
  cases hlast : doc.regions.getLast? with
  | none => rfl
  | some r =>
    have hstop : r.span.stop = b := h.stop_getLast? r hlast
    simp [Option.filter, hstop]

lemma regionAt?_eq_none (hb : b < offset) : doc.regionAt? offset = none := by
  rw [regionAt?_eq h, h.find?_eq_none hb.le, Option.none_or]
  cases hlast : doc.regions.getLast? with
  | none => rfl
  | some r =>
    have hstop : r.span.stop = b := h.stop_getLast? r hlast
    simp [Option.filter, hstop, hb.ne]

end Tile

/-- There is no node at an offset if and only if there is no region or it is markup. -/
lemma nodeAt?_eq_none_iff : doc.nodeAt? offset = none ↔
    doc.regionAt? offset = none ∨ ∃ start text, doc.regionAt? offset = some (.host start text) := by
  rw [nodeAt?, Option.map_eq_none_iff]
  rcases doc.regionAt? offset with _ | r
  · simp
  · cases r <;> simp [Region.tree?]

/-! ## Documents of a text -/

variable {c : TemplateConfig} {text : Text}

lemma tile_regions (text : Text) (c : TemplateConfig) : Region.Tile 0 (ofText text c).regions text.size := by
  have hcovers := Template.covers_tokens c.delimiters c.host 0 text
  have htile := (Template.cuts_regions c text).tile hcovers.tile
  rwa [Nat.zero_add, show Template.charsOf (Template.tokens c.delimiters c.host 0 text) = text from hcovers.chars] at htile

/-- The empty text has no regions. -/
lemma regions_nil (c : TemplateConfig) : (ofText [] c).regions = [] := by
  have hcuts := Template.cuts_regions c []
  have hempty : Template.tokens c.delimiters c.host 0 [] = [] := by
    have hchars := (Template.covers_tokens c.delimiters c.host 0 []).chars
    rw [List.flatMap_eq_nil_iff] at hchars
    refine List.eq_nil_iff_forall_not_mem.2 fun u hu => ?_
    exact Template.tokens_ne_nil c.delimiters c.host 0 [] u hu (hchars u hu)
  rw [hempty] at hcuts
  exact hcuts.eq_nil

/-- The tree of a directive covers its region, and the parts of its nodes tile them. -/
lemma tree_covers {r : Region} {t : SyntaxTree} (hr : r ∈ (ofText text c).regions) (ht : r.tree? = some t) :
    t.root.span = r.span ∧ ∀ n ∈ t.root.descendants, n.Tiled := by
  obtain ⟨-, us, -, -, hblock⟩ := (Template.cuts_regions c text).exists_block r hr
  have hcovers := (Template.parse?_eq_ok c.delimiters c.host (Template.startOf us) (Template.charsOf us)).2
  rw [hblock.tree_eq (by rw [Region.isDirective, ht]; rfl)] at ht
  obtain rfl := Option.some.inj ht
  refine ⟨?_, hcovers.tiled⟩
  rw [hcovers.span, Region.span, hblock.start_eq, hblock.text_eq]

/-- What is looked up in a document at an offset. -/
structure Locates (doc : TemplateDocument) (offset : Nat) : Prop where
  /-- In the text it is the only region that holds the offset. -/
  inside : offset < doc.text.size →
    ∃ r, doc.regionAt? offset = some r ∧ doc.regions.filter (·.span.holds offset) = [r]
  /-- At the end of the text it is the last region. -/
  atEnd : offset = doc.text.size → doc.text ≠ [] →
    ∃ r, doc.regionAt? offset = some r ∧ doc.regions.getLast? = some r
  /-- Behind the end and in the empty text there is none. -/
  outside : doc.text.size < offset ∨ doc.text = [] → doc.regionAt? offset = none
  /-- There is no node if and only if there is no region or it is markup. -/
  noNode : doc.nodeAt? offset = none ↔
    doc.regionAt? offset = none ∨ ∃ start text, doc.regionAt? offset = some (.host start text)
  /-- In a directive it is the innermost node of its tree around the offset. -/
  node : offset < doc.text.size → ∀ r t, doc.regionAt? offset = some r → r.tree? = some t →
    ∃ n, doc.nodeAt? offset = some n ∧ t.root.element.Innermost offset n

/-- **Looking things up in a template.** In the document of a text, the region at an offset is the only one that holds it,
or the last one at the end of the text; and the node at an offset is the innermost one around it in the tree of the
directive there. -/
theorem located (text : Text) (c : TemplateConfig) (offset : Nat) : (ofText text c).Locates offset := by
  have htile := tile_regions text c
  exact
    { inside := exists_regionAt? htile (Nat.zero_le offset)
      atEnd := by
        rintro rfl hne
        have hregions : (ofText text c).regions ≠ [] := by
          intro hnil
          rw [hnil] at htile
          exact hne (Text.size_eq_zero.1 htile.symm)
        have hlast := List.getLast?_eq_some_getLast hregions
        exact ⟨_, (regionAt?_end htile).trans hlast, hlast⟩
      outside := by
        rintro (hlt | rfl)
        · exact regionAt?_eq_none htile hlt
        · rw [regionAt?_eq htile, regions_nil]
          rfl
      noNode := nodeAt?_eq_none_iff
      node := by
        intro hlt r t hr ht
        obtain ⟨r', hr', hfilter⟩ := exists_regionAt? htile (Nat.zero_le offset) hlt
        obtain rfl : r' = r := Option.some.inj (hr'.symm.trans hr)
        obtain ⟨hmem, hat⟩ := List.mem_filter.1 (hfilter ▸ List.mem_singleton_self r')
        obtain ⟨hspan, htiled⟩ := tree_covers hmem ht
        refine ⟨t.root.innermost offset, ?_, Node.innermost_innermost htiled (hspan ▸ hat)⟩
        rw [nodeAt?, hr, Option.bind_some, ht, Option.map_some] }

end TemplateDocument

end GoFront
