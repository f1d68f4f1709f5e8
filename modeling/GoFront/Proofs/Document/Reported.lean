import GoFront.Document.Basic
import GoFront.Proofs.Document.Origin

/-!
# What the directives of a template are, and what is reported of them

The count of blocks that cuts a directive out decides what its tree looks like. It has one node, and misses an `end` only
if the directive has a fault, unless an `else` is misplaced in a definition, which the grammar takes for the end of the
definition and the count does not (`directives_single`). If the directive runs into the end of the template, that is
reported once: its tree tells that an `end` is missing, or that an action is not closed, or else the region does
(`faults_reported`). The two are told apart by how the messages start, so an opening marker that starts like a message can
be taken for it.
-/

namespace GoFront

namespace Template

open GoFront.Parser

variable {c : TemplateConfig} {us after : List Token} {r : Region}

/-! ## One directive -/

/-- Each directive of a template is one directive in its own tree, with nothing but blanks around it, and misses no `end`
if it has no fault, unless an `else` is misplaced in a definition. -/
theorem directives_single (c : TemplateConfig) (text : Text) (r : Region) (hr : r ∈ regions c text)
    (hdir : r.isDirective = true)
    (helse : misplacesElse [] (significantKinds (tokens c.delimiters c.host r.start r.text)) = false) :
    ∃ t, r.tree? = some t ∧ t.root.span = r.span ∧ t.IsSingle ∧
      (r.fault? = none → ∀ e ∈ t.errors,
        ¬ ("missing " ++ c.delimiters.around "end" ++ " for ").toList <+: e.message.toList) := by
  obtain ⟨before, us, after, -, horigin⟩ := exists_origin text hr hdir
  refine ⟨_, horigin.tree_eq, ?_⟩
  -- whether it is closed or not, its directive takes all words
  have hend : ∀ ks, behind false [] (significantKinds (tokens c.delimiters c.host r.start r.text)) = .ok ks →
      ks = [] := by
    intro ks hks
    cases hfault : r.fault? with
    | none =>
      rcases horigin.closed hfault with hok | ⟨inside, herror⟩
      · exact (Except.ok.inj (hok.symm.trans hks)).symm
      · exact nomatch herror.symm.trans hks
    | some f =>
      obtain ⟨inside, opened, -, herror, -⟩ := horigin.opened hfault
      exact nomatch herror.symm.trans hks
  obtain ⟨hsingle, hmissing⟩ := single_of_behind horigin.ahead_eq helse hend
  refine ⟨(parse?_eq_ok _ _ _ _).2.span, hsingle, fun hfault e he hprefix => ?_⟩
  refine hmissing (fun inside opened hopened => ?_) (exists_missing_iff.1 ⟨e, he, hprefix⟩)
  rcases horigin.closed hfault with hok | ⟨inside', herror⟩
  · exact nomatch hok.symm.trans hopened
  · exact (congrArg Prod.snd (Except.error.inj (herror.symm.trans hopened))).symm

/-- An `else` in a condition is in its place. -/
theorem directives_single_standard : ∃ r ∈ regions .standard "a{{if .}}b{{else}}c{{end}}".toList,
    r.isDirective = true ∧
    misplacesElse [] (significantKinds (tokens .braces .html r.start r.text)) = false ∧
    ∃ t, r.tree? = some t ∧ t.root.span = r.span ∧ t.IsSingle ∧
      (r.fault? = none → ∀ e ∈ t.errors,
        ¬ ("missing " ++ Delimiters.braces.around "end" ++ " for ").toList <+: e.message.toList) := by
  have hexists : ∃ r ∈ regions .standard "a{{if .}}b{{else}}c{{end}}".toList, r.isDirective = true ∧
      misplacesElse [] (significantKinds (tokens .braces .html r.start r.text)) = false := by decide +kernel
  obtain ⟨r, hr, hdir, helse⟩ := hexists
  exact ⟨r, hr, hdir, helse, directives_single .standard _ r hr hdir helse⟩

/-- A definition with an `else` in it is cut out as one directive, but its tree has three. -/
theorem definition_split : ∃ r ∈ regions .standard "\x7b\x7bdefine \"x\"\x7d\x7da{{else}}b{{end}}".toList, r.fault? = none ∧
    ∃ t ∈ r.tree?, t.root.nodes.length = 3 ∧ ∃ e ∈ t.errors, e.message = "missing {{end}} for {{define}}" := by
  decide +kernel

/-! ## Faults -/

lemma isReportedBy_iff {f : RegionFault} {t : SyntaxTree} :
    f.isReportedBy t = true ↔ ∃ e ∈ t.errors, f.reportStart.toList <+: e.message.toList := by
  simp [RegionFault.isReportedBy]

/-- The diagnostics of a directive. -/
lemma diagnostics_eq {t : SyntaxTree} {f : RegionFault} (ht : r.tree? = some t) (hf : r.fault? = some f) :
    r.diagnostics = (if f.isReportedBy t then [] else [⟨f.message, r.span⟩]) ++ t.errors.map Diagnostic.ofError := by
  cases r with
  | host => exact nomatch ht
  | directive start text tree fault =>
    obtain rfl : tree = t := Option.some.inj ht
    obtain rfl : fault = some f := hf
    rw [Region.diagnostics]
    cases hreported : f.isReportedBy tree <;> simp [Option.filter, hreported]

/-- As many diagnostics tell that an action is not closed as errors that grew. -/
lemma length_filter_unclosed (d : Delimiters) (host : HostLanguage) (offset : Nat) (text : Text) :
    (((parse d host offset text).errors.map Diagnostic.ofError).filter (·.message = "unclosed action")).length =
      (unclosedIn (grownOf d host offset text)).length := by
  rw [List.filter_map, List.length_map, ← map_report_unclosed, List.length_map]
  rfl

/-- The fault of a region is reported once. If a block is open at the end of the template, the tree of the region tells so,
the region adds nothing, and none of its diagnostics says that an action is not closed. If an action is open there, the
tree has an error, and just one diagnostic of the region says so, unless the opening marker starts in the same words. -/
theorem faults_reported (c : TemplateConfig) (text : Text) (r : Region)
    (hr : r ∈ (TemplateDocument.ofText text c).regions) (f : RegionFault) (hf : r.fault? = some f) :
    ∃ t, r.tree? = some t ∧
      (∀ d, f = .missingEnd d → f.isReportedBy t = true ∧ r.diagnostics = t.errors.map Diagnostic.ofError ∧
        ∀ x ∈ r.diagnostics, x.message ≠ "unclosed action") ∧
      (f = .unclosedAction → t.errors ≠ [] ∧ (¬ "unclosed action".toList <+: c.delimiters.left →
        (r.diagnostics.filter (·.message = "unclosed action")).length = 1)) := by
  have hdir : r.isDirective = true := by
    cases r with
    | host => exact nomatch hf
    | directive => rfl
  obtain ⟨before, us, after, -, horigin⟩ := exists_origin text hr hdir
  obtain ⟨inside, opened, hinside, hbehind, hopened⟩ := horigin.opened hf
  have hends := endsInside_of_behind hbehind
  have hdiagnostics := diagnostics_eq horigin.tree_eq hf
  have hlength := length_filter_unclosed c.delimiters c.host r.start r.text
  refine ⟨_, horigin.tree_eq, ?_, ?_⟩
  · rintro d rfl
    cases inside with
    | true => exact nomatch hinside
    | false =>
      obtain rfl : d = c.delimiters := RegionFault.missingEnd.inj hinside
      have hmissing := missing_of_behind horigin.ahead_eq hbehind (hopened rfl)
      have hreported : (RegionFault.missingEnd c.delimiters).isReportedBy
          (parse c.delimiters c.host r.start r.text) = true := by
        rw [isReportedBy_iff, RegionFault.reportStart]
        exact exists_missing_iff.2 hmissing
      rw [hreported, if_pos rfl, List.nil_append] at hdiagnostics
      refine ⟨hreported, hdiagnostics, ?_⟩
      rw [unclosed_eq_nil hends, List.length_nil, List.length_eq_zero_iff, List.filter_eq_nil_iff] at hlength
      rw [hdiagnostics]
      exact fun x hx hmessage => hlength x hx (decide_eq_true hmessage)
  · rintro rfl
    cases inside with
    | false => exact nomatch hinside
    | true =>
      refine ⟨errors_ne_nil hends, fun hleft => ?_⟩
      have hreported : RegionFault.unclosedAction.isReportedBy (parse c.delimiters c.host r.start r.text) = true ↔
          unclosedIn (grownOf c.delimiters c.host r.start r.text) ≠ [] := by
        rw [isReportedBy_iff, RegionFault.reportStart]
        exact exists_unclosed_iff hleft
      rw [hdiagnostics, List.filter_append, List.length_append, hlength]
      -- either the region tells, or the tree does, and that once
      rcases (shuts_grownOf c.delimiters c.host r.start r.text).once with hnone | ⟨x, hone, -⟩
      · rw [hnone] at hreported ⊢
        rw [if_neg fun h => hreported.1 h rfl]
        rfl
      · rw [hone] at hreported ⊢
        rw [if_pos (hreported.2 (List.cons_ne_nil _ _))]
        rfl

theorem faults_reported_standard :
    (∃ r ∈ (TemplateDocument.ofText "{{if .}}a".toList .standard).regions, r.fault? = some (.missingEnd .braces) ∧
      ∃ t, r.tree? = some t ∧ (RegionFault.missingEnd .braces).isReportedBy t = true ∧
        r.diagnostics = t.errors.map Diagnostic.ofError ∧ ∀ x ∈ r.diagnostics, x.message ≠ "unclosed action") ∧
    ∃ r ∈ (TemplateDocument.ofText "\x7b\x7bif .".toList .standard).regions, r.fault? = some .unclosedAction ∧
      ∃ t, r.tree? = some t ∧ t.errors ≠ [] ∧
        (r.diagnostics.filter (·.message = "unclosed action")).length = 1 := by
  have hblock : ∃ r ∈ (TemplateDocument.ofText "{{if .}}a".toList .standard).regions,
      r.fault? = some (.missingEnd .braces) := by decide +kernel
  have haction : ∃ r ∈ (TemplateDocument.ofText "\x7b\x7bif .".toList .standard).regions,
      r.fault? = some .unclosedAction := by decide +kernel
  obtain ⟨r, hr, hf⟩ := hblock
  obtain ⟨t, ht, hmissing, -⟩ := faults_reported .standard _ r hr _ hf
  obtain ⟨r', hr', hf'⟩ := haction
  obtain ⟨t', ht', -, hunclosed⟩ := faults_reported .standard _ r' hr' _ hf'
  exact ⟨⟨r, hr, hf, t, ht, hmissing _ rfl⟩, r', hr', hf', t', ht', (hunclosed rfl).1, (hunclosed rfl).2 (by decide)⟩

/-- An opening marker that starts like the message for an action that is not closed is taken for it: nothing tells that the
action is not closed. -/
theorem marker_taken_for_message : ∃ c : TemplateConfig, c.delimiters.left = "unclosed action".toList ∧
    c.delimiters.right = ['}', '}'] ∧
    ∃ r ∈ (TemplateDocument.ofText "unclosed actionbreak )".toList c).regions.getLast?,
      r.fault? = some .unclosedAction ∧ (r.diagnostics.filter (·.message = "unclosed action")).length = 0 := by
  refine ⟨⟨⟨"unclosed action".toList, ['}', '}'], by decide, by decide⟩, .html, by decide⟩, rfl, rfl, ?_⟩
  decide +kernel

end Template

end GoFront
