import GoFront.Diagnostic
import GoFront.Document.Region
import GoFront.Tree.Lookup

/-!
# Template documents

A template together with its configuration and its regions: what is at an offset, and what is wrong with
the template as a whole. All offsets, also those inside the trees of the directives, are offsets into
the text of the document.
-/

namespace GoFront

/-- A template divided into regions. -/
structure TemplateDocument where
  /-- The text of the template. -/
  text : Text
  /-- How its directives are recognised. -/
  config : TemplateConfig
  /-- Its regions, in order. -/
  regions : List Region

/-- The first number from `lo` on, below `hi`, that `before` does not choose, or `hi` if there is none. It is found by
halving: `before` has to choose the numbers up to some point and none from there on. -/
def bisect (before : Nat → Bool) (lo hi : Nat) : Nat :=
  if lo < hi then
    let mid := (lo + hi) / 2
    if before mid then bisect before (mid + 1) hi else bisect before lo mid
  else lo
termination_by hi - lo

/-- The diagnostics of a region: its fault, unless its own tree reports the same condition, and the errors
of its tree. -/
def Region.diagnostics : Region → List Diagnostic
  | .host _ _ => []
  | r@(.directive _ _ tree fault) =>
    ((fault.filter (!·.isReportedBy tree)).map fun f => ⟨f.message, r.span⟩).toList ++
      tree.errors.map Diagnostic.ofError

namespace TemplateDocument

/-- The document of a text. -/
def ofText (text : Text) (config : TemplateConfig) : TemplateDocument :=
  ⟨text, config, Template.regions config text⟩

/-- The directives of a document. -/
def directives (doc : TemplateDocument) : List Region := doc.regions.filter Region.isDirective

/-- Whether the region with a number ends at an offset or in front of it. -/
def endsBy (doc : TemplateDocument) (offset i : Nat) : Bool := doc.regions[i]?.any (·.span.stop ≤ offset)

/-- The region at an offset: the first that ends behind it. The end of the document belongs to the last
region. -/
def regionAt? (doc : TemplateDocument) (offset : Nat) : Option Region :=
  doc.regions[bisect (doc.endsBy offset) 0 doc.regions.length]?.or
    (doc.regions.getLast?.filter (·.span.stop = offset))

/-- The innermost node of a directive around an offset; none outside directives. -/
def nodeAt? (doc : TemplateDocument) (offset : Nat) : Option Node :=
  ((doc.regionAt? offset).bind Region.tree?).map (·.root.innermost offset)

/-- What is wrong with a document, region by region. -/
def diagnostics (doc : TemplateDocument) : List Diagnostic := doc.regions.flatMap Region.diagnostics

end TemplateDocument

end GoFront
