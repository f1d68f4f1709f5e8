import GoFront.Config.Basic
import GoFront.Parse.Template.Document

/-!
# Regions of a template

A template is divided into the markup between its directives and the directives at the top level, each
from its opening marker up to its matching `end`. The division is made on the tokens of the whole
template: a run of text tokens is markup, and a directive goes on until a closing marker that leaves no
block open.

Each directive is parsed on its own. One that runs into the end of the template has a fault, which says
whether an action or a block is still open there.
-/

namespace GoFront

/-- Why a directive runs into the end of its template. -/
inductive RegionFault where
  /-- The last action has no closing marker. -/
  | unclosedAction
  /-- A block has no `end`. -/
  | missingEnd (d : Delimiters)
  deriving DecidableEq

namespace RegionFault

/-- The wording of a fault. -/
def message : RegionFault → String
  | .unclosedAction => "unclosed action"
  | .missingEnd d => "missing " ++ d.around "end"

/-- How the messages start that report the same condition in a tree. -/
def reportStart : RegionFault → String
  | .unclosedAction => "unclosed action"
  | .missingEnd d => "missing " ++ d.around "end" ++ " for "

/-- Whether an error of a tree reports the same condition. -/
def isReportedBy (f : RegionFault) (t : SyntaxTree) : Bool :=
  t.errors.any fun e => f.reportStart.toList.isPrefixOf e.message.toList

end RegionFault

/-- A part of a template. -/
inductive Region where
  /-- Markup that is passed through. -/
  | host (start : Nat) (text : Text)
  /-- A directive at the top level, its tree, and its fault if it has one. -/
  | directive (start : Nat) (text : Text) (tree : SyntaxTree) (fault : Option RegionFault)

namespace Region

/-- The offset of a region in its template. -/
def start : Region → Nat
  | .host start _ => start
  | .directive start _ _ _ => start

/-- The characters of a region. -/
def text : Region → Text
  | .host _ text => text
  | .directive _ text _ _ => text

/-- The stretch of the template a region covers. -/
def span (r : Region) : Span := ⟨r.start, r.text.size⟩

/-- The tree of a directive. -/
def tree? : Region → Option SyntaxTree
  | .host _ _ => none
  | .directive _ _ tree _ => some tree

/-- The fault of a directive. -/
def fault? : Region → Option RegionFault
  | .host _ _ => none
  | .directive _ _ _ fault => fault

/-- Whether a region is a directive. -/
def isDirective (r : Region) : Bool := r.tree?.isSome

end Region

namespace Template

/-- The first token of an action that is not a blank, given what follows its opening marker. -/
def actionKeyword? (ts : List Token) : Option Kind := (ts.map Token.kind).find? (· ≠ .whitespace)

/-- The number of open blocks behind an opening marker, given what follows it. -/
def depthAfter (depth : Nat) (ts : List Token) : Nat :=
  match actionKeyword? ts with
  | some k => if opensBlock k then depth + 1 else if k = .endKeyword then depth - 1 else depth
  | none => depth

/-- The tokens of a directive, its fault, and the tokens behind it. -/
structure Extent where
  /-- The tokens of the directive. -/
  taken : List Token
  /-- The fault of the directive. -/
  fault : Option RegionFault
  /-- The tokens behind the directive. -/
  rest : List Token

/-- A directive with one more token in front. -/
def Extent.cons (t : Token) (e : Extent) : Extent := { e with taken := t :: e.taken }

/-- The end of a directive at a closing marker. A marker that trims takes the blanks behind it along. -/
def closeAt (d : Delimiters) (t : Token) : List Token → Extent
  | [] => ⟨[t], none, []⟩
  | next :: ts =>
    if t.text.size = d.right.size + 1 && next.kind = .whitespace then ⟨[t, next], none, ts⟩
    else ⟨[t], none, next :: ts⟩

/-- The directive at the front of a list of tokens, when `depth` blocks are open and `inAction` tells
whether an action is. -/
def extent (d : Delimiters) (depth : Nat) (inAction : Bool) : List Token → Extent
  | [] => ⟨[], some (if inAction then .unclosedAction else .missingEnd d), []⟩
  | t :: ts =>
    if t.kind = .leftDelimiter then (extent d (depthAfter depth ts) true ts).cons t
    else if t.kind = .rightDelimiter then
      if depth = 0 then closeAt d t ts else (extent d depth false ts).cons t
    else (extent d depth inAction ts).cons t

/-- A directive and what is behind it are the tokens given. -/
theorem taken_append_rest_extent (d : Delimiters) (depth : Nat) (inAction : Bool) (ts : List Token) :
    (extent d depth inAction ts).taken ++ (extent d depth inAction ts).rest = ts := by
  induction ts generalizing depth inAction with
  | nil => rfl
  | cons t ts ih =>
    simp only [extent]
    split
    · simp [Extent.cons, ih]
    · split
      · split
        · cases ts with
          | nil => rfl
          | cons u us => simp only [closeAt]; split <;> rfl
        · simp [Extent.cons, ih]
      · simp [Extent.cons, ih]

/-- A directive takes at least one token. -/
theorem length_rest_extent_lt (d : Delimiters) (depth : Nat) (inAction : Bool) (t : Token)
    (ts : List Token) : (extent d depth inAction (t :: ts)).rest.length < (t :: ts).length := by
  have h := congrArg List.length (taken_append_rest_extent d depth inAction (t :: ts))
  have : (extent d depth inAction (t :: ts)).taken ≠ [] := by
    simp only [extent]
    split
    · simp [Extent.cons]
    · split
      · split
        · cases ts with
          | nil => simp [closeAt]
          | cons u us => simp only [closeAt]; split <;> simp
        · simp [Extent.cons]
      · simp [Extent.cons]
  have := List.length_pos_iff.2 this
  simp only [List.length_append] at h
  omega

/-- The characters of tokens. -/
def charsOf (ts : List Token) : Text := ts.flatMap Token.text

/-- The offset of the first of some tokens. -/
def startOf (ts : List Token) : Nat := (ts.head?.map Token.start).getD 0

/-- The markup that some text tokens make up. -/
def hostRegion (ts : List Token) : Region := .host (startOf ts) (charsOf ts)

/-- The directive that some tokens make up. -/
def directiveRegion (c : TemplateConfig) (ts : List Token) (fault : Option RegionFault) : Region :=
  .directive (startOf ts) (charsOf ts) (parse c.delimiters c.host (startOf ts) (charsOf ts)) fault

/-- Whether a token is markup. -/
def isText (t : Token) : Bool := t.kind = .text

/-- The regions that a list of tokens makes up. -/
def divide (c : TemplateConfig) : List Token → List Region
  | [] => []
  | t :: ts =>
    if isText t then
      hostRegion (t :: ts.takeWhile isText) :: divide c (ts.dropWhile isText)
    else
      let e := extent c.delimiters 0 false (t :: ts)
      directiveRegion c e.taken e.fault :: divide c e.rest
termination_by ts => ts.length
decreasing_by
  · have := (List.dropWhile_suffix isText (l := ts)).length_le
    simp only [List.length_cons]
    omega
  · exact length_rest_extent_lt c.delimiters 0 false t ts

/-- The regions of a template. -/
def regions (c : TemplateConfig) (text : Text) : List Region :=
  divide c (tokens c.delimiters c.host 0 text)

end Template

end GoFront
