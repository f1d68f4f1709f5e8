import GoFront.Text.Basic

/-!
# Delimiters and host languages

What the template lexer has to be told: the markers that open and close a directive, and the markup
around the directives, which may hide markers in its comments.
-/

namespace GoFront

/-- The opening and closing marker of a directive. -/
structure Delimiters where
  /-- The opening marker. -/
  left : Text
  /-- The closing marker. -/
  right : Text
  /-- The opening marker is not empty. -/
  left_ne_nil : left ≠ []
  /-- The closing marker is not empty. -/
  right_ne_nil : right ≠ []
  deriving DecidableEq

namespace Delimiters

/-- The markers `left` and `right`, unless one is empty. -/
def ofTexts? (left right : Text) : Option Delimiters :=
  if h : left ≠ [] ∧ right ≠ [] then some ⟨left, right, h.1, h.2⟩ else none

/-- Double braces. -/
def braces : Delimiters := ⟨['{', '{'], ['}', '}'], by simp, by simp⟩

/-- A keyword between the markers, as messages show it. -/
def around (d : Delimiters) (keyword : String) : String :=
  String.ofList d.left ++ keyword ++ String.ofList d.right

end Delimiters

/-- The markup a template is embedded in. -/
inductive HostLanguage where
  /-- Markers inside `<!--` and `-->` do not open a directive. -/
  | html
  /-- Every marker opens a directive. -/
  | text
  deriving DecidableEq, Repr

namespace HostLanguage

/-- The name of a host language. -/
def label : HostLanguage → String
  | .html => "html"
  | .text => "text"

/-- The host language with a name, in any mixture of upper and lower case. -/
def ofLabel? (s : String) : Option HostLanguage :=
  match s.toLower with
  | "html" => some .html
  | "text" => some .text
  | _ => none

/-- Why a name that is no host language is refused. -/
def unknownMessage (s : String) : String :=
  "unknown host language `" ++ s ++ "`, expected `html` or `text`"

/-- The opening of a comment that hides markers. -/
def commentOpener : Text := ['<', '!', '-', '-']

/-- The closing of such a comment. -/
def commentCloser : Text := ['-', '-', '>']

/-- The number of characters of the comment a text starts with, given the opening it starts with: up
to and with the first closing behind the opening, or the whole text. -/
def commentLength (opener : Text) (t : Text) : Nat :=
  match Text.find? commentCloser (t.drop opener.length) with
  | some n => opener.length + n + commentCloser.length
  | none => t.length

end HostLanguage

end GoFront
