import GoFront.Config.Toml
import GoFront.Files
import GoFront.Token.Delimiters

/-!
# Template configurations

A configuration says which markers delimit the directives of a template and which markup surrounds them.
It can be given by its parts or by a settings file, a flat table with the keys `left_delimiter`,
`right_delimiter` and `host`, each of which may be missing.
-/

namespace GoFront

/-- Why a configuration is refused. -/
inductive ConfigError where
  /-- The settings file cannot be read. -/
  | unreadable (path : Path) (cause : ReadError)
  /-- The settings are not a table of strings with known keys. -/
  | malformed
  /-- A marker is empty. -/
  | emptyDelimiter
  /-- Both markers are the same. -/
  | identicalDelimiters (delimiter : Text)
  /-- The host language is not known. -/
  | unknownHost (name : Text)
  deriving DecidableEq, Repr

/-- The message that a file cannot be read. -/
def unreadableMessage (path : Path) : String := "failed to read `" ++ String.ofList path ++ "`"

namespace ConfigError

/-- The wording of an error. -/
def message : ConfigError → String
  | .unreadable path _ => unreadableMessage path
  | .malformed => "failed to parse template configuration"
  | .emptyDelimiter => "template delimiters must not be empty"
  | .identicalDelimiters delimiter =>
    "left and right delimiters are both `" ++ String.ofList delimiter ++ "`"
  | .unknownHost name => HostLanguage.unknownMessage (String.ofList name)

/-- What is behind an error. -/
def cause? : ConfigError → Option String
  | .unreadable _ cause => some cause.message
  | _ => none

end ConfigError

/-- How directives are recognised in a template. -/
structure TemplateConfig where
  /-- The markers of a directive. -/
  delimiters : Delimiters
  /-- The markup around the directives. -/
  host : HostLanguage
  /-- The markers differ. -/
  left_ne_right : delimiters.left ≠ delimiters.right
  deriving DecidableEq

/-- The settings of a file, as far as they are given. -/
structure Settings where
  /-- The opening marker. -/
  left : Option Text := none
  /-- The closing marker. -/
  right : Option Text := none
  /-- The name of the host language. -/
  host : Option Text := none
  deriving DecidableEq, Repr

namespace Settings

/-- The settings with one more binding; none if the key is not known or is bound already. -/
def bind? (s : Settings) (binding : Text × Text) : Option Settings :=
  if binding.1 = "left_delimiter".toList then
    if s.left.isNone then some { s with left := some binding.2 } else none
  else if binding.1 = "right_delimiter".toList then
    if s.right.isNone then some { s with right := some binding.2 } else none
  else if binding.1 = "host".toList then
    if s.host.isNone then some { s with host := some binding.2 } else none
  else none

/-- The settings that a text writes. -/
def read? (t : Text) : Option Settings := (Toml.read? t).bind fun bs => bs.foldlM bind? {}

end Settings

namespace TemplateConfig

/-- Double braces in HTML. -/
def standard : TemplateConfig :=
  ⟨Delimiters.braces, .html, by simp [Delimiters.braces]⟩

/-- The configuration with given markers and a given host language. -/
def ofParts (left right : Text) (host : HostLanguage) : Except ConfigError TemplateConfig :=
  if hl : left = [] then .error .emptyDelimiter
  else if hr : right = [] then .error .emptyDelimiter
  else if h : left = right then .error (.identicalDelimiters left)
  else .ok ⟨⟨left, right, hl, hr⟩, host, h⟩

/-- The configuration that settings give; what they leave open is as in the standard configuration. The
host language is looked at before the markers. -/
def ofSettings (s : Settings) : Except ConfigError TemplateConfig :=
  let name := s.host.getD standard.host.label.toList
  match HostLanguage.ofLabel? (String.ofList name) with
  | none => .error (.unknownHost name)
  | some host =>
    ofParts (s.left.getD standard.delimiters.left) (s.right.getD standard.delimiters.right) host

/-- The configuration that the text of a settings file gives. -/
def ofText (t : Text) : Except ConfigError TemplateConfig :=
  match Settings.read? t with
  | none => .error .malformed
  | some s => ofSettings s

/-- The configuration of the settings file at a path, given what reading it gave. -/
def ofFile (path : Path) : Except ReadError Text → Except ConfigError TemplateConfig
  | .error e => .error (.unreadable path e)
  | .ok t => ofText t

/-- A configuration can be given by parts exactly if the markers are not empty and differ. -/
theorem ofParts_eq_ok_iff {left right : Text} {host : HostLanguage} {c : TemplateConfig} :
    ofParts left right host = .ok c ↔
      c.delimiters.left = left ∧ c.delimiters.right = right ∧ c.host = host := by
  obtain ⟨⟨l, r, hl, hr⟩, h, hlr⟩ := c
  constructor
  · intro e
    simp only [ofParts] at e
    split at e <;> try cases e
    split at e <;> try cases e
    split at e <;> cases e
    exact ⟨rfl, rfl, rfl⟩
  · rintro ⟨rfl, rfl, rfl⟩
    simp_all [ofParts]

end TemplateConfig

end GoFront
