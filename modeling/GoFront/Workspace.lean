import GoFront.Document.Basic
import GoFront.Parse.Source.File

/-!
# Workspaces

The files that are open for editing, by number in the order in which they were opened. Everything that is
said about a file is a function of its path, its text and its template configuration, so an edit of one
file has no effect on what is said about another.
-/

namespace GoFront

/-- A file that is open. -/
structure OpenFile where
  /-- The path of the file. -/
  path : Path
  /-- The text of the file. -/
  text : Text
  /-- How the file is read if it is a template. -/
  config : TemplateConfig

namespace OpenFile

/-- The kind of a file. -/
def kind (f : OpenFile) : FileKind := FileKind.ofPath f.path

/-- The tree of a file, read as Go source. -/
def parse (f : OpenFile) : SyntaxTree := Source.parse f.text

/-- The document of a file, read as a template. -/
def template (f : OpenFile) : TemplateDocument := TemplateDocument.ofText f.text f.config

/-- What is wrong with a file, read as its kind says. Files of other kinds are not looked at. -/
def check (f : OpenFile) : List Diagnostic :=
  match f.kind with
  | .template => f.template.diagnostics
  | .source => f.parse.errors.map Diagnostic.ofError
  | .other => []

/-- The line and column of an offset. -/
def place? (f : OpenFile) (offset : Nat) : Option Text.Place := f.text.place? offset

end OpenFile

/-- A change to a file. -/
inductive Edit where
  /-- The file gets a new text. -/
  | text (text : Text)
  /-- The file gets a new path. -/
  | path (path : Path)
  /-- The file gets a new configuration. -/
  | config (config : TemplateConfig)

/-- The file after a change. -/
def OpenFile.edit (f : OpenFile) : Edit → OpenFile
  | .text text => { f with text }
  | .path path => { f with path }
  | .config config => { f with config }

/-- The open files. -/
structure Workspace where
  /-- The files, in the order in which they were opened. -/
  files : List OpenFile := []

namespace Workspace

/-- The file with a number. -/
def file? (w : Workspace) (n : Nat) : Option OpenFile := w.files[n]?

/-- The workspace with one more file, whose number is that of the files before it. -/
def openFile (w : Workspace) (f : OpenFile) : Workspace := ⟨w.files ++ [f]⟩

/-- The workspace after a change to the file with a number. -/
def edit (w : Workspace) (n : Nat) (e : Edit) : Workspace := ⟨w.files.modify n (·.edit e)⟩

theorem file?_openFile (w : Workspace) (f : OpenFile) (n : Nat) :
    (w.openFile f).file? n = if n = w.files.length then some f else w.file? n := by
  simp only [file?, openFile, List.getElem?_append]
  split
  · next h => rw [if_neg (by omega)]
  · next h =>
    by_cases e : n = w.files.length
    · simp [e]
    · rw [if_neg e, List.getElem?_eq_none (by simp; omega), List.getElem?_eq_none (by omega)]

theorem file?_edit (w : Workspace) (n : Nat) (e : Edit) (m : Nat) :
    (w.edit n e).file? m = if n = m then (w.file? m).map (·.edit e) else w.file? m := by
  simp only [file?, edit, List.getElem?_modify]
  split <;> simp

end Workspace

end GoFront
