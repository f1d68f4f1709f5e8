import GoFront.Command.Arguments
import GoFront.Tree.Print
import GoFront.Workspace

/-!
# The command line

What the program prints and how it ends, as a function of its arguments and of what reading a file gives.
A check prints its diagnostics as errors, file by file, and fails if there are any; a tree is printed as
output. The first file that cannot be read ends the run, after what was printed before.
-/

namespace GoFront.Command

/-- What a run of the program leaves behind. -/
structure Report where
  /-- The exit code. -/
  code : Nat := 0
  /-- What was printed. -/
  output : Text := []
  /-- What was printed as errors. -/
  errors : Text := []
  deriving DecidableEq, Repr

/-- Lines as a text. -/
def joinLines (ls : List Text) : Text := ls.flatMap (· ++ ['\n'])

namespace Report

/-- The end of a run that failed, with what is behind the failure. -/
def failure (message : String) (cause : Option String) : Report where
  code := 1
  errors := joinLines <| ("Error: " ++ message).toList ::
    match cause with
    | some c => [[], "Caused by:".toList, ("    " ++ c).toList]
    | none => []

/-- A report with more errors printed before it. -/
def after (printed : Text) (r : Report) : Report := { r with errors := printed ++ r.errors }

end Report

/-- How the files of a run are read. -/
abbrev Reader := Path → Except ReadError Text

/-- The template configuration of a run: options win over the settings file, and that over the standard
configuration. -/
def Options.resolve (o : Options) (read : Reader) : Except ConfigError TemplateConfig := do
  let base ← match o.config with
    | some path => TemplateConfig.ofFile path (read path)
    | none => .ok TemplateConfig.standard
  TemplateConfig.ofParts (o.left.getD base.delimiters.left) (o.right.getD base.delimiters.right)
    (o.host.getD base.host)

/-- The end of a run that cannot read a file. -/
def unreadable (path : Path) (e : ReadError) : Report :=
  Report.failure (unreadableMessage path) (some e.message)

/-- The lines that show the diagnostics of a file. -/
def shown (f : OpenFile) (ds : List Diagnostic) : Text :=
  joinLines (ds.flatMap fun d => (d.render? f.path f.text).getD [])

/-- The report of a check of some files, when `found` errors were found before. -/
def check (read : Reader) (config : TemplateConfig) (found : Nat) : List Path → Report
  | [] =>
    if found = 0 then {}
    else Report.failure ("found " ++ toString found ++ " syntax error(s)") none
  | path :: paths =>
    match read path with
    | .error e => unreadable path e
    | .ok text =>
      let f : OpenFile := ⟨path, text, config⟩
      let ds := f.check
      (check read config (found + ds.length) paths).after (shown f ds)

/-- A region of a template, printed: its tree or, for markup, the stretch it covers, and its fault. -/
def printRegion (r : Region) : Text :=
  (match r.tree? with
    | some t => t.dump
    | none => ("HOST@" ++ r.span.print ++ "\n").toList) ++
  (match r.fault? with
    | some e => ("error@" ++ r.span.print ++ ": " ++ e.message ++ "\n").toList
    | none => [])

/-- The report of a printed tree. -/
def tree (read : Reader) (config : TemplateConfig) (path : Path) : Report :=
  match read path with
  | .error e => unreadable path e
  | .ok text =>
    let f : OpenFile := ⟨path, text, config⟩
    match f.kind with
    | .template => { output := f.template.regions.flatMap printRegion }
    | .source => { output := f.parse.dump }
    | .other =>
      Report.failure ("`" ++ String.ofList path ++ "` is neither Go source nor a template") none

/-- The name and version of the program. -/
def versionLine : String := "golem 0.1.0"

/-- A summary of the use of the program. -/
def helpLines : List String := [
  "Syntax front end for Go sources and Go templates", "",
  "Usage: golem [OPTIONS] <COMMAND>", "",
  "Commands:",
  "  check <PATHS>...  Report syntax errors",
  "  tree <PATH>       Print the syntax tree of a file", "",
  "Options:",
  "      --config <CONFIG>            TOML file with `left_delimiter`, `right_delimiter` and `host`",
  "      --left-delim <LEFT_DELIM>",
  "      --right-delim <RIGHT_DELIM>",
  "      --host <HOST>                `html` or `text`",
  "  -h, --help                       Print help",
  "  -V, --version                    Print version"]

/-- The report of a request. -/
def Request.answer (read : Reader) : Request → Report
  | .version => { output := joinLines [versionLine.toList] }
  | .help => { output := joinLines (helpLines.map String.toList) }
  | .run options task =>
    match options.resolve read with
    | .error e => Report.failure e.message e.cause?
    | .ok config =>
      match task with
      | .check paths => check read config 0 paths
      | .tree path => tree read config path

/-- The files a request may read. -/
def Request.paths : Request → List Path
  | .run options (.check paths) => options.config.toList ++ paths
  | .run options (.tree path) => options.config.toList ++ [path]
  | _ => []

end GoFront.Command
