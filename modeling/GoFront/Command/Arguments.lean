import GoFront.Config.Basic

/-!
# Command line arguments

The arguments name a task, its files, and options for reading templates. Options may stand before or
behind the name of the task, as `--option value` or `--option=value`; one that stands behind it wins.
Behind a bare `--` every argument is an operand.

Arguments are read from left to right in two steps: `items` tells options, their values and operands
apart, and `parse` takes the items one by one. The first item that asks for help or the version, or that
makes no sense where it stands, ends the reading.
-/

namespace GoFront.Command

/-- An option that takes a value. -/
inductive Flag where
  /-- The path of a settings file. -/
  | config
  /-- The opening marker. -/
  | leftDelimiter
  /-- The closing marker. -/
  | rightDelimiter
  /-- The host language. -/
  | host
  deriving DecidableEq, Repr

/-- The name of an option. -/
def Flag.label : Flag → String
  | .config => "config"
  | .leftDelimiter => "left-delim"
  | .rightDelimiter => "right-delim"
  | .host => "host"

/-- The option with a name. -/
def Flag.ofLabel? (t : Text) : Option Flag :=
  [Flag.config, .leftDelimiter, .rightDelimiter, .host].find? (·.label.toList = t)

/-- Why arguments make no sense. -/
inductive UsageError where
  /-- There is no task. -/
  | missingTask
  /-- The task is not known. -/
  | unknownTask (name : Text)
  /-- An argument has no meaning where it stands. -/
  | unexpected (argument : Text)
  /-- An option lacks its value. -/
  | missingValue (flag : Flag)
  /-- An option is given twice. -/
  | repeated (flag : Flag)
  /-- An option does not take the value given. -/
  | badValue (flag : Flag) (value : Text)
  /-- A task lacks a path. -/
  | missingPath
  deriving DecidableEq, Repr

/-- The wording of an error. -/
def UsageError.message : UsageError → String
  | .missingTask => "a subcommand is required"
  | .unknownTask name => "unrecognized subcommand '" ++ String.ofList name ++ "'"
  | .unexpected argument => "unexpected argument '" ++ String.ofList argument ++ "'"
  | .missingValue flag => "a value is required for '--" ++ flag.label ++ "'"
  | .repeated flag => "the argument '--" ++ flag.label ++ "' cannot be used multiple times"
  | .badValue flag value =>
    "invalid value '" ++ String.ofList value ++ "' for '--" ++ flag.label ++ "'"
  | .missingPath => "a path is required"

/-! ## Items -/

/-- A piece of a command line. -/
inductive Item where
  /-- An option with its value. -/
  | option (flag : Flag) (value : Text)
  /-- An option without its value. -/
  | valueless (flag : Flag)
  /-- A question for the version. -/
  | version (argument : Text)
  /-- A question for help. -/
  | help
  /-- Something that looks like an option. -/
  | unknown (argument : Text)
  /-- A word: a task or an operand. -/
  | word (t : Text)
  /-- A word behind a bare `--`. -/
  | operand (t : Text)
  deriving DecidableEq, Repr

/-- Whether an argument looks like an option, so that it is no word. A single minus sign is a word. -/
def looksLikeOption (t : Text) : Bool :=
  match t with
  | '-' :: _ :: _ => true
  | _ => false

/-- An argument that looks like an option, read on its own. -/
inductive Mark where
  /-- A bare `--`. -/
  | operands
  /-- An option, and its value if it is attached. -/
  | flag (flag : Flag) (value : Option Text)
  /-- Any other argument that looks like an option. -/
  | plain (item : Item)

/-- What an argument with two minus signs says, given what follows them. -/
def longMark (argument body : Text) : Mark :=
  let name := body.takeWhile (· ≠ '=')
  let value := match body.dropWhile (· ≠ '=') with
    | _ :: v => some v
    | [] => none
  match Flag.ofLabel? name with
  | some f => .flag f value
  | none =>
    if value.isSome then .plain (.unknown argument)
    else if name = "version".toList then .plain (.version argument)
    else if name = "help".toList then .plain .help
    else .plain (.unknown argument)

/-- What an argument that looks like an option says. -/
def mark (argument : Text) : Mark :=
  match argument with
  | ['-', '-'] => .operands
  | '-' :: '-' :: body => longMark argument body
  | '-' :: 'V' :: _ => .plain (.version argument)
  | '-' :: 'h' :: _ => .plain .help
  | _ => .plain (.unknown argument)

/-- The pieces of a command line. An option without an attached value takes the next argument, unless
that looks like an option. -/
def items : List Text → List Item
  | [] => []
  | a :: rest =>
    if looksLikeOption a then
      match mark a with
      | .operands => rest.map .operand
      | .plain item => item :: items rest
      | .flag f (some v) => .option f v :: items rest
      | .flag f none =>
        match rest with
        | [] => [.valueless f]
        | v :: rest' =>
          if looksLikeOption v then .valueless f :: items (v :: rest') else .option f v :: items rest'
    else .word a :: items rest

/-! ## Tasks and options -/

/-- What to do. -/
inductive Task where
  /-- Report the syntax errors of files. -/
  | check (paths : List Path)
  /-- Print the tree of a file. -/
  | tree (path : Path)
  deriving DecidableEq, Repr

/-- How to read templates, as far as it is given. -/
structure Options where
  /-- The path of a settings file. -/
  config : Option Path := none
  /-- The opening marker. -/
  left : Option Text := none
  /-- The closing marker. -/
  right : Option Text := none
  /-- The host language. -/
  host : Option HostLanguage := none
  deriving DecidableEq, Repr

/-- The options with one more value. -/
def Options.set (o : Options) (f : Flag) (value : Text) : Except UsageError Options :=
  match f with
  | .config => if o.config.isSome then .error (.repeated f) else .ok { o with config := some value }
  | .leftDelimiter => if o.left.isSome then .error (.repeated f) else .ok { o with left := some value }
  | .rightDelimiter => if o.right.isSome then .error (.repeated f) else .ok { o with right := some value }
  | .host =>
    match HostLanguage.ofLabel? (String.ofList value) with
    | none => .error (.badValue f value)
    | some h => if o.host.isSome then .error (.repeated f) else .ok { o with host := some h }

/-- The options `o`, and those of `p` that `o` leaves open. -/
def Options.or (o p : Options) : Options :=
  ⟨o.config.or p.config, o.left.or p.left, o.right.or p.right, o.host.or p.host⟩

/-- What the arguments ask for. -/
inductive Request where
  /-- The version of the program. -/
  | version
  /-- A summary of its use. -/
  | help
  /-- A task. -/
  | run (options : Options) (task : Task)
  deriving DecidableEq, Repr

/-! ## Reading -/

/-- The request of a task with its own options and paths so far, the latest path first. `single` tells
whether the task takes one path only, as a tree does. -/
def parseTask (outer : Options) (single : Bool) (own : Options) (paths : List Path) :
    List Item → Except UsageError Request
  | [] =>
    match paths.reverse with
    | [] => .error .missingPath
    | p :: ps => .ok (.run (own.or outer) (if single then .tree p else .check (p :: ps)))
  | .option f v :: rest => do parseTask outer single (← own.set f v) paths rest
  | .valueless f :: _ => .error (.missingValue f)
  | .version a :: _ => .error (.unexpected a)
  | .help :: _ => .ok .help
  | .unknown a :: _ => .error (.unexpected a)
  | .word t :: rest | .operand t :: rest =>
    if single && !paths.isEmpty then .error (.unexpected t)
    else parseTask outer single own (t :: paths) rest

/-- The request of a command line, with the options given so far. -/
def parseItems (o : Options) : List Item → Except UsageError Request
  | [] => .error .missingTask
  | .option f v :: rest => do parseItems (← o.set f v) rest
  | .valueless f :: _ => .error (.missingValue f)
  | .version _ :: _ => .ok .version
  | .help :: _ => .ok .help
  | .unknown a :: _ => .error (.unexpected a)
  | .operand t :: _ => .error (.unexpected t)
  | .word t :: rest =>
    if t = "check".toList then parseTask o false {} [] rest
    else if t = "tree".toList then parseTask o true {} [] rest
    else if t = "help".toList then .ok .help
    else .error (.unknownTask t)

/-- The request of a command line. -/
def parse (args : List Text) : Except UsageError Request := parseItems {} (items args)

end GoFront.Command
