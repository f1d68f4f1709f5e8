import GoFront.Path

/-!
# Trees of files as data

A small file system as a value: which folders and files there are below a folder, and what a path leads
to, seen from there. It answers what a disk with just these files would answer, so what reads files can
be run and reasoned about without one.

A path is followed piece by piece. What stands before a slash has to be a folder; above the folder that
the tree describes there are folders, but nothing is known by name in them.
-/

namespace GoFront

/-- Why a file cannot be read as text. -/
inductive ReadError where
  /-- There is nothing at the path. -/
  | missing
  /-- The path leads through a file as if it were a folder. -/
  | notFolder
  /-- There is a folder at the path. -/
  | isFolder
  /-- The bytes of the file are not UTF-8. -/
  | notText
  /-- Any other reason, in the words of the system. -/
  | system (message : String)
  deriving DecidableEq, Repr

/-- The wording of a reason. -/
def ReadError.message : ReadError → String
  | .missing => "No such file or directory (os error 2)"
  | .notFolder => "Not a directory (os error 20)"
  | .isFolder => "Is a directory (os error 21)"
  | .notText => "stream did not contain valid UTF-8"
  | .system message => message

/-- The text that bytes encode. -/
def decodeText (bytes : ByteArray) : Except ReadError Text :=
  match String.fromUTF8? bytes with
  | some s => .ok s.toList
  | none => .error .notText

/-- The files and folders below a folder, each by its names from there. -/
structure Files where
  /-- The files. -/
  files : List (List Text × ByteArray)
  /-- The folders that need not hold anything; those on the way to a file or folder are there too. -/
  folders : List (List Text)

/-- What a path leads to. -/
inductive Spot where
  /-- A folder of the tree, by its names. -/
  | folder (names : List Text)
  /-- A file of the tree. -/
  | file (bytes : ByteArray)
  /-- A folder above the tree. -/
  | above

namespace Files

/-- The tree with given files and folders. -/
def ofPaths (files : List (Path × ByteArray)) (folders : List Path) : Files :=
  ⟨files.map fun f => (f.1.names, f.2), folders.map Path.names⟩

/-- What there is under given names. -/
def find? (t : Files) (names : List Text) : Option Spot :=
  match t.files.find? (·.1 = names) with
  | some f => some (.file f.2)
  | none =>
    if names = [] || t.folders.any names.isPrefixOf || t.files.any (names.isPrefixOf ·.1) then
      some (.folder names)
    else none

/-- Follows one piece of a path. -/
def step (t : Files) (s : Spot) (piece : Text) : Except ReadError Spot :=
  match s with
  | .file _ => .error .notFolder
  | .above => if Path.isIdle piece || piece = ['.', '.'] then .ok .above else .error .missing
  | .folder names =>
    if Path.isIdle piece then .ok (.folder names)
    else if piece = ['.', '.'] then .ok (if names = [] then .above else .folder names.dropLast)
    else match t.find? (names ++ [piece]) with
      | some s => .ok s
      | none => .error .missing

/-- What a path leads to. The empty path leads nowhere. -/
def resolve (t : Files) (p : Path) : Except ReadError Spot :=
  match p with
  | [] => .error .missing
  | '/' :: rest => (Path.splitAt '/' rest).foldlM t.step .above
  | _ => (Path.splitAt '/' p).foldlM t.step (.folder [])

/-- The text of the file at a path. -/
def read (t : Files) (p : Path) : Except ReadError Text := do
  match ← t.resolve p with
  | .file bytes => decodeText bytes
  | _ => .error .isFolder

/-- Whether there is a folder at a path. -/
def isFolder (t : Files) (p : Path) : Bool :=
  match t.resolve p with
  | .ok (.folder _) => true
  | .ok .above => true
  | _ => false

end Files

end GoFront
