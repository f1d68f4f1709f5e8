import GoFront.Path

/-!
# Import directories

Imports are looked up in the source folders of the SDK and of the workspaces that the environment names,
in this order. The folders are computed once per file name and kept in a cache until the environment
changes.

A look-up is two steps on the cache, a `get?` and, on a miss, an `insertIfNew`. Each is one operation
on the entries, so look-ups of several clients may be interleaved.
-/

namespace GoFront

/-- Where packages are found. -/
structure GoEnvironment where
  /-- The folder of the SDK. -/
  sdkHome : Option Path := none
  /-- The folders of the workspaces. -/
  workspaces : List Path := []
  deriving DecidableEq, Repr

namespace GoEnvironment

/-- The environment that the variables `GOROOT` and `GOPATH` describe. An empty name stands for no
folder, and the folders of `GOPATH` are separated by colons. -/
def ofVariables (goroot gopath : Option Text) : GoEnvironment where
  sdkHome := goroot.filter (· ≠ [])
  workspaces := ((gopath.map (Path.splitAt ':')).getD []).filter (· ≠ [])

/-- The source folders in the order in which they are searched. -/
def sourceRoots (e : GoEnvironment) : List Path :=
  (e.sdkHome.toList ++ e.workspaces).map (Path.join · "src".toList)

end GoEnvironment

/-- The import folders per file name. -/
structure ImportCache where
  /-- Where packages are found. -/
  environment : GoEnvironment := {}
  /-- The folders of the file names that were looked up, the latest first. -/
  entries : List (Text × List Path) := []

namespace ImportCache

/-- The number of file names with an entry. -/
def size (c : ImportCache) : Nat := c.entries.length

/-- Whether no file name has an entry. -/
def isEmpty (c : ImportCache) : Bool := c.entries.isEmpty

/-- The folders kept for a file name. -/
def get? (c : ImportCache) (name : Text) : Option (List Path) := c.entries.lookup name

/-- Keeps folders for a file name, unless it has an entry already. -/
def insertIfNew (c : ImportCache) (name : Text) (dirs : List Path) : ImportCache :=
  if (c.get? name).isSome then c else { c with entries := (name, dirs) :: c.entries }

/-- Drops all entries. -/
def clear (c : ImportCache) : ImportCache := { c with entries := [] }

/-- The cache for another environment; the entries of the old one are dropped. -/
def setEnvironment (c : ImportCache) (e : GoEnvironment) : ImportCache :=
  { c with environment := e }.clear

theorem get?_insertIfNew (c : ImportCache) (name : Text) (dirs : List Path) (other : Text) :
    (c.insertIfNew name dirs).get? other =
      if other = name then some ((c.get? name).getD dirs) else c.get? other := by
  simp only [insertIfNew]
  split
  · next h =>
    obtain ⟨d, hd⟩ := Option.isSome_iff_exists.1 h
    split
    · next e => rw [e, hd]; rfl
    · rfl
  · next h =>
    have hn : c.get? name = none := by simpa using h
    rw [hn]
    by_cases e : other = name
    · simp [get?, e]
    · simp [get?, List.lookup_cons, beq_eq_false_iff_ne.2 e, e]

@[simp] theorem get?_clear (c : ImportCache) (name : Text) : c.clear.get? name = none := rfl

/-- The folders an import in a file may be found in, and the cache afterwards. -/
def lookup (c : ImportCache) (name : Text) : List Path × ImportCache :=
  match c.get? name with
  | some dirs => (dirs, c)
  | none =>
    let c' := c.insertIfNew name c.environment.sourceRoots
    ((c'.get? name).getD [], c')

/-- The name under which the folders of the file at a path are kept: its file name, or the whole path if
it has none. -/
def nameOf (path : Path) : Text := path.fileName?.getD path

/-- The folders an import in the file at a path may be found in, and the cache afterwards. -/
def lookupFor (c : ImportCache) (path : Path) : List Path × ImportCache := c.lookup (nameOf path)

/-- The first import folder of a file that holds the folder of a package, and the cache afterwards;
`isFolder` tells which paths lead to a folder. -/
def resolve (isFolder : Path → Bool) (c : ImportCache) (name : Text) (package : Path) :
    Option Path × ImportCache :=
  let (dirs, c') := c.lookup name
  ((dirs.map (Path.join · package)).find? isFolder, c')

/-- Whether two file names share an entry, and the cache after looking up both. Each name has an entry of
its own. -/
def sharesEntry (c : ImportCache) (a b : Text) : Bool × ImportCache :=
  (a = b, ((c.lookup a).2.lookup b).2)

end ImportCache

end GoFront
