import KeyedRelations.CommandLine.Invocation
import KeyedRelations.Text.Utf8

/-!
# Workspaces

A directory in which a program is called several times: its files, and the stores that
earlier calls left behind in directories of theirs.  A path is followed name by name, and
every name but the last has to lead to a directory, also one that `..` takes back.
-/

namespace KeyedRelations.CommandLine

/-! ### Places -/

/-- Where the names of a place start. -/
inductive Base where
  /-- The root of the system. -/
  | root
  /-- So many directories above the workspace. -/
  | above (n : Nat)
  deriving DecidableEq, Repr

/-- A place in the file system: names on the way down from a base. -/
structure Place where
  base : Base
  names : List String
  deriving DecidableEq, Repr

namespace Place

/-- The workspace itself. -/
def workspace : Place := ⟨.above 0, []⟩

/-- The directory that holds a place; the root holds itself. -/
def parent (p : Place) : Place :=
  match p.names, p.base with
  | [], .root => p
  | [], .above n => ⟨.above (n + 1), []⟩
  | names, base => ⟨base, names.dropLast⟩

/-- The place of a name in a directory. -/
def child (p : Place) (name : String) : Place := { p with names := p.names ++ [name] }

/-- Whether a place is another one or on the way to it. -/
def isOnTheWayTo (p q : Place) : Bool := p.base = q.base ∧ p.names.isPrefixOf q.names

/-- Where a name leads from a directory, whether or not something is there. -/
def enter (p : Place) (name : String) : Place :=
  if name = "" ∨ name = "." then p
  else if name = ".." then p.parent
  else p.child name

/-- The names of a path, and where they start. -/
def start (path : String) : Place × List String :=
  (if path.startsWith "/" then ⟨.root, []⟩ else workspace, path.splitOn "/")

/-- Where a path leads if everything on the way is there. -/
def ofPath (path : String) : Place :=
  let (p, names) := start path
  names.foldl enter p

end Place

/-- What can be at a place. -/
inductive Node where
  | directory
  | file (text : String)
  deriving DecidableEq, Repr

/-! ### Workspaces -/

/-- A directory in which a program is called. -/
structure Workspace where
  files : List (Place × String)
  /-- Directories that are there without a file or a store below them. -/
  directories : List Place
  stores : List (Place × Snapshot)

namespace Workspace

/-- The directories that every system has. -/
def systemDirectories : List Place :=
  ["bin", "dev", "etc", "home", "proc", "tmp", "usr", "var"].map fun name => ⟨.root, [name]⟩

/-- The file that every system has and that is always empty. -/
def emptyFile : Place × String := (⟨.root, ["dev", "null"]⟩, "")

/-- A directory with given files and no store. -/
def ofFiles (files : List (String × String)) : Workspace :=
  ⟨emptyFile :: files.map fun f => (.ofPath f.1, f.2), systemDirectories, []⟩

/-- What is at a place. -/
def node? (w : Workspace) (p : Place) : Option Node :=
  match w.files.find? (·.1 = p) with
  | some (_, text) => some (.file text)
  | none =>
    if p.names.isEmpty || w.files.any (fun f => p.isOnTheWayTo f.1)
        || w.directories.contains p || w.stores.any (fun s => p.isOnTheWayTo s.1) then
      some .directory
    else none

/-- The longest name that a directory can hold, in bytes. -/
def longestName : Nat := 255

/-- The longest path that can be followed, in bytes. -/
def longestPath : Nat := 4095

/-- Follows names from a place. -/
def follow (w : Workspace) : List String → Place → Except FileError Place
  | [], p => .ok p
  | name :: rest, p =>
    match w.node? p with
    | none => .error .notFound
    | some (.file _) => .error .notADirectory
    | some .directory =>
      if (Utf8.bytes name).length > longestName then .error .nameTooLong
      else w.follow rest (p.enter name)

/-- Where a path leads. -/
def locate (w : Workspace) (path : String) : Except FileError Place :=
  if path = "" then .error .notFound
  else if (Utf8.bytes path).length > longestPath then .error .nameTooLong
  else
    let (p, names) := Place.start path
    w.follow names p

/-- Reads a file. -/
def read (w : Workspace) : FileReader := fun path =>
  match w.locate path with
  | .error e => .error e
  | .ok p =>
    match w.node? p with
    | none => .error .notFound
    | some .directory => .error .isADirectory
    | some (.file text) => .ok text

/-- Makes the directories of a path that are missing. -/
def makeDirectories (w : Workspace) (path : String) : Workspace :=
  let (p, names) := Place.start path
  (names.foldl
    (fun (w, p) name =>
      let q := p.enter name
      (if (w.node? q).isNone then { w with directories := q :: w.directories } else w, q))
    (w, p)).1

/-- What is kept of the store in a directory. -/
def kept (w : Workspace) (p : Place) : Snapshot :=
  ((w.stores.find? (·.1 = p)).map (·.2)).getD .empty

/-- The workspace with a store in a directory. -/
def keep (w : Workspace) (p : Place) (snapshot : Snapshot) : Workspace :=
  { w with stores := (p, snapshot) :: w.stores.filter (·.1 ≠ p) }

/-- Carries an invocation out.  A temporary store starts empty and is not kept. -/
def run (w : Workspace) (i : Invocation) : Outcome × Workspace :=
  let config := i.options.storeConfig
  if config.temporary then ((i.run w.read .empty).1, w)
  else
    let p := Place.ofPath config.path
    let opened := (w.makeDirectories config.path).keep p (w.kept p)
    let r := i.run opened.read (w.kept p)
    (r.1, opened.keep p r.2)

/-- Calls the program with arguments: what it leaves to its caller, or why there was
nothing to do. -/
def call (w : Workspace) (args : List String) : Except Stop Outcome × Workspace :=
  match Invocation.ofArgs args with
  | .error stop => (.error stop, w)
  | .ok i =>
    let r := w.run i
    (.ok r.1, r.2)

end Workspace

end KeyedRelations.CommandLine
