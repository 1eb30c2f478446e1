import WorkflowEngine.Path.Lexical
import WorkflowEngine.Text.Utf8

/-!
# Trees of files

The files that a run sees form a tree of directories.  A node is found from the root by the names on
the way; a path is walked name by name, where `..` goes back to the directory above.

* **`FileTree`** — the nodes of a tree, and the directory that relative paths start from.
* **`FileTree.node?`**, **`FileTree.set`** — look-up and storage.
* **`FileTree.locate`** — the place of an existing node.
* **`FileTree.makeDirectory`**, **`FileTree.replace`**, **`FileTree.overwrite`** — changes, each with
  the reasons why it can be refused.
-/

namespace WorkflowEngine

/-- Why a file operation is refused. -/
inductive FileError where
  | notFound
  | busy
  | exists
  | notDirectory
  | isDirectory
  | nameTooLong
  | nulInName
  | notText
  | notRegular
  | noTree
  deriving Repr, DecidableEq, Inhabited

/-- The reason of a refusal. -/
def FileError.reason : FileError → String
  | .notFound => "No such file or directory"
  | .busy => "Device or resource busy"
  | .exists => "File exists"
  | .notDirectory => "Not a directory"
  | .isDirectory => "Is a directory"
  | .nameTooLong => "File name too long"
  | .nulInName => "file name contained an unexpected NUL byte"
  | .notText => "stream did not contain valid UTF-8"
  | .notRegular => "the source path is neither a regular file nor a symlink to a regular file"
  | .noTree => "failed to create whole tree"

/-- The number of a refusal that comes from the file system itself. -/
def FileError.number? : FileError → Option Nat
  | .notFound => some 2
  | .busy => some 16
  | .exists => some 17
  | .notDirectory => some 20
  | .isDirectory => some 21
  | .nameTooLong => some 36
  | .nulInName => none
  | .notText => none
  | .notRegular => none
  | .noTree => none

/-- The message of a refusal. -/
def FileError.message (error : FileError) : String :=
  match error.number? with
  | some n => error.reason ++ " (os error " ++ toString n ++ ")"
  | none => error.reason

/-- A node of a tree. -/
inductive Node where
  | directory
  | file (bytes : Text.Bytes)
  deriving DecidableEq, Inhabited

/-- Whether a node is a directory. -/
def Node.isDirectory : Node → Bool
  | .directory => true
  | .file _ => false

/-- The names from the root to a node. -/
abbrev Place := List String

/-- A tree of files.  The root is always a directory. -/
structure FileTree where
  /-- The directory that relative paths start from. -/
  current : Place
  /-- The nodes below the root. -/
  nodes : List (Place × Node)
  deriving Inhabited

namespace FileTree

/-! ## Nodes -/

/-- The node at a place in a list of nodes. -/
def nodeIn? (nodes : List (Place × Node)) (place : Place) : Option Node :=
  match nodes with
  | [] => none
  | (p, node) :: rest => if p = place then some node else nodeIn? rest place

/-- The node at a place. -/
def node? (tree : FileTree) (place : Place) : Option Node :=
  if place = [] then some .directory else nodeIn? tree.nodes place

/-- Stores a node in a list of nodes. -/
def setIn (nodes : List (Place × Node)) (place : Place) (node : Node) : List (Place × Node) :=
  match nodes with
  | [] => [(place, node)]
  | (p, old) :: rest =>
    if p = place then (place, node) :: rest else (p, old) :: setIn rest place node

/-- Stores a node. -/
def set (tree : FileTree) (place : Place) (node : Node) : FileTree :=
  { tree with nodes := setIn tree.nodes place node }

/-- Whether a place is a directory. -/
def isDirectoryAt (tree : FileTree) (place : Place) : Bool :=
  (tree.node? place).elim false Node.isDirectory

/-- The name of a place that lies directly in a directory. -/
def childName? (directory place : Place) : Option String :=
  match directory, place with
  | [], [name] => some name
  | d :: directory, p :: place => if d = p then childName? directory place else none
  | _, _ => none

/-- The names in a directory. -/
def children (tree : FileTree) (directory : Place) : List String :=
  tree.nodes.filterMap fun (place, _) => childName? directory place

/-! ## Walking -/

/-- The names of a path in order; a closing slash asks for a directory as a closing `.` does. -/
def steps (path : String) : List String :=
  (Path.splitAt '/' path).filter (· ≠ "") ++ (if Path.endsInSlash path then ["."] else [])

/-- The place of a name seen from a directory, whether or not there is a node. -/
def childPlace (place : Place) (name : String) : Place :=
  if name = "." then place else if name = ".." then place.dropLast else place ++ [name]

/-- The longest name of a node, in bytes. -/
def nameLimit : Nat := 255

/-- Walks along some names; every node on the way must be a directory. -/
def walk (tree : FileTree) (place : Place) : List String → Except FileError Place
  | [] => .ok place
  | name :: rest =>
    if !tree.isDirectoryAt place then .error .notDirectory
    else if nameLimit < (Text.encode name).length then .error .nameTooLong
    else
      match tree.node? (childPlace place name) with
      | none => .error .notFound
      | some _ => walk tree (childPlace place name) rest

/-- The place that a path starts from. -/
def start (tree : FileTree) (path : String) : Place :=
  if Path.isAbsolute path then [] else tree.current

/-- Whether a path is one that can be walked. -/
def checkPath (path : String) : Except FileError Unit :=
  if path.toList.contains (Char.ofNat 0) then .error .nulInName
  else if path = "" then .error .notFound
  else .ok ()

/-- The place of an existing node. -/
def locate (tree : FileTree) (path : String) : Except FileError Place := do
  checkPath path
  walk tree (tree.start path) (steps path)

/-- The node at a path. -/
def nodeAt (tree : FileTree) (path : String) : Except FileError Node := do
  match tree.node? (← tree.locate path) with
  | some node => return node
  | none => throw .notFound

/-- Whether a path leads to a directory. -/
def isDirectory (tree : FileTree) (path : String) : Bool :=
  match tree.nodeAt path with
  | .ok .directory => true
  | _ => false

/-- Whether a path leads to a file. -/
def isFile (tree : FileTree) (path : String) : Bool :=
  match tree.nodeAt path with
  | .ok (.file _) => true
  | _ => false

/-- Whether a path leads to a node. -/
def exists? (tree : FileTree) (path : String) : Bool :=
  match tree.nodeAt path with
  | .ok _ => true
  | .error _ => false

/-- The bytes of a file. -/
def read (tree : FileTree) (path : String) : Except FileError Text.Bytes := do
  match ← tree.nodeAt path with
  | .file bytes => return bytes
  | .directory => throw .isDirectory

/-- The text of a file. -/
def readText (tree : FileTree) (path : String) : Except FileError String := do
  match Text.decode? (← tree.read path) with
  | some text => return text
  | none => throw .notText

/-! ## Changes -/

/-- The last name of a path, its place, and whether a slash follows the name. -/
structure Target where
  /-- The directory of the name. -/
  directory : Place
  /-- The name, and nothing for the root. -/
  name : Option String
  /-- Whether a slash follows the name. -/
  closed : Bool

/-- The target of a path whose directory exists. -/
def target (tree : FileTree) (path : String) : Except FileError Target := do
  checkPath path
  let names := (Path.splitAt '/' path).filter (· ≠ "")
  let directory ← walk tree (tree.start path) names.dropLast
  if !tree.isDirectoryAt directory then throw .notDirectory
  match names.getLast? with
  | none => return ⟨directory, none, true⟩
  | some name =>
    if nameLimit < (Text.encode name).length then throw .nameTooLong
    return ⟨directory, some name, Path.endsInSlash path⟩

/-- Whether a target has no name of its own. -/
def Target.isDots (t : Target) : Bool := t.name.elim true fun n => n = "." || n = ".."

/-- The place of a target. -/
def Target.place (t : Target) : Place := t.name.elim t.directory (childPlace t.directory)

/-- Makes a directory in an existing one. -/
def makeDirectory (tree : FileTree) (path : String) : Except FileError FileTree := do
  let t ← tree.target path
  if t.isDots || (tree.node? t.place).isSome then throw .exists
  return tree.set t.place .directory

/-- Makes a directory and, at most `fuel` levels up, those above it. -/
def makeDirectoriesUpTo (tree : FileTree) : Nat → String → Except FileError Unit × FileTree
  | 0, _ => (.error .noTree, tree)
  | fuel + 1, path =>
    if path = "" then (.ok (), tree)
    else
      let once (tree : FileTree) : Except FileError Unit × FileTree :=
        match tree.makeDirectory path with
        | .ok tree => (.ok (), tree)
        | .error e => (if tree.isDirectory path then .ok () else .error e, tree)
      match tree.makeDirectory path with
      | .error .notFound =>
        match Path.parent? path with
        | none => (.error .noTree, tree)
        | some above =>
          match makeDirectoriesUpTo tree fuel above with
          | (.ok (), tree) => once tree
          | failed => failed
      | _ => once tree

/-- Makes a directory and those above it.  What was made stays when a later one is refused. -/
def makeDirectories (tree : FileTree) (path : String) : Except FileError Unit × FileTree :=
  makeDirectoriesUpTo tree (path.length + 1) path

/-- Puts a finished file in the place of a path; a directory is never replaced. -/
def replace (tree : FileTree) (path : String) (bytes : Text.Bytes) : Except FileError FileTree := do
  let t ← tree.target path
  if t.isDots then throw .busy
  if t.closed then throw .notDirectory
  if tree.isDirectoryAt t.place then throw .isDirectory
  return tree.set t.place (.file bytes)

/-- Opens a path for writing from its start and writes some bytes. -/
def overwrite (tree : FileTree) (path : String) (bytes : Text.Bytes) :
    Except FileError FileTree := do
  let t ← tree.target path
  match tree.node? t.place with
  | some .directory => throw .isDirectory
  | some (.file _) =>
    if t.closed then throw .notDirectory
    return tree.set t.place (.file bytes)
  | none =>
    if t.closed then throw .isDirectory
    return tree.set t.place (.file bytes)

/-- Copies a file and gives its size.  A file that is copied onto itself is emptied. -/
def copy (tree : FileTree) (source destination : String) : Except FileError (Nat × FileTree) := do
  match ← tree.nodeAt source with
  | .directory => throw .notRegular
  | .file bytes =>
    let cleared ← tree.overwrite destination []
    let bytes := if (cleared.read source).toOption = some [] then [] else bytes
    return (bytes.length, ← tree.overwrite destination bytes)

/-! ## Listing -/

/-- The name of a node in a listing: the names below a directory, closed by a slash for a
directory. -/
def shownName (names : Place) (node : Node) : String :=
  String.intercalate "/" names ++ (if node.isDirectory then "/" else "")

/-- The nodes below a directory with the names they are shown by, in order of these. -/
def below (tree : FileTree) (directory : Place) : List (String × Node) :=
  let found := tree.nodes.filterMap fun (place, node) =>
    if directory.isPrefixOf place && place ≠ directory then
      some (shownName (place.drop directory.length) node, node)
    else none
  found.mergeSort fun a b => a.1 ≤ b.1

end FileTree

end WorkflowEngine
