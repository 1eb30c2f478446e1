import WorkflowEngine.Failure
import WorkflowEngine.Files.Tree
import WorkflowEngine.Value.File

/-!
# File operations of the engine

Every operation that fails reports the path it failed on and the part of the engine it was done for.
An operation may change the tree before it fails, so a change is a function of the tree that gives
back the tree in either case.

* **`FileAction`** — a change of the tree that can fail.
* **`makeDirectories`**, **`writeFile`**, **`copyFile`** — changes.
* **`readText`**, **`readPrefix`** — reading.
* **`FileValue.ofPath`** — the file value of a path.
-/

namespace WorkflowEngine

/-- A change of a tree of files that can fail. -/
abbrev FileAction (α : Type) := ExceptT Failure (StateM FileTree) α

/-- The failure of a refused operation on a path. -/
def FileError.toFailure (error : FileError) (component : Component) (path : String) : Failure :=
  .fileSystem component path error.message

/-- An operation as a step of the engine. -/
def FileError.orFail {α : Type} (component : Component) (path : String)
    (result : Except FileError α) : Outcome α :=
  result.mapError fun e => e.toFailure component path

namespace Files

/-! ## Changes -/

/-- Makes a directory and those above it. -/
def makeDirectories (path : String) : FileAction Unit := fun tree =>
  let (result, tree) := tree.makeDirectories path
  (FileError.orFail .toolRunner path result, tree)

/-- The directory that holds a path. -/
def holder (path : String) : String :=
  match Path.parent? path with
  | some "" => "."
  | some parent => parent
  | none => "."

/-- Writes a file as a whole, in a directory that is made when it is missing. -/
def writeFile (path : String) (bytes : Text.Bytes) : FileAction Unit := do
  makeDirectories (holder path)
  set (← FileError.orFail .toolRunner path ((← get).replace path bytes))

/-- Copies a file into a directory that is made when it is missing, and gives the file's size. -/
def copyFile (source destination : String) : FileAction Nat := do
  match Path.parent? destination with
  | some parent => makeDirectories parent
  | none => pure ()
  let (size, tree) ← FileError.orFail .toolRunner source ((← get).copy source destination)
  set tree
  return size

/-! ## Reading -/

/-- The text of a file. -/
def readText (tree : FileTree) (path : String) : Outcome String :=
  FileError.orFail .outputCollector path (tree.readText path)

/-- The text of at most `limit` bytes of a file; bytes that are no text are replaced. -/
def readPrefix (tree : FileTree) (path : String) (limit : Nat) (component : Component) :
    Outcome String :=
  FileError.orFail component path do
    match ← tree.nodeAt path with
    | .file bytes => return Text.decodeLossy (bytes.take limit)
    | .directory => if limit = 0 then return "" else throw .isDirectory

end Files

/-- The size that a directory is reported with. -/
def directorySize : Nat := 4096

/-- The size of a node. -/
def Node.size : Node → Nat
  | .file bytes => bytes.length
  | .directory => directorySize

/-- The file value of a path, with the size when the path leads to a node. -/
def FileValue.ofPath (tree : FileTree) (path : String) : FileValue :=
  { FileValue.ofLocation path with size := (tree.nodeAt path).toOption.map Node.size }

end WorkflowEngine
