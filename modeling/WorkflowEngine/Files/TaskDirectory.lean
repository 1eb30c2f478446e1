import WorkflowEngine.Files.Access
import WorkflowEngine.Path.DirectoryName

/-!
# Directories of runs and tasks

A run has a directory of its own below the work root.  In it each task has a working directory, and
apart from it a directory for scratch files, so that these are never taken for outputs.

* **`RunDirectory`**, **`TaskDirectory`** — the directories.
* **`RunDirectory.create`**, **`TaskDirectory.create`** — making them.
-/

namespace WorkflowEngine

/-- The directories of a run. -/
structure RunDirectory where
  root : String
  /-- The directory above the working directories. -/
  work : String
  /-- The directory above the scratch directories. -/
  temp : String
  deriving Repr, DecidableEq, Inhabited

/-- The directories of a task. -/
structure TaskDirectory where
  root : String
  scratch : String
  deriving Repr, DecidableEq, Inhabited

/-- The path of a place. -/
def Place.path (place : Place) : String := "/" ++ "/".intercalate place

/-- The absolute form of a path of a tree. -/
def Files.absolute (tree : FileTree) (path : String) : Outcome String :=
  match Path.absolute? (Place.path tree.current) path with
  | some absolute => .ok absolute
  | none => .error (Failure.fileSystem .document path "cannot make an empty path absolute")

/-- The directories of a run below an absolute root. -/
def RunDirectory.below (root runId : String) : RunDirectory :=
  let root := Path.join root runId
  ⟨root, Path.join root "work", Path.join root "temp"⟩

/-- Makes the directories of a run. -/
def RunDirectory.create (workRoot runId : String) : FileAction RunDirectory := do
  let run := RunDirectory.below (← Files.absolute (← get) workRoot) runId
  Files.makeDirectories run.work
  Files.makeDirectories run.temp
  return run

/-- The directories of a task of a run. -/
def TaskDirectory.of (run : RunDirectory) (taskPath : String) : TaskDirectory :=
  let name := Path.directoryName taskPath
  ⟨Path.join run.work name, Path.join run.temp name⟩

/-- Makes the directories of a task. -/
def TaskDirectory.create (run : RunDirectory) (taskPath : String) : FileAction TaskDirectory := do
  let directory := TaskDirectory.of run taskPath
  Files.makeDirectories directory.root
  Files.makeDirectories directory.scratch
  return directory

end WorkflowEngine
