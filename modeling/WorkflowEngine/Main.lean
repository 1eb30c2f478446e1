import WorkflowEngine.Program.Execution

/-!
# The outer layer of the program

The files below the current directory are read, the program answers, and what it did to files is done
to the real ones.

* **`main`** — the entry point.
-/

namespace WorkflowEngine.Program

/-- The nodes at and below a place. -/
partial def load (place : Place) : IO (List (Place × Node)) := do
  let path ← IO.FS.realPath (Place.path place)
  if ← path.isDir then
    let entries ← path.readDir
    let below ← entries.toList.mapM fun entry => load (place ++ [entry.fileName])
    return (place, .directory) :: below.flatten
  else
    let bytes ← IO.FS.readBinFile path
    return [(place, .file bytes.toList)]

/-- The tree of the files below the current directory. -/
def loadTree : IO FileTree := do
  let here ← IO.currentDir
  let current := (Path.splitAt '/' here.toString).filter (· ≠ "")
  let above := (List.range current.length).drop 1 |>.map fun n => (current.take n, Node.directory)
  return ⟨current, above ++ (← load current)⟩

/-- Does to the real files what was done to a tree. -/
def store (before after : FileTree) : IO Unit := do
  for (place, node) in after.nodes do
    if before.node? place ≠ some node then
      match node with
      | .directory => IO.FS.createDirAll (Place.path place)
      | .file bytes => IO.FS.writeBinFile (Place.path place) ⟨bytes.toArray⟩
  for (place, node) in before.nodes do
    if node ≠ .directory ∧ after.node? place = none then
      IO.FS.removeFile (Place.path place)

/-- A name for a run that no other run has. -/
def freshRunId : IO String := do
  let bytes ← IO.getRandomBytes 8
  let digits := bytes.toList.flatMap fun b => Tool.ProcessTable.hexDigits 2 b.toNat
  return "run_" ++ String.ofList digits

end WorkflowEngine.Program

open WorkflowEngine.Program in
/-- The program. -/
def main (arguments : List String) : IO UInt32 := do
  let files ← loadTree
  let answer := answer arguments (← freshRunId) files
  store files answer.files
  (← IO.getStdout).putStr answer.output
  (← IO.getStderr).putStr answer.errors
  return answer.code.toUInt32
