import WorkflowEngine.Shell.Interpreter
import WorkflowEngine.Tool.ProcessTable

/-!
# Running tools in place

A tool is run as a shell text in its working directory, where it sees its variables and the files of
the engine.  The image, the volumes and the resources do not matter there.

* **`spawn`** — starts the process of a tool.
* **`localExecutor`** — the executor.
-/

namespace WorkflowEngine.Tool

/-- Whether a text can be handed to a process. -/
def isPassable (text : String) : Bool := !text.toList.contains (Char.ofNat 0)

/-- The failure of a tool whose process cannot be started. -/
def spawnFailure (tool : PreparedTool) (reason : String) : Failure :=
  .dispatch ("failed to spawn '" ++ tool.shellText ++ "': " ++ reason)

/-- Starts the process of a tool at some time: the files afterwards, and the process. -/
def spawn (tool : PreparedTool) (now : Nat) (files : FileTree) : Outcome (FileTree × Child) :=
  let passed := tool.environment.flatMap fun (name, value) => [name, value]
  if (tool.shellText :: tool.directory :: passed).all isPassable then
    match Shell.execute tool.shellText tool.directory tool.environment files with
    | .ok (files, time, exit) => .ok (files, ⟨now + time, exit⟩)
    | .error e => .error (spawnFailure tool e.message)
  else .error (spawnFailure tool "nul byte found in provided data")

/-- The executor that runs tools in place, with the identifiers for their processes. -/
def localExecutor (identifiers : Nat → String) : Executor ProcessTable where
  dispatch tool world :=
    match spawn tool world.now world.files with
    | .error failure => (.error failure, world)
    | .ok (files, child) =>
      let (handle, executor) := world.executor.start identifiers child
      (.ok handle, { world with files, executor })
  status handle world :=
    let (status, executor) := world.executor.look handle world.now
    (.ok status, { world with executor })
  cancel handle world :=
    (.ok (), { world with executor := world.executor.kill handle world.now })

end WorkflowEngine.Tool
