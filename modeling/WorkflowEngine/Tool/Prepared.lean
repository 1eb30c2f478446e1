import WorkflowEngine.CommandLine.Assembly
import WorkflowEngine.Files.Access

/-!
# Tools ready to run

The engine runs no tool itself.  It prepares what an executor needs, hands it over, and asks for its
status from time to time.

* **`PreparedTool`** — what an executor needs.
* **`ToolStatus`** — what an executor reports.
* **`World`** — the files, the time and the executor that the tools of a run share.
* **`Executor`** — what an executor can be asked to do.
-/

namespace WorkflowEngine.Tool

/-- The resources that a tool asks for. -/
structure Resources where
  minCores : Option Float
  maxCores : Option Float
  /-- In bytes. -/
  minMemory : Option Nat
  maxMemory : Option Nat
  deriving Inhabited

/-- A directory that an executor must make visible to a tool. -/
structure Volume where
  host : String
  container : String
  readOnly : Bool
  deriving Repr, DecidableEq, Inhabited

/-- What an executor needs to run a tool. -/
structure PreparedTool where
  /-- The path of the task that the tool runs for. -/
  task : String
  image : String
  /-- The words of the command line. -/
  words : List String
  directory : String
  environment : List (String × String)
  resources : Resources
  volumes : List Volume
  stdin : Option String
  stdout : Option String
  stderr : Option String
  deriving Inhabited

/-- The command line of a tool for a shell. -/
def PreparedTool.shellText (tool : PreparedTool) : String :=
  CommandLine.shellText tool.words tool.stdin

/-- What an executor reports about a tool. -/
inductive ToolStatus where
  | running
  | completed
  | failed (reason : String)
  | unknown
  deriving Repr, DecidableEq, Inhabited

/-- Whether a tool has ended. -/
def ToolStatus.isTerminal : ToolStatus → Bool
  | .completed => true
  | .failed _ => true
  | _ => false

/-- The world that the tools of a run share. -/
structure World (ε : Type) where
  files : FileTree
  /-- The time since the start, in nanoseconds. -/
  now : Nat
  /-- The time at which the run is cancelled. -/
  cancelAt : Option Nat
  executor : ε

/-- Whether the run is cancelled. -/
def World.cancelled {ε : Type} (world : World ε) : Bool := world.cancelAt.any (· ≤ world.now)

/-- What an executor does with the world.  It gives each tool a handle. -/
structure Executor (ε : Type) where
  dispatch : PreparedTool → World ε → Outcome String × World ε
  status : String → World ε → Outcome ToolStatus × World ε
  cancel : String → World ε → Outcome Unit × World ε

end WorkflowEngine.Tool
