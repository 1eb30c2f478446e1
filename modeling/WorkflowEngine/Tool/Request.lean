import WorkflowEngine.Configuration.Basic
import WorkflowEngine.Scheduling.Task
import WorkflowEngine.Tool.Prepared

/-!
# What a tool asks for

* **`resourcesOf`** — the resources of a task, and the numbers that its expressions see.
* **`volumesOf`** — the directories that a tool must see.
* **`prepareTool`** — the tool as an executor gets it.
-/

namespace WorkflowEngine.Tool

open Document (Requirement)
open Scheduling (TaskInfo)

/-! ## Resources -/

/-- The number of bytes in a mebibyte. -/
def mebibyte : Float := 1048576.0

/-- The whole part of a number, kept within the naturals of 64 bits. -/
def clampedNat (x : Float) : Nat := x.toUInt64.toNat

/-- The amount that a limit gives, if any. -/
def amountOf : Json → Outcome (Option Float)
  | .null => .ok none
  | .int n => .ok (some (floatOfInt n))
  | .float x => .ok (some x)
  | other =>
    .error (.eval .toolRunner ("ResourceRequirement value must be a number, got " ++ other.text))

/-- The number of a limit, which may be an expression. -/
def limitOf (interpreter : Interpreter) (context : ExprContext) (limit : Option Json) :
    Outcome (Option Float) := do
  let value ← match limit with
    | none => pure .null
    | some (.str expression) => ExprFault.orFail (interpreter expression context)
    | some other => pure other
  amountOf value

/-- The resources of a task with its number of cores and its memory in mebibytes. -/
def resourcesOf (interpreter : Interpreter) (info : TaskInfo) (context : ExprContext)
    (config : Configuration) : Outcome (Resources × Nat × Nat) :=
  match info.requirement? "ResourceRequirement" with
  | some (.resource limits) => do
    let minCores ← limitOf interpreter context limits.coresMin
    let maxCores ← limitOf interpreter context limits.coresMax
    let minRam ← limitOf interpreter context limits.ramMin
    let maxRam ← limitOf interpreter context limits.ramMax
    let bytes := fun (x : Float) => clampedNat (x * mebibyte)
    let wholeOr := fun (x : Option Float) (standard : Nat) =>
      (x.map fun x => clampedNat x.ceil).getD standard
    return (⟨minCores, maxCores, minRam.map bytes, maxRam.map bytes⟩,
      wholeOr (minCores.or maxCores) config.defaultCores,
      wholeOr (minRam.or maxRam) config.defaultRam)
  | _ => .ok (⟨none, none, none, none⟩, config.defaultCores, config.defaultRam)

/-- What expressions see of the place and the resources of a task. -/
def runtimeOf (directory : TaskDirectory) (cores ram : Nat) : Json :=
  .obj [("outdir", .str directory.root), ("tmpdir", .str directory.scratch),
    ("cores", .int cores), ("ram", .int ram)]

/-! ## Volumes -/

/-- Adds a path to an ordered list of paths without repetition. -/
def insertPath (path : String) : List String → List String
  | [] => [path]
  | p :: rest =>
    match Path.compare path p with
    | .lt => path :: p :: rest
    | .eq => p :: rest
    | .gt => p :: insertPath path rest

/-- The directories of the files of some values, in order and each once. -/
def fileDirectories (values : Values) : List String :=
  let all := (Value.filesFields values).map (·.dirname)
  (all.filter (· ≠ "")).foldl (fun paths path => insertPath path paths) []

/-- The directories that a tool must see: its scratch directory, and to read only, those of its
files that lie elsewhere. -/
def volumesOf (directory : TaskDirectory) (inputs : Values) : List Volume :=
  let elsewhere := (fileDirectories inputs).filter fun d =>
    Path.isAbsolute d && !Path.startsWith d directory.root
      && !Path.startsWith d directory.scratch
  ⟨directory.scratch, directory.scratch, false⟩ :: elsewhere.map fun d => ⟨d, d, true⟩

/-! ## Tools -/

/-- The image that a tool runs in. -/
def imageOf (info : TaskInfo) (config : Configuration) : String :=
  match info.requirement? "DockerRequirement" with
  | some (.docker (some image)) => image
  | _ => config.defaultImage

/-- The variables that a task requires. -/
def ownVariables (interpreter : Interpreter) (info : TaskInfo) (context : ExprContext) :
    Outcome (List (String × String)) :=
  match info.requirement? "EnvVarRequirement" with
  | some (.envVar definitions) =>
    definitions.mapM fun (name, source) =>
      (ExprFault.orFail (evaluateString interpreter source context)).map fun value => (name, value)
  | _ => .ok []

/-- The variables that a tool sees: of two with one name the later one counts. -/
def environmentOf (interpreter : Interpreter) (info : TaskInfo) (config : Configuration)
    (directory : TaskDirectory) (context : ExprContext) : Outcome (List (String × String)) := do
  let standing := config.environment.mergeSort fun a b => decide (a.1 ≤ b.1)
  return [("HOME", directory.root), ("TMPDIR", directory.scratch)] ++ standing
    ++ (← ownVariables interpreter info context)

/-- The tool of a task as an executor gets it. -/
def prepareTool (interpreter : Interpreter) (info : TaskInfo) (config : Configuration)
    (directory : TaskDirectory) (context : ExprContext) (inputs : Values) (resources : Resources)
    (command : CommandLine.Command) : Outcome PreparedTool := do
  let environment ← environmentOf interpreter info config directory context
  return {
    task := info.path
    image := imageOf info config
    words := command.words
    directory := directory.root
    environment, resources
    volumes := volumesOf directory inputs
    stdin := command.stdin
    stdout := command.stdout
    stderr := command.stderr }

end WorkflowEngine.Tool
