import WorkflowEngine.Engine
import WorkflowEngine.Json.Parser
import WorkflowEngine.Program.Invocation
import WorkflowEngine.Tool.LocalExecutor

/-!
# The program

The program reads a configuration, a document and parameters, runs the document, writes the log when it
is asked to, and prints the result.

* **`Answer`** — what the program does in the end.
* **`answer`** — the program as a function of its arguments and the files.
-/

namespace WorkflowEngine.Program

open Tool (Executor)

/-- What the program does in the end. -/
structure Answer where
  /-- The exit status. -/
  code : Nat
  output : String
  errors : String
  files : FileTree

/-- The text that explains the program. -/
def helpText : String :=
  "Common Workflow Language (v1.0) engine\n\n" ++
  "Usage: run [OPTIONS] <PACKED> <PARAMS>\n\n" ++
  "Arguments:\n" ++
  "  <PACKED>  Packed CWL document (JSON, with a $graph containing #main)\n" ++
  "  <PARAMS>  Parameters of #main (JSON object)\n\n" ++
  "Options:\n" ++
  "  -w, --work-dir <WORK_DIR>  Parent directory of task working directories\n" ++
  "  -c, --config <CONFIG>      Engine configuration (TOML)\n" ++
  "  -e, --executor <EXECUTOR>  Where tools run [default: local] [possible values: local, docker]\n" ++
  "      --log-tree <LOG_TREE>  Also write the task log tree to this file\n" ++
  "  -h, --help                 Print help\n"

/-! ## Preparation -/

/-- The configuration of an invocation. -/
def configurationOf (invocation : Invocation) (files : FileTree) : Outcome Configuration := do
  let config ← match invocation.configuration with
    | some path => Configuration.load files path
    | none => pure Configuration.standard
  match invocation.workDirectory with
  | some path => return config.withWorkRoot (Place.path files.current) path
  | none => return config

/-- The JSON of a file, or why there is none. -/
def readJson (files : FileTree) (path : String) : Except String Json :=
  match files.readText path with
  | .error _ => .error ("failed to read " ++ path)
  | .ok text =>
    match Json.parse? text with
    | some json => .ok json
    | none => .error (path ++ " is not valid JSON")

/-- What an invocation needs: the configuration, the document and the parameters. -/
def prepare (invocation : Invocation) (files : FileTree) :
    Except String (Configuration × Json × Json) := do
  let config ← (configurationOf invocation files).mapError Failure.display
  let packed ← readJson files invocation.packed
  let params ← readJson files invocation.params
  return (config, packed, params)

/-! ## Work -/

/-- The executor of containers, of which there are none here. -/
def noContainers : Executor Unit where
  dispatch tool world :=
    (.error (.dispatch ("failed to pull " ++ tool.image ++ ": " ++ FileError.message .notFound)),
      world)
  status _ world := (.ok .unknown, world)
  cancel _ world := (.ok (), world)

/-- Runs a document where its tools are to run. -/
def runOn (host : Host) (config : Configuration) (runId : String) (packed params : Json)
    (files : FileTree) : Run × FileTree :=
  match host with
  | .here =>
    let engine : Engine Tool.ProcessTable := ⟨config, Tool.localExecutor Tool.ProcessTable.identifier⟩
    let (run, world) := engine.run runId packed params ⟨files, 0, none, .empty⟩
    (run, world.files)
  | .containers =>
    let engine : Engine Unit := ⟨config, noContainers⟩
    let (run, world) := engine.run runId packed params ⟨files, 0, none, ()⟩
    (run, world.files)

/-- The answer of a program that cannot do its work. -/
def failing (files : FileTree) (message : String) : Answer :=
  ⟨1, "", "Error: " ++ message ++ "\n", files⟩

/-- Writes the log of a run when it is asked for. -/
def writeLog (invocation : Invocation) (run : Run) (files : FileTree) : Except String FileTree :=
  match invocation.logTree with
  | none => .ok files
  | some path =>
    (files.overwrite path (Text.encode run.report.pretty)).mapError fun _ =>
      "failed to write log tree to " ++ path

/-- The answer to an invocation. -/
def answerRun (invocation : Invocation) (runId : String) (files : FileTree) : Answer :=
  match prepare invocation files with
  | .error message => failing files message
  | .ok (config, packed, params) =>
    let (run, files) := runOn invocation.host config runId packed params files
    match writeLog invocation run files with
    | .error message => failing files message
    | .ok files =>
      ⟨if run.result.isSuccess then 0 else 1, run.result.toJson.pretty ++ "\n", "", files⟩

/-- The program: its answer to some arguments. -/
def answer (arguments : List String) (runId : String) (files : FileTree) : Answer :=
  match Request.ofArguments arguments with
  | .error fault => ⟨2, "", "error: " ++ fault.message ++ "\n", files⟩
  | .ok .help => ⟨0, helpText, "", files⟩
  | .ok (.run invocation) => answerRun invocation runId files

end WorkflowEngine.Program
