import WorkflowEngine.Document.DataType
import WorkflowEngine.Document.Requirement
import WorkflowEngine.Value.Basic

/-!
# Processes

A document holds processes: workflows, which are made of steps, and tools, which are command lines
or expressions.

* **`Input`**, **`Output`** — the parameters of a process.
* **`Step`**, **`StepInput`** — a use of a process in a workflow.
* **`Process`** — a process with its **`Body`**.
-/

namespace WorkflowEngine.Document

/-- An input of a process, by its local name. -/
structure Input where
  id : String
  type : DataType
  default : Option Value
  binding : Option InputBinding
  secondaryFiles : List String
  loadContents : Bool
  deriving Inhabited

/-- An output of a process, by its local name; the sources of a workflow's output are qualified. -/
structure Output where
  id : String
  type : DataType
  binding : Option OutputBinding
  secondaryFiles : List String
  sources : List String
  deriving Inhabited

/-- How the combinations of several scattered inputs are formed. -/
inductive ScatterMethod where
  | dotProduct
  | flatCrossProduct
  | nestedCrossProduct
  deriving Repr, DecidableEq, Inhabited

/-- The name of a method. -/
def ScatterMethod.name : ScatterMethod → String
  | .dotProduct => "dotproduct"
  | .flatCrossProduct => "flat_crossproduct"
  | .nestedCrossProduct => "nested_crossproduct"

/-- The method with a name. -/
def ScatterMethod.ofName? (name : String) : Option ScatterMethod :=
  [dotProduct, flatCrossProduct, nestedCrossProduct].find? fun m => m.name = name

/-- An input of a step, by the local name of the process's input; its sources are qualified. -/
structure StepInput where
  id : String
  sources : List String
  valueFrom : Option String
  default : Option Value
  deriving Inhabited

/-- A step of a workflow: its qualified id, the process it runs, its inputs and the local names of
its outputs and of the inputs it scatters over. -/
structure Step where
  id : String
  run : String
  inputs : List StepInput
  outputs : List String
  scatter : List String
  scatterMethod : Option ScatterMethod
  requirements : List Requirement
  hints : List Requirement
  deriving Inhabited

/-- The local name of a step. -/
def Step.name (step : Step) : String := Ident.localName step.id

/-- The qualified id of an output of a step. -/
def Step.outputId (step : Step) (output : String) : String := step.id ++ "/" ++ output

/-- What a command line is made of. -/
structure CommandLine where
  baseCommand : List String
  arguments : List Argument
  stdin : Option String
  stdout : Option String
  stderr : Option String
  deriving Inhabited

/-- What a process does. -/
inductive Body where
  | workflow (steps : List Step)
  | commandLineTool (command : CommandLine)
  | expressionTool (expression : String)
  deriving Inhabited

/-- A process, by its id with a `#`. -/
structure Process where
  id : String
  body : Body
  inputs : List Input
  outputs : List Output
  requirements : List Requirement
  hints : List Requirement
  deriving Inhabited

/-- The name of a process's class. -/
def Process.className (process : Process) : String :=
  match process.body with
  | .workflow _ => "Workflow"
  | .commandLineTool _ => "CommandLineTool"
  | .expressionTool _ => "ExpressionTool"

/-- Whether a process is a workflow. -/
def Process.isWorkflow (process : Process) : Bool :=
  match process.body with
  | .workflow _ => true
  | _ => false

/-- The steps of a workflow. -/
def Process.steps (process : Process) : List Step :=
  match process.body with
  | .workflow steps => steps
  | _ => []

end WorkflowEngine.Document
