import WorkflowEngine.Binding.Conformance
import WorkflowEngine.Binding.Locations
import WorkflowEngine.Document.Process
import WorkflowEngine.Expression
import WorkflowEngine.Files.Access
import WorkflowEngine.Log
import WorkflowEngine.Path.SecondaryName

/-!
# Binding of inputs

The parameters of a task become the inputs of its process in stages: the expressions of the step,
the defaults of the process, and for a tool the locations, contents and secondary files of its files
and the expressions of its bindings.

* **`stepValues`** — the expressions of a step, each of them seeing the values before all of them.
* **`fillDefaults`** — one value for each declared input.
* **`bindInputs`** — the inputs that the expressions of a tool see, and the values that its command
  line shows.
-/

namespace WorkflowEngine.Binding

open Document (Input Step StepInput Process)

/-- An evaluator of expressions. -/
abbrev Evaluator := String → ExprContext → Outcome Value

/-- The evaluator that an interpreter makes. -/
def evaluator (interpreter : Interpreter) : Evaluator := fun expression context =>
  ExprFault.orFail (evaluate interpreter expression context)

/-! ## Steps -/

/-- The value of a step's input: that of its expression, if it has one. -/
def stepValue? (eval : Evaluator) (step : Step) (params : Values) (library : List String)
    (input : StepInput) : Option (Outcome Value) :=
  input.valueFrom.map fun expression =>
    let current := (params.find? input.id).getD .null
    let context := { (ExprContext.ofInputs params).withSelf current with library }
    (eval expression context).mapError (·.inTask step.id)

/-- Stores the value of one input of a step. -/
def storeStepValue (eval : Evaluator) (step : Step) (params : Values) (library : List String)
    (result : Values) (input : StepInput) : Outcome Values :=
  match stepValue? eval step params library input with
  | none => .ok result
  | some value => value.map fun v => result.insert input.id v

/-- The parameters of a step with its expressions evaluated.  Every expression sees the parameters as
they were. -/
def stepValues (eval : Evaluator) (step : Step) (params : Values) (library : List String) :
    Outcome Values :=
  step.inputs.foldlM (storeStepValue eval step params library) params

/-! ## Defaults -/

/-- The value of an input: the given one, else the default, else null when that is allowed. -/
def defaulted (input : Input) (params : Values) : Outcome Value :=
  match params.find? input.id with
  | some value => if value.isNull then fallback else .ok value
  | none => fallback
where
  /-- The value of an input that is not given. -/
  fallback : Outcome Value :=
    match input.default with
    | some value => .ok value
    | none => if input.type.isOptional then .ok .null else .error (.missingInput input.id)

/-- The values of the declared inputs; other parameters are dropped. -/
def fillDefaults (process : Process) (params : Values) : Outcome Values :=
  process.inputs.foldlM (fun filled input => do
    return filled.insert input.id (← defaulted input params)) []

/-! ## Tools -/

/-- What is bound for a tool. -/
structure BoundInputs where
  /-- What expressions see. -/
  inputs : Values
  /-- What the command line shows. -/
  provided : Values
  deriving Inhabited

/-- Loads the contents of a file. -/
def loadContents (tree : FileTree) (config : Configuration) (file : FileValue) :
    Logged FileValue := do
  let contents ← Files.readPrefix tree file.path config.contentsLimit .inputBinder
  return { file with contents := some contents }

/-- Whether a file lists a location among its secondary files. -/
def listsSecondary (file : FileValue) (location : String) : Bool :=
  file.secondaryFiles.any fun s => (s.field? "location").bind Json.str? = some location

/-- Adds the secondary file of a pattern, unless it is listed already. -/
def attachSecondary (tree : FileTree) (pattern : String) (file : FileValue) : Logged FileValue := do
  let path := Path.secondaryPath file.path pattern
  if listsSecondary file path then return file
  else if tree.exists? path then
    return { file with secondaryFiles := file.secondaryFiles ++ [(FileValue.ofPath tree path).toJson] }
  else
    Logged.warn ("secondary file " ++ path ++ " of " ++ file.path ++ " not found")
    return file

/-- Whether a pattern of secondary files is an expression. -/
def isExpressionPattern (pattern : String) : Bool := pattern.toList.head? = some '$'

/-- The value of an input of a tool. -/
def bindInput (tree : FileTree) (config : Configuration) (params : Values) (input : Input) :
    Logged Value := do
  let value := normalizeFiles config ((params.find? input.id).getD .null)
  if !conforms value input.type then
    throw (.binding .inputBinder ("input '" ++ input.id ++ "' expects " ++ input.type.display
      ++ ", got " ++ value.typeName))
  let value ← if input.loadContents then value.mapFilesM (loadContents tree config) else pure value
  (input.secondaryFiles.filter (!isExpressionPattern ·)).foldlM
    (fun value pattern => value.mapFilesM (attachSecondary tree pattern)) value

/-- The value of an input on the command line. -/
def provide (eval : Evaluator) (context : ExprContext) (inputs : Values) (input : Input) :
    Outcome Value :=
  let value := (inputs.find? input.id).getD .null
  match input.binding.bind (·.valueFrom) with
  | some expression => eval expression (context.withSelf value)
  | none => .ok value

/-- The inputs of a process in order of their ids. -/
def inOrder (process : Process) : List Input :=
  process.inputs.mergeSort fun a b => decide (a.id ≤ b.id)

/-- Binds the parameters of a tool. -/
def bindInputs (eval : Evaluator) (tree : FileTree) (config : Configuration) (process : Process)
    (params : Values) (runtime : Json) (library : List String) : Logged BoundInputs := do
  let inputs ← (inOrder process).foldlM (fun (inputs : Values) input => do
    return inputs.insert input.id (← bindInput tree config params input)) []
  let context := { ExprContext.ofInputs inputs with runtime, library }
  let provided ← (inOrder process).foldlM (fun (provided : Values) input => do
    return provided.insert input.id (← provide eval context inputs input)) []
  return { inputs, provided }

end WorkflowEngine.Binding
