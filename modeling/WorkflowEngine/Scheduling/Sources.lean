import WorkflowEngine.Scheduling.Graph

/-!
# Values of sources

A step takes its inputs from the inputs of its workflow and from the outputs of other steps.  It waits
for each of these steps in turn; when one has failed, it does not run.

* **`Supply`** — what the steps of a workflow can take values from.
* **`Awaited`** — a value that may have to be waited for.
* **`Supply.gather`**, **`Supply.feed`** — the values of some sources, and of a step's inputs.
-/

namespace WorkflowEngine.Scheduling

open Document (Process Step StepInput)

/-- A value that may have to be waited for (`none`), or that can fail. -/
abbrev Awaited (α : Type) := ExceptT Failure Option α

/-- The value has to be waited for. -/
def Awaited.pending {α : Type} : Awaited α := ExceptT.mk none

/-- What the steps of a workflow can take values from. -/
structure Supply where
  /-- The inputs of the workflow. -/
  params : Values
  /-- The outputs of steps, each with its step. -/
  producers : OrderedMap String
  /-- The status and the outputs of each step. -/
  steps : OrderedMap (Status × Values)
  /-- Whether the run is cancelled. -/
  cancelled : Bool

namespace Supply

/-- The failure of a run that is cancelled. -/
def runCancelled : Failure := .cancelled .stepScheduler "run cancelled"

/-- The failure of a step whose producer failed. -/
def producerFailed (step : String) (failure : Failure) : Failure :=
  .cancelled .stepScheduler ("upstream step " ++ step ++ " failed: " ++ failure.message)

/-- The value of an output of a step. -/
def outputOf (s : Supply) (step source : String) : Awaited Value :=
  match s.steps.find? step with
  | none => throw (.resolve .stepScheduler ("no task for step '" ++ step ++ "'"))
  | some (.failed failure, _) => throw (producerFailed step failure)
  | some (.succeeded, outputs) => return (outputs.find? (Ident.localName source)).getD .null
  | some _ => if s.cancelled then throw runCancelled else Awaited.pending

/-- The value of a source. -/
def value (s : Supply) (source : String) : Awaited Value :=
  match s.producers.find? source with
  | some step => s.outputOf step source
  | none => return (s.params.find? (Ident.localName source)).getD .null

/-- The value of some sources: null for none, and an array for several. -/
def gather (s : Supply) (sources : List String) : Awaited Value :=
  match sources with
  | [] => return .null
  | [single] => s.value single
  | many => do return .array (← many.mapM s.value)

/-- The value of a step's input; its default replaces null. -/
def stepInput (s : Supply) (input : StepInput) : Awaited Value := do
  let value ← s.gather input.sources
  return if value.isNull then input.default.getD .null else value

/-- The values of a step's inputs. -/
def feed (s : Supply) (step : Step) : Awaited Values :=
  step.inputs.foldlM (fun (values : Values) input => do
    return values.insert input.id (← s.stepInput input)) []

/-- What the steps of a workflow's task can take values from. -/
def ofTask {κ : Type} (cancelled : Bool) (task : Task κ) : Supply where
  params := task.state.parameters
  producers := outputSteps task.info.process
  steps := task.children.map fun (id, child) => (id, child.status, child.state.outputs)
  cancelled

end Supply

end WorkflowEngine.Scheduling
