import WorkflowEngine.Document.Basic
import WorkflowEngine.Scheduling.Task

/-!
# From documents to trees of tasks

Before a run the document is checked: every step must run a process of the document, no process may
run itself, every source must be an input of its workflow or an output of one of its steps, and no
step may depend on its own outputs.  Then the tree of tasks is built from the main process, and each
task gets the requirements that hold for it.

* **`outputSteps`** — the steps that the outputs of a workflow's steps come from.
* **`checkAcyclic`** — the check for dependencies in a circle.
* **`validate`** — the checks of a process and all that it runs.
* **`buildTask`**, **`elementTask`** — the tree of a process, and of a run of a scattered step.
* **`resolve`** — check and tree of a document.
-/

namespace WorkflowEngine.Scheduling

open Document (Process Requirement Step)

/-- A broken reference. -/
def unresolved {α : Type} (message : String) : Outcome α :=
  .error (.resolve .graphResolver message)

/-! ## Sources -/

/-- The outputs of a workflow's steps, each with the id of its step. -/
def outputSteps (process : Process) : OrderedMap String :=
  process.steps.foldl (fun map step =>
    step.outputs.foldl (fun map name => map.insert (step.outputId name) step.id) map) []

/-- Whether a source is a declared input of a workflow. -/
def isOwnInput (process : Process) (source : String) : Bool :=
  let opening := (process.id ++ "/").toList
  opening.isPrefixOf source.toList
    && process.inputs.any fun i => i.id = String.ofList (source.toList.drop opening.length)

/-- The step that a source comes from; nothing for an input of the workflow. -/
def checkSource (process : Process) (owner source : String) : Outcome (Option String) :=
  match (outputSteps process).find? source with
  | some step => .ok (some step)
  | none =>
    if isOwnInput process source then .ok none
    else unresolved (owner ++ " references unknown source '" ++ source ++ "'")

/-- The steps that a step takes values from. -/
def producersOf (process : Process) (step : Step) : Outcome (List String) := do
  let sources := step.inputs.flatMap (·.sources)
  return (← sources.mapM (checkSource process step.id)).filterMap id

/-- The steps of a workflow, each with the steps that it takes values from. -/
def dependencies (process : Process) : Outcome (OrderedMap (List String)) :=
  process.steps.foldlM (fun map step => do
    return map.insert step.id (← producersOf process step)) []

/-! ## Circles -/

/-- Visits a step and those that it depends on; `open_` holds the steps on the way and `done` those
that depend on no circle.  Gives the steps known to be free of circles, or a step on a circle. -/
def visit (deps : OrderedMap (List String)) : Nat → List String → List String → String →
    Except String (List String)
  | 0, _, _, step => .error step
  | fuel + 1, open_, done, step =>
    if done.contains step then .ok done
    else if open_.contains step then .error step
    else do
      let producers := (deps.find? step).getD []
      let done ← producers.foldlM (visit deps fuel (step :: open_)) done
      return step :: done

/-- Checks that no step depends on its own outputs. -/
def checkAcyclic (deps : OrderedMap (List String)) : Outcome Unit :=
  let steps := deps.keys.mergeSort fun a b => decide (a ≤ b)
  match steps.foldlM (visit deps (deps.length + 1) []) [] with
  | .ok _ => .ok ()
  | .error step => unresolved ("step '" ++ step ++ "' depends on its own outputs")

/-! ## Validation -/

/-- The process that a step runs. -/
def runTarget (document : Document) (step : Step) : Outcome Process :=
  match document.process? step.run with
  | some process => .ok process
  | none =>
    unresolved ("step '" ++ step.id ++ "' runs '" ++ step.run ++ "', which is not in the graph")

/-- Checks the sources of a workflow. -/
def validateSources (process : Process) : Outcome Unit := do
  let deps ← dependencies process
  for output in process.outputs do
    for source in output.sources do
      let _ ← checkSource process ("output '" ++ output.id ++ "'") source
  checkAcyclic deps

/-- Checks a process and all that it runs; `stack` holds the processes that run it. -/
def validateIn (document : Document) : Nat → List String → Process → Outcome Unit
  | 0, _, process => unresolved ("process '" ++ process.id ++ "' runs itself")
  | fuel + 1, stack, process =>
    if stack.contains process.id then unresolved ("process '" ++ process.id ++ "' runs itself")
    else if !process.isWorkflow then .ok ()
    else do
      validateSources process
      process.steps.forM fun step => do
        validateIn document fuel (process.id :: stack) (← runTarget document step)

/-- The number of processes that can run each other before one runs itself. -/
def depthLimit (document : Document) : Nat := document.processes.length + 1

/-- Checks a process and all that it runs. -/
def validate (document : Document) (process : Process) : Outcome Unit :=
  validateIn document (depthLimit document) [] process

/-! ## Trees -/

variable {κ : Type}

/-- Builds a task and the tasks below it, at most `fuel` levels of them. -/
def buildIn (document : Document) : Nat → TaskInfo → Outcome (Task κ)
  | 0, info => unresolved ("process '" ++ info.process.id ++ "' runs itself")
  | fuel + 1, info => do
    let children ←
      if info.isScatter then pure []
      else info.process.steps.foldlM (fun (children : OrderedMap (Task κ)) step => do
        let target ← runTarget document step
        let child ← buildIn document fuel {
          id := info.path ++ "/" ++ step.name
          process := target
          step := some step
          index := none
          requirements := Requirement.merge target.requirements
            (Requirement.merge step.requirements info.requirements)
          hints := Requirement.merge target.hints (Requirement.merge step.hints info.hints) }
        return children.insert step.id child) []
    return .node info .fresh .idle children []

/-- Builds a task and the tasks below it. -/
def buildTask (document : Document) (info : TaskInfo) : Outcome (Task κ) :=
  buildIn document (depthLimit document) info

/-- Builds a run of a scattered step. -/
def elementTask (document : Document) (parent : TaskInfo) (index : Nat) : Outcome (Task κ) :=
  buildTask document { parent with index := some index }

/-- The main task of a document. -/
def mainInfo (main : Process) : TaskInfo where
  id := main.id
  process := main
  step := none
  index := none
  requirements := main.requirements
  hints := main.hints

/-- Checks a document and builds its tree. -/
def resolve (document : Document) : Outcome (Task κ) := do
  let main ← document.mainProcess
  validate document main
  buildTask document (mainInfo main)

end WorkflowEngine.Scheduling
