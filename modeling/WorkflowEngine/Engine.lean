import WorkflowEngine.Configuration.Reading
import WorkflowEngine.Document.Parameters
import WorkflowEngine.Tool.Execution

/-!
# Runs

A run checks a document, builds its tree of tasks, gives the parameters to the main task and works
until that task has ended.  Time passes only while no task can go on: then the clock moves to the next
poll of a tool, or to the moment at which the run is cancelled.

* **`RunResult`** — how a run ended.
* **`Run`** — a finished run.
* **`Engine.run`** — a run of a document.
-/

namespace WorkflowEngine

open Scheduling (Machine)
open Tool (Executor Running World)

/-- How a run ended. -/
inductive RunResult where
  | succeeded (outputs : Values)
  | failed (failure : Failure)
  deriving Inhabited

namespace RunResult

/-- Whether a run succeeded. -/
def isSuccess : RunResult → Bool
  | succeeded _ => true
  | failed _ => false

/-- The outputs of a run, by their qualified names. -/
def outputsJson? : RunResult → Option Json
  | succeeded outputs =>
    some (.obj (OrderedMap.ofList (outputs.map fun (name, value) =>
      ("#main/" ++ name, value.toJson))))
  | failed _ => none

/-- The result as JSON. -/
def toJson (result : RunResult) : Json :=
  match result with
  | succeeded _ =>
    .obj [("status", .str "success"), ("outputs", result.outputsJson?.getD .null)]
  | failed failure =>
    .obj [("status", .str "failed"), ("kind", .str failure.kind.name),
      ("message", .str failure.message), ("taskId", (failure.task.map Json.str).getD .null)]

end RunResult

/-- A task of a run. -/
abbrev RunTask := Scheduling.Task Running

/-- A finished run. -/
structure Run where
  /-- The tree of tasks, once it has been built. -/
  root : Option RunTask
  directory : Option RunDirectory
  result : RunResult
  deriving Inhabited

/-- What each task of a run did. -/
def Run.report (run : Run) : Json := (run.root.map Scheduling.Task.report).getD .null

/-- An engine: a configuration and an executor. -/
structure Engine (ε : Type) where
  config : Configuration
  executor : Executor ε

namespace Engine

variable {ε : Type}

/-! ## Preparation -/

/-- The document and the main task of a run, with its parameters. -/
def plan (engine : Engine ε) (packed params : Json) : Outcome (Document × RunTask) := do
  match engine.config.check with
  | .ok () => pure ()
  | .error defect => throw (.parse .document ("invalid configuration: " ++ defect.message))
  let document ← Document.ofJson packed
  let parameters ← Document.parametersOfJson params
  let root ← Scheduling.resolve document
  return (document, root.setParameters parameters)

/-! ## Work -/

/-- The machine of a run. -/
def machine (engine : Engine ε) (document : Document) (directory : RunDirectory) :
    Machine (World ε) Running where
  document
  evaluator := Binding.evaluator evaluateJson
  behavior := Tool.behavior ⟨evaluateJson, engine.config, directory, engine.executor⟩

/-- The moment at which something happens next: a poll, or the cancellation that lies ahead. -/
def nextMoment? (root : RunTask) (world : World ε) : Option Nat :=
  let polls := (Machine.tools root).map (·.polling.wake)
  let cancellation := world.cancelAt.toList.filter (world.now < ·)
  (polls ++ cancellation).min?

/-- Works until no task is left, at most `fuel` times waiting for the clock. -/
def work (m : Machine (World ε) Running) (steps : Nat) :
    Nat → RunTask → World ε → RunTask × World ε
  | 0, root, world => (root, world)
  | fuel + 1, root, world =>
    let (root, world) := m.settle steps root world
    if root.phase.isOver then (root, world)
    else
      match nextMoment? root world with
      | none => (root, world)
      | some moment => work m steps fuel root { world with now := max world.now moment }

/-- The number of steps that tasks may take between two movements of the clock, and the number of
these movements. -/
def patience : Nat := 1000000000

/-- The result of a run whose work is over. -/
def resultOf {κ : Type} (root : Scheduling.Task κ) : RunResult :=
  match root.status with
  | .succeeded => .succeeded root.state.outputs
  | .failed failure => .failed failure
  | other => .failed (.cancelled .stepScheduler ("#main ended " ++ other.label))

/-- Runs the main process of a document. -/
def run (engine : Engine ε) (runId : String) (packed params : Json) (world : World ε) :
    Run × World ε :=
  match engine.plan packed params with
  | .error failure => (⟨none, none, .failed failure⟩, world)
  | .ok (document, root) =>
    match RunDirectory.create engine.config.workRoot runId world.files with
    | (.error failure, files) => (⟨none, none, .failed failure⟩, { world with files })
    | (.ok directory, files) =>
      let m := engine.machine document directory
      let (root, world) :=
        work m patience patience (root.withPhase .waiting) { world with files }
      (⟨some root, some directory, resultOf root⟩, world)

end Engine

end WorkflowEngine
