import WorkflowEngine.Document.Process
import WorkflowEngine.Log

/-!
# Tasks

A run is a tree of tasks.  A task is a process bound to values: the main process, a step of a
workflow, or one run of a scattered step.  The tasks of a workflow's steps are its children; the runs
of a scattered step are its elements, known only once its arrays are.

* **`TaskInfo`** — what a task is, fixed when the tree is built.
* **`TaskState`** — what changes while it runs: its status, values and events.
* **`Phase`** — how far the work on a task has got.
* **`Task`** — a task with the tasks below it.
* **`Task.markRunning`**, **`Task.finish`**, **`Task.abandon`** — the changes of a status, which is
  final once it is `succeeded` or `failed`.
-/

namespace WorkflowEngine.Scheduling

open Document (Process Requirement Step)

/-! ## Parts of a task -/

/-- The status of a task. -/
inductive Status where
  | pending
  | running
  | succeeded
  | failed (failure : Failure)
  deriving Repr, DecidableEq, Inhabited

namespace Status

/-- The name of a status. -/
def label : Status → String
  | pending => "pending"
  | running => "running"
  | succeeded => "succeeded"
  | failed _ => "failed"

/-- Whether a status is final. -/
def isFinal : Status → Bool
  | succeeded => true
  | failed _ => true
  | _ => false

/-- The failure of a failed task. -/
def failure? : Status → Option Failure
  | failed f => some f
  | _ => none

end Status

/-- What a task is. -/
structure TaskInfo where
  /-- The id of the step below the path of the task above, or the id of the main process. -/
  id : String
  process : Process
  step : Option Step
  /-- The place among the runs of a scattered step, from one. -/
  index : Option Nat
  /-- Own requirements first, then inherited ones. -/
  requirements : List Requirement
  hints : List Requirement
  deriving Inhabited

/-- The path of a task with an id. -/
def pathOf (id : String) (index : Option Nat) : String :=
  match index with
  | some n => id ++ "-scatter-" ++ toString n
  | none => id

namespace TaskInfo

/-- The path of a task, which no other task has. -/
def path (info : TaskInfo) : String := pathOf info.id info.index

/-- Whether the task is a scattered step as a whole. -/
def isScatter (info : TaskInfo) : Bool :=
  info.index.isNone && info.step.any fun s => !s.scatter.isEmpty

/-- The message of the event with which the work on the task starts. -/
def startMessage (info : TaskInfo) : String :=
  "running " ++ info.process.className ++ " " ++ info.process.id

/-- The requirement of a class that holds for the task, or else the hint. -/
def requirement? (info : TaskInfo) (className : String) : Option Requirement :=
  Requirement.find? info.requirements info.hints className

/-- The library of scripts of the task. -/
def library (info : TaskInfo) : List String :=
  match info.requirement? "InlineJavascriptRequirement" with
  | some (.inlineJavascript library) => library
  | _ => []

end TaskInfo

/-- What changes of a task. -/
structure TaskState where
  status : Status
  parameters : Values
  outputs : Values
  events : List Event
  deriving Inhabited

namespace TaskState

/-- The state of a task that has not started. -/
def fresh : TaskState := ⟨.pending, [], [], []⟩

/-- Records an event. -/
def record (state : TaskState) (level : Level) (message : String) : TaskState :=
  { state with events := state.events ++ [⟨level, message⟩] }

/-- Marks a task as running, unless it has started before. -/
def markRunning (state : TaskState) : TaskState :=
  match state.status with
  | .pending => { state with status := .running }
  | _ => state

/-- Ends a task with an id; nothing changes when it has ended before. -/
def finish (state : TaskState) (id : String) (result : Outcome Values) : TaskState :=
  if state.status.isFinal then state
  else
    match result with
    | .ok outputs => { state with status := .succeeded, outputs }
    | .error failure =>
      let failure := failure.inTask id
      { state with status := .failed failure }.record .error failure.display

end TaskState

/-- How far the work on a task has got. -/
inductive Phase (κ : Type) where
  /-- The work has not been taken up. -/
  | idle
  /-- The values of the sources are awaited. -/
  | waiting
  /-- The tasks below are awaited. -/
  | joining
  /-- A tool is at work. -/
  | working (tool : κ)
  /-- The work has come to its end. -/
  | returned
  /-- The work broke off. -/
  | aborted
  deriving Inhabited

/-- Whether the work on a task is over. -/
def Phase.isOver {κ : Type} : Phase κ → Bool
  | returned => true
  | aborted => true
  | _ => false

/-! ## Trees of tasks -/

/-- A task with the tasks below it: its children by the ids of their steps, and its elements. -/
inductive Task (κ : Type) where
  | node (info : TaskInfo) (state : TaskState) (phase : Phase κ)
      (children : List (String × Task κ)) (elements : List (Task κ))
  deriving Inhabited

namespace Task

variable {κ : Type}

/-- What the task is. -/
def info : Task κ → TaskInfo
  | node info _ _ _ _ => info

/-- The state of the task. -/
def state : Task κ → TaskState
  | node _ state _ _ _ => state

/-- How far the work has got. -/
def phase : Task κ → Phase κ
  | node _ _ phase _ _ => phase

/-- The tasks of the steps of a workflow, by the ids of the steps. -/
def children : Task κ → OrderedMap (Task κ)
  | node _ _ _ children _ => children

/-- The runs of a scattered step. -/
def elements : Task κ → List (Task κ)
  | node _ _ _ _ elements => elements

/-- The status of the task. -/
def status (task : Task κ) : Status := task.state.status

/-- Whether the task has ended. -/
def isDone (task : Task κ) : Bool := task.status.isFinal

/-- The task in another state. -/
def mapState (f : TaskState → TaskState) : Task κ → Task κ
  | node info state phase children elements => node info (f state) phase children elements

/-- The task in another phase. -/
def withPhase (phase : Phase κ) : Task κ → Task κ
  | node info state _ children elements => node info state phase children elements

/-- The task with other children. -/
def withChildren (children : OrderedMap (Task κ)) : Task κ → Task κ
  | node info state phase _ elements => node info state phase children elements

/-- The task with other elements. -/
def withElements (elements : List (Task κ)) : Task κ → Task κ
  | node info state phase children _ => node info state phase children elements

/-- The task with other parameters. -/
def setParameters (parameters : Values) (task : Task κ) : Task κ :=
  task.mapState fun s => { s with parameters }

/-- Records an event of the task. -/
def record (level : Level) (message : String) (task : Task κ) : Task κ :=
  task.mapState (·.record level message)

/-- Marks the task as running, unless it has started before. -/
def markRunning (task : Task κ) : Task κ := task.mapState TaskState.markRunning

/-- Ends the task; nothing changes when it has ended before. -/
def finish (result : Outcome Values) (task : Task κ) : Task κ :=
  task.mapState (·.finish task.info.id result)

/-- The failure of a task that is given up. -/
def givenUp (reason : String) : Failure := .cancelled .stepScheduler reason

mutual

/-- Ends the task and all tasks below it that have not ended, as cancelled. -/
def abandon (reason : String) : Task κ → Task κ
  | node info state phase children elements =>
    node info (state.finish info.id (.error (givenUp reason))) phase
      (abandonChildren reason children) (abandonElements reason elements)

/-- Gives up some children. -/
def abandonChildren (reason : String) : List (String × Task κ) → List (String × Task κ)
  | [] => []
  | (id, task) :: rest => (id, abandon reason task) :: abandonChildren reason rest

/-- Gives up some elements. -/
def abandonElements (reason : String) : List (Task κ) → List (Task κ)
  | [] => []
  | task :: rest => abandon reason task :: abandonElements reason rest

end

mutual

/-- The task and all tasks below it, each in front of those below it. -/
def descendants : Task κ → List (Task κ)
  | node info state phase children elements =>
    node info state phase children elements
      :: (childrenDescendants children ++ elementsDescendants elements)

/-- Some children and all tasks below them. -/
def childrenDescendants : List (String × Task κ) → List (Task κ)
  | [] => []
  | (_, task) :: rest => descendants task ++ childrenDescendants rest

/-- Some elements and all tasks below them. -/
def elementsDescendants : List (Task κ) → List (Task κ)
  | [] => []
  | task :: rest => descendants task ++ elementsDescendants rest

end

/-! ## Reports -/

/-- An event in a report. -/
def eventReport (event : Event) : Json :=
  .obj [("level", .str event.level.name), ("message", .str event.message)]

/-- The failure of a task in a report. -/
def failureReport (status : Status) : Json :=
  match status.failure? with
  | some failure =>
    .obj [("kind", .str failure.kind.name), ("component", .str failure.component.name),
      ("message", .str failure.message)]
  | none => .null

/-- The report of a task, given those of the tasks below it. -/
def reportWith (info : TaskInfo) (state : TaskState) (children elements : List Json) : Json :=
  .obj [("id", .str info.id), ("class", .str info.process.className),
    ("process", .str info.process.id),
    ("scatterIndex", (info.index.map fun n => Json.int n).getD .null),
    ("status", .str state.status.label), ("error", failureReport state.status),
    ("parameters", state.parameters.toJson), ("outputs", state.outputs.toJson),
    ("events", .arr (state.events.map eventReport)), ("children", .arr children),
    ("subtasks", .arr elements)]

mutual

/-- What the task and all tasks below it did, as JSON. -/
def report : Task κ → Json
  | node info state _ children elements =>
    reportWith info state (childrenReports children) (elementsReports elements)

/-- The reports of some children. -/
def childrenReports : List (String × Task κ) → List Json
  | [] => []
  | (_, task) :: rest => report task :: childrenReports rest

/-- The reports of some elements. -/
def elementsReports : List (Task κ) → List Json
  | [] => []
  | task :: rest => report task :: elementsReports rest

end

end Task

end WorkflowEngine.Scheduling
