import WorkflowEngine.Binding.Inputs
import WorkflowEngine.Scheduling.Scatter
import WorkflowEngine.Scheduling.Sources

/-!
# Scheduling

The work on every task goes on by itself.  A step's task waits for its sources and starts; a workflow
starts its steps and joins them; a scattered step starts its elements and joins them; a tool works
until it has a result.  One step of the machine takes the work on one task from one point of waiting to
the next, and tasks can be chosen in any order.

How tools work is left open: a **`Behavior`** says what a tool does when it starts and when it goes
on, over a state of the world that all tools share.

* **`Machine`** — a document, an evaluator of expressions and a behavior of tools.
* **`Machine.begin`**, **`Machine.join`** — the start of the work on a task, and its end when the
  tasks below are over.
* **`Machine.stepAt`** — the step of the task at an address, if it can go on.
-/

namespace WorkflowEngine.Scheduling

open Document (Process Step)

/-! ## Tools -/

/-- What a tool does next. -/
inductive Next (κ : Type) where
  /-- It has a result. -/
  | done (result : Outcome Values)
  /-- It waits. -/
  | wait (tool : κ)

/-- A turn of a tool: the parameters it sees from now on, what it records, what it does next. -/
structure Turn (κ : Type) where
  parameters : Values
  events : List Event
  next : Next κ

/-- How tools work in a world. -/
structure Behavior (σ κ : Type) where
  /-- The first turn of a tool with some parameters. -/
  start : TaskInfo → Values → σ → Turn κ × σ
  /-- Whether a tool that waits can go on. -/
  ready : κ → σ → Bool
  /-- A further turn of a tool. -/
  resume : TaskInfo → Values → κ → σ → Turn κ × σ
  /-- Whether the run is cancelled. -/
  cancelled : σ → Bool

/-- What a run is made of, apart from its tasks. -/
structure Machine (σ κ : Type) where
  document : Document
  evaluator : Binding.Evaluator
  behavior : Behavior σ κ

namespace Machine

variable {σ κ : Type}

/-! ## Ends -/

/-- Ends the work on a task: the task is finished, and so is all that is unfinished below it. -/
def conclude (result : Outcome Values) (task : Task κ) : Task κ :=
  let task := match result with
    | .ok _ => task.record .info "succeeded"
    | .error _ => task
  ((task.finish result).abandon "enclosing task finished first").withPhase .returned

/-- Takes in a turn of a tool. -/
def takeTurn (turn : Turn κ) (task : Task κ) : Task κ :=
  let task := (task.setParameters turn.parameters).mapState fun s =>
    { s with events := s.events ++ turn.events }
  match turn.next with
  | .done result => conclude result task
  | .wait tool => task.withPhase (.working tool)

/-! ## Starts -/

/-- The elements of a scattered step, ready to start. -/
def elementsOf (m : Machine σ κ) (info : TaskInfo) (params : Values) : Outcome (List (Task κ)) := do
  match info.step with
  | none =>
    throw (.resolve .scatterEngine ("task '" ++ info.id ++ "' is not a step"))
  | some step =>
    let all ← combinations step params
    (all.zipIdx 1).mapM fun (params, index) => do
      let task ← elementTask m.document info index
      return (task.setParameters params).withPhase .waiting

/-- Starts a scattered step. -/
def beginScatter (m : Machine σ κ) (task : Task κ) : Task κ :=
  match m.elementsOf task.info task.state.parameters with
  | .error failure => conclude (.error failure) task
  | .ok elements =>
    ((task.withElements elements).record .info
      ("scattering over " ++ toString elements.length ++ " subtasks")).withPhase .joining

/-- Starts a workflow. -/
def beginWorkflow (task : Task κ) : Task κ :=
  match Binding.fillDefaults task.info.process task.state.parameters with
  | .error failure => conclude (.error failure) task
  | .ok params =>
    let children := task.children.map fun (id, child) => (id, child.withPhase .waiting)
    ((task.setParameters params).withChildren children).withPhase .joining

/-- The parameters of a task with the expressions of its step evaluated. -/
def ownParameters (m : Machine σ κ) (task : Task κ) : Outcome Values :=
  match task.info.step with
  | none => .ok task.state.parameters
  | some step =>
    Binding.stepValues m.evaluator step task.state.parameters task.info.library

/-- Marks a task as started, in its status and in its events. -/
def takeUp (task : Task κ) : Task κ :=
  task.markRunning.record .info task.info.startMessage

/-- Starts the work on a task. -/
def begin (m : Machine σ κ) (task : Task κ) (world : σ) : Task κ × σ :=
  let process := task.info.process
  let task := takeUp task
  if m.behavior.cancelled world then (conclude (.error Supply.runCancelled) task, world)
  else if task.info.isScatter then (m.beginScatter task, world)
  else
    match m.ownParameters task with
    | .error failure => (conclude (.error failure) task, world)
    | .ok params =>
      let task := task.setParameters params
      if process.isWorkflow then (beginWorkflow task, world)
      else
        let (turn, world) := m.behavior.start task.info params world
        (takeTurn turn task, world)

/-- Ends a task whose sources failed. -/
def refuse (failure : Failure) (task : Task κ) : Task κ :=
  let task := task.record .warning failure.message
  let task :=
    if failure.isCancelled then task.abandon failure.message
    else (task.finish (.error failure)).abandon "step inputs could not be resolved"
  task.withPhase .returned

/-- Starts the task of a step once its sources are there. -/
def beginStep (m : Machine σ κ) (supply : Supply) (task : Task κ) (world : σ) :
    Option (Task κ × σ) :=
  match task.info.step with
  | none =>
    let failure := Failure.resolve .stepScheduler ("task '" ++ task.info.id ++ "' is not a step")
    some ((task.finish (.error failure)).withPhase .returned, world)
  | some step =>
    match supply.feed step with
    | none => none
    | some (.error failure) => some (refuse failure task, world)
    | some (.ok params) => some (m.begin (task.setParameters params) world)

/-! ## Joins -/

/-- The failure of a task that ended by itself and not because another one failed. -/
def ownFailure? (task : Task κ) : Option Failure :=
  task.status.failure?.filter fun f => !f.isCancelled

/-- Gives a task up that is not finished. -/
def giveUp (reason : String) (task : Task κ) : Task κ :=
  if task.isDone then task else task.abandon reason

/-- The failure of a workflow or a scattered step, from the tasks below it in order: the first failure
that is no cancellation, else the first cancellation. -/
def failureBelow? (tasks : List (Task κ)) (unfinished : Failure) : Option Failure :=
  (tasks.findSome? ownFailure?).or (tasks.findSome? fun task =>
    match task.status with
    | .succeeded => none
    | .failed failure => some failure
    | _ => some unfinished)

/-- Gives up the unfinished tasks in front of the first one that failed by itself. -/
def giveUpAll {α : Type} (reason : String) (taskOf : α → Task κ)
    (withTask : α → Task κ → α) : List α → List α
  | [] => []
  | a :: rest =>
    if (ownFailure? (taskOf a)).isSome then a :: rest
    else withTask a (giveUp reason (taskOf a)) :: giveUpAll reason taskOf withTask rest

/-- The outputs of a scattered step: arrays of the outputs of its elements. -/
def gatherElements (task : Task κ) : Values :=
  task.info.process.outputs.foldl (fun outputs output =>
    outputs.insert output.id (.array (task.elements.map fun element =>
      (element.state.outputs.find? output.id).getD .null))) []

/-- The outputs of a workflow. -/
def gatherOutputs (supply : Supply) (process : Process) : Awaited Values :=
  process.outputs.foldlM (fun (outputs : Values) output => do
    return outputs.insert output.id (← supply.gather output.sources)) []

/-- Records that the work on a task below broke off. -/
def recordAborts (what : String) (below : List (Task κ)) (task : Task κ) : Task κ :=
  below.foldl (fun task child =>
    match child.phase with
    | .aborted => task.record .error (what ++ " aborted")
    | _ => task) task

/-- Ends a scattered step whose elements are over. -/
def joinScatter (task : Task κ) : Task κ :=
  let reason := "subtask did not finish"
  let failure? := failureBelow? task.elements (.cancelled .scatterEngine reason)
  let task := recordAborts "subtask" task.elements task
  let task := task.withElements (giveUpAll reason id (fun _ t => t) task.elements)
  match failure? with
  | some failure => conclude (.error failure) task
  | none => conclude (.ok (gatherElements task)) task

/-- Ends a workflow whose steps are over. -/
def joinWorkflow (cancelled : Bool) (task : Task κ) : Option (Task κ) :=
  let reason := "step did not finish"
  let below := task.children.values
  let failure? := failureBelow? below (.cancelled .stepScheduler reason)
  let task := recordAborts "step" below task
  let task := task.withChildren
    (giveUpAll reason Prod.snd (fun (id, _) t => (id, t)) task.children)
  match failure? with
  | some failure => some (conclude (.error failure) task)
  | none =>
    (gatherOutputs (.ofTask cancelled task) task.info.process).run.map fun result =>
      conclude result task

/-- Ends a workflow or a scattered step whose tasks below are over. -/
def join (cancelled : Bool) (task : Task κ) : Option (Task κ) :=
  if task.children.values.all (·.phase.isOver) && task.elements.all (·.phase.isOver) then
    if task.info.isScatter then some (joinScatter task) else joinWorkflow cancelled task
  else none

/-! ## Steps -/

/-- The step of a task, if it can go on. -/
def stepHere (m : Machine σ κ) (supply : Option Supply) (task : Task κ) (world : σ) :
    Option (Task κ × σ) :=
  match task.phase with
  | .waiting =>
    match supply with
    | some supply => m.beginStep supply task world
    | none => some (m.begin task world)
  | .working tool =>
    if m.behavior.ready tool world then
      let (turn, world) := m.behavior.resume task.info task.state.parameters tool world
      some (takeTurn turn task, world)
    else none
  | .joining => (join (m.behavior.cancelled world) task).map fun task => (task, world)
  | _ => none

/-- A way from a task to one directly below it. -/
inductive Branch where
  | child (step : String)
  | element (place : Nat)
  deriving Repr, DecidableEq, Inhabited

/-- The way from the main task to a task. -/
abbrev Address := List Branch

/-- Replaces the child of a step. -/
def replaceChild (children : OrderedMap (Task κ)) (step : String) (child : Task κ) :
    OrderedMap (Task κ) :=
  children.map fun (id, old) => if id = step then (id, child) else (id, old)

/-- The step of the task at an address, if it can go on. -/
def stepAt (m : Machine σ κ) : Address → Option Supply → Task κ → σ → Option (Task κ × σ)
  | [], supply, task, world => m.stepHere supply task world
  | .child step :: rest, _, task, world => do
    let child ← task.children.find? step
    let supply := Supply.ofTask (m.behavior.cancelled world) task
    let (child, world) ← stepAt m rest (some supply) child world
    return (task.withChildren (replaceChild task.children step child), world)
  | .element place :: rest, _, task, world => do
    let element ← task.elements[place]?
    let (element, world) ← stepAt m rest none element world
    return (task.withElements (task.elements.set place element), world)

/-- The step of the task at an address of a run. -/
def step? (m : Machine σ κ) (address : Address) (root : Task κ) (world : σ) :
    Option (Task κ × σ) :=
  m.stepAt address none root world

/-! ## Addresses -/

mutual

/-- The addresses of a task and of those below it whose work is not over. -/
def openAddresses : Task κ → List Address
  | .node _ _ phase children elements =>
    match phase with
    | .idle => []
    | .returned => []
    | .aborted => []
    | _ => [] :: (childAddresses children ++ elementAddresses 0 elements)

/-- The addresses below some children. -/
def childAddresses : List (String × Task κ) → List Address
  | [] => []
  | (step, task) :: rest =>
    (openAddresses task).map (.child step :: ·) ++ childAddresses rest

/-- The addresses below some elements, counted from `place`. -/
def elementAddresses (place : Nat) : List (Task κ) → List Address
  | [] => []
  | task :: rest =>
    (openAddresses task).map (.element place :: ·) ++ elementAddresses (place + 1) rest

end

/-- The first task that can go on takes its step. -/
def firstStep (m : Machine σ κ) (root : Task κ) (world : σ) : Option (Task κ × σ) :=
  (openAddresses root).findSome? fun address => m.step? address root world

/-- Takes steps while a task can go on, at most `fuel` of them. -/
def settle (m : Machine σ κ) : Nat → Task κ → σ → Task κ × σ
  | 0, root, world => (root, world)
  | fuel + 1, root, world =>
    match m.firstStep root world with
    | some (root, world) => settle m fuel root world
    | none => (root, world)

mutual

/-- The tools at work below a task. -/
def tools : Task κ → List κ
  | .node _ _ phase children elements =>
    (match phase with
      | .working tool => [tool]
      | _ => []) ++ childTools children ++ elementTools elements

/-- The tools at work below some children. -/
def childTools : List (String × Task κ) → List κ
  | [] => []
  | (_, task) :: rest => tools task ++ childTools rest

/-- The tools at work below some elements. -/
def elementTools : List (Task κ) → List κ
  | [] => []
  | task :: rest => tools task ++ elementTools rest

end

end Machine

end WorkflowEngine.Scheduling
