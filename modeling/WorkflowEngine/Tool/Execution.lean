import WorkflowEngine.Outputs.Collection
import WorkflowEngine.Scheduling.Machine
import WorkflowEngine.Tool.Polling
import WorkflowEngine.Tool.Request
import WorkflowEngine.Tool.Staging

/-!
# Running tools

A tool runs in a directory of its own.  Its inputs are bound and its files put in place; an expression
is then evaluated at once, and a command line is handed to the executor and polled until it has ended.
At last the outputs are collected.

* **`Workplace`** — a tool that is ready to run.
* **`Running`** — a command line that an executor works on.
* **`behavior`** — how tools run, as the scheduler sees it.
-/

namespace WorkflowEngine.Tool

open Document (Body)
open Scheduling (Behavior Next TaskInfo Turn)

/-- What all tools of a run have in common. -/
structure Setting (ε : Type) where
  /-- What evaluates expressions. -/
  interpreter : Interpreter
  config : Configuration
  directory : RunDirectory
  executor : Executor ε

/-- A tool that is ready to run. -/
structure Workplace where
  directory : TaskDirectory
  bound : Binding.BoundInputs
  context : ExprContext
  resources : Resources
  deriving Inhabited

/-- A command line that an executor works on. -/
structure Running where
  polling : Polling
  workplace : Workplace
  command : CommandLine.Command
  deriving Inhabited

/-! ## Preparation -/

/-- Binds the inputs of a tool in a directory. -/
def bindIn (interpreter : Interpreter) (config : Configuration) (directory : TaskDirectory)
    (info : TaskInfo) (params : Values) : FileWork Workplace := do
  let params ← Binding.fillDefaults info.process params
  let plain := { ExprContext.ofInputs params with library := info.library }
  let (resources, cores, ram) ← resourcesOf interpreter info plain config
  let runtime := runtimeOf directory cores ram
  let bound ← FileWork.look fun files =>
    Binding.bindInputs (Binding.evaluator interpreter) files config info.process params runtime
      info.library
  let context := { ExprContext.ofInputs bound.inputs with runtime, library := info.library }
  return ⟨directory, bound, context, resources⟩

/-- Puts the files of a tool in place. -/
def stageIn (interpreter : Interpreter) (info : TaskInfo) (workplace : Workplace) : FileWork Unit :=
  match info.requirement? "InitialWorkDirRequirement" with
  | some (.initialWorkDir listing) =>
    stageAll interpreter workplace.directory workplace.context listing
  | _ => pure ()

/-- Makes the directories of a tool and binds its inputs. -/
def settleIn {ε : Type} (setting : Setting ε) (info : TaskInfo) (params : Values) :
    FileWork Workplace := do
  let directory ← FileWork.act (TaskDirectory.create setting.directory info.path)
  bindIn setting.interpreter setting.config directory info params

/-! ## Turns -/

/-- Does some work on the files of a world. -/
def onFiles {ε α : Type} (world : World ε) (work : FileWork α) :
    Outcome α × List Event × World ε :=
  let (result, files, events) := work (world.files, [])
  (result, events, { world with files })

/-- The outputs of a command line that has run. -/
def collectOutputs {ε : Type} (setting : Setting ε) (info : TaskInfo) (running : Running)
    (files : FileTree) : Outcome Values × List Event :=
  (Outputs.toolOutputs {
    interpreter := setting.interpreter
    tree := files
    config := setting.config
    directory := running.workplace.directory.root
    stdout := running.command.stdout
    stderr := running.command.stderr
    context := running.workplace.context } info.process).collect

/-- The command line of a workplace, as an executor gets it. -/
def commandOf {ε : Type} (setting : Setting ε) (info : TaskInfo) (workplace : Workplace)
    (line : Document.CommandLine) : Outcome (CommandLine.Command × PreparedTool) := do
  let shell := (info.requirement? "ShellCommandRequirement").isSome
  let command ← CommandLine.assemble setting.interpreter info.process line
    workplace.bound.provided workplace.context shell
  let prepared ← prepareTool setting.interpreter info setting.config workplace.directory
    workplace.context workplace.bound.inputs workplace.resources command
  return (command, prepared)

/-- Hands a command line over to the executor. -/
def dispatch {ε : Type} (setting : Setting ε) (info : TaskInfo) (workplace : Workplace)
    (line : Document.CommandLine) (world : World ε) : Next Running × List Event × World ε :=
  match commandOf setting info workplace line with
  | .error failure => (.done (.error failure), [], world)
  | .ok (command, prepared) =>
    let event : Event :=
      ⟨.info, "dispatching in " ++ prepared.image ++ ": " ++ prepared.shellText⟩
    match setting.executor.dispatch prepared world with
    | (.error failure, world) => (.done (.error failure), [event], world)
    | (.ok handle, world) =>
      let polling := Polling.start setting.config handle world.now
      (.wait ⟨polling, workplace, command⟩, [event], world)

/-- Does what a tool is there for, in its workplace. -/
def perform {ε : Type} (setting : Setting ε) (info : TaskInfo) (workplace : Workplace)
    (world : World ε) : Next Running × List Event × World ε :=
  match info.process.body with
  | .expressionTool expression =>
    let result := do
      let value ← ExprFault.orFail (setting.interpreter expression workplace.context)
      Outputs.expressionOutputs info.process value
    (.done result, [], world)
  | .commandLineTool line => dispatch setting info workplace line world
  | .workflow _ =>
    (.done (.error (.resolve .toolRunner
      ("'" ++ info.process.id ++ "' is a workflow, not a tool"))), [], world)

/-- The first turn of a tool. -/
def start {ε : Type} (setting : Setting ε) (info : TaskInfo) (params : Values) (world : World ε) :
    Turn Running × World ε :=
  match onFiles world (settleIn setting info params) with
  | (.error failure, events, world) => (⟨params, events, .done (.error failure)⟩, world)
  | (.ok workplace, events, world) =>
    let inputs := workplace.bound.inputs
    match onFiles world (stageIn setting.interpreter info workplace) with
    | (.error failure, more, world) => (⟨inputs, events ++ more, .done (.error failure)⟩, world)
    | (.ok (), more, world) =>
      let (next, last, world) := perform setting info workplace world
      (⟨inputs, events ++ more ++ last, next⟩, world)

/-- A further turn of a tool. -/
def resume {ε : Type} (setting : Setting ε) (info : TaskInfo) (params : Values)
    (running : Running) (world : World ε) : Turn Running × World ε :=
  match running.polling.turn setting.executor setting.config world with
  | (.again polling, events, world) =>
    (⟨params, events, .wait { running with polling }⟩, world)
  | (.ended (.error failure), events, world) =>
    (⟨params, events, .done (.error failure)⟩, world)
  | (.ended (.ok ()), events, world) =>
    let completed : Event := ⟨.info, "tool " ++ running.polling.handle ++ " completed"⟩
    let (result, more) := collectOutputs setting info running world.files
    (⟨params, events ++ [completed] ++ more, .done result⟩, world)

/-- How tools run. -/
def behavior {ε : Type} (setting : Setting ε) : Behavior (World ε) Running where
  start := start setting
  ready := fun running world => running.polling.isReady world
  resume := resume setting
  cancelled := World.cancelled

end WorkflowEngine.Tool
