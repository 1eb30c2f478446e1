import WorkflowEngine.Engine
import WorkflowEngine.Proofs.Lineage
import WorkflowEngine.Proofs.Publication

/-!
# Declared outputs

The steps that come after a task, and the scattered step that it is a run of, look its outputs up by name.
In every run of the engine they find all that its process declares: a task that has succeeded has published
exactly these outputs, each once, in the order in which they are declared (`declared_outputs_published`).

How the outputs came about plays no part in it: they may be members of an object that an expression returned,
files that patterns found, values that a tool reported, sources of a workflow or gathered arrays.  The report
of a tool may name them in any order and name others besides: `reported_in_order`.
-/

namespace WorkflowEngine.Scheduling

open Document (Process Step)
open Machine (ready)

/-- The ids of the outputs of a process are all different. -/
def HasDistinctOutputs (process : Process) : Prop := (process.outputs.map Document.Output.id).Nodup

instance (process : Process) : Decidable (HasDistinctOutputs process) :=
  inferInstanceAs (Decidable (List.Nodup _))

lemma HasDistinctOutputs.keys {process : Process} (distinct : HasDistinctOutputs process)
    {outputs : Values} (h : Publishes process outputs) :
    outputs.keys = process.outputs.map Document.Output.id ∧ outputs.keys.Nodup := by
  have hkeys : outputs.keys = process.outputs.map Document.Output.id :=
    h.trans (OrderedMap.firstKeys_eq_map distinct)
  exact ⟨hkeys, hkeys ▸ distinct⟩

/-- **What has succeeded has published what it declares.**  In every run of an accepted document whose
processes have distinct outputs, in whatever order its tasks go on and whatever its tools do. -/
theorem declared_outputs_published {ε : Type} {engine : Engine ε} {directory : RunDirectory}
    {c : Circumstances (Tool.World ε)} {document : Document} {root tree : RunTask} {params : Values}
    (accepted : resolve document = .ok root)
    (distinct : ∀ process ∈ document.processes, HasDistinctOutputs process)
    (run : (engine.machine document directory).Runs c (ready root params) tree) :
    ∀ task ∈ tree.descendants, task.status = .succeeded →
      task.state.outputs.keys = task.info.process.outputs.map Document.Output.id ∧
        task.state.outputs.keys.Nodup := by
  intro task mem succeeded
  have delivers : Delivers (engine.machine document directory).behavior := delivers_behavior _
  have publishes : Publishes task.info.process task.state.outputs :=
    Machine.complete_of_runs delivers accepted run task mem succeeded
  have found : task.info.process ∈ document.processes :=
    (found_of_runs accepted run task mem).mem
  exact (distinct _ found).keys publishes

/-! ## A tool that reports its outputs -/

/-- A command line tool with two outputs. -/
def reporterTool : Process where
  id := "#report"
  body := .commandLineTool ⟨["report"], [], none, none, none⟩
  inputs := []
  outputs := [⟨"first", .int, none, [], []⟩, ⟨"second", .int, none, [], []⟩]
  requirements := []
  hints := []

def reporterStep : Step :=
  { relayStep "#main/each" "#main/in" with
    run := "#report", outputs := ["first", "second"], scatter := ["in"] }

/-- A workflow that runs the tool once for each element of an array. -/
def reporterMain : Process :=
  { relayWorkflow "#main" "#main/each/second" [reporterStep] with
    outputs := [⟨"second", .any, none, [], ["#main/each/second"]⟩,
      ⟨"first", .any, none, [], ["#main/each/first"]⟩] }

def reporter : Document := ⟨"v1.2", [reporterMain, reporterTool]⟩

/-- A report that names the outputs in another order, and a third one. -/
def shuffledReport : String := "\x7b\"third\":3,\"second\":2,\"first\":1\x7d"

/-- An engine whose executor leaves the report for each tool, which has then ended. -/
def reportingEngine : Engine Unit where
  config := .standard
  executor := {
    dispatch := fun tool world =>
      let (_, files) := Files.writeFile (Path.join tool.directory Outputs.reportName)
        (Text.encode shuffledReport) world.files
      (.ok "job", { world with files })
    status := fun _ world => (.ok .completed, world)
    cancel := fun _ world => (.ok (), world) }

def reporterMachine : Machine (Tool.World Unit) Tool.Running :=
  reportingEngine.machine reporter (.below "/" "run")

def reporterRoot : RunTask :=
  .node (mainInfo reporterMain) .fresh .idle
    [("#main/each", .node (childInfo (mainInfo reporterMain) reporterStep reporterTool) .fresh .idle
      [] [])] []

def reporterStart : RunTask := ready reporterRoot [("in", .array [.null])]

/-- The tree of a whole run for one element. -/
def reporterLast : RunTask :=
  (Engine.work reporterMachine 10 2 reporterStart ⟨default, 0, none, ()⟩).1

/-- The outputs of the tool, and of its step, stand in the order of the tool; those of the workflow in the
order of the workflow. -/
theorem reported_in_order :
    reporterLast.descendants.map (fun task => task.info.path) =
      ["#main", "#main/each", "#main/each-scatter-1"] ∧
    ∀ task ∈ reporterLast.descendants, task.state.outputs.keys =
      if task.info.process.isWorkflow then ["second", "first"] else ["first", "second"] := by
  have accepted : resolve reporter = .ok reporterRoot := by with_unfolding_all rfl
  have distinct : ∀ process ∈ reporter.processes, HasDistinctOutputs process := by decide
  have run : reporterMachine.Runs (.any (Tool.World Unit)) reporterStart reporterLast :=
    runs_work (fun _ => trivial) _ _ _ _
  have ended : reporterLast.descendants.map (fun task => task.info.path) =
        ["#main", "#main/each", "#main/each-scatter-1"] ∧
      ∀ task ∈ reporterLast.descendants, task.status = .succeeded ∧
        task.info.process.outputs.map Document.Output.id =
          if task.info.process.isWorkflow then ["second", "first"] else ["first", "second"] := by
    decide +kernel
  refine ⟨ended.1, fun task mem => ?_⟩
  obtain ⟨succeeded, declared⟩ := ended.2 task mem
  exact (declared_outputs_published accepted distinct run task mem succeeded).1.trans declared

end WorkflowEngine.Scheduling
