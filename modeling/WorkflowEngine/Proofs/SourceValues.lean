import WorkflowEngine.Engine
import WorkflowEngine.Proofs.Lineage
import WorkflowEngine.Proofs.Publication

/-!
# Values of sources

What is read from a source has been supplied, in every run of the engine: a parameter of the workflow, or
what the task of a step has published.  Null never stands in for a value that is missing.

**Known sources.**  The checks leave only known sources (`known_of_valid`).

**Given up steps.**  What a workflow reads for its outputs once it has given up unfinished steps, it could
read before (`value_settleBelow`).

**Reads.**  `reads_delivered`, under the condition `Offered` that the checks leave out: they believe what a
step says about the outputs of the process that it runs.
-/

namespace WorkflowEngine.Scheduling

open Document (Process Step)
open Machine (settleBelow giveUp giveUpAll BelowOver ready)

variable {σ κ : Type}

/-! ## Known sources -/

lemma known_of_valid {document : Document} {process : Process} (h : Valid document process)
    (named : WellNamed process) :
    (∀ step ∈ process.steps, ∀ source ∈ sourcesOf step, Known process source) ∧
      (process.isWorkflow = true →
        ∀ output ∈ process.outputs, ∀ source ∈ output.sources, Known process source) := by
  cases h with
  | tool tool => simp [steps_eq_nil tool, tool]
  | workflow sources _ _ =>
      obtain ⟨⟨deps, hdeps, -⟩, houtputs⟩ := (validateSources_eq_ok named).mp sources
      exact ⟨(exists_dependencies_iff named).mp ⟨deps, hdeps⟩, fun _ => houtputs⟩

/-! ## Given up steps -/

lemma giveUp_of_succeeded {reason : String} {task : Task κ}
    (h : (giveUp reason task).status = .succeeded) : giveUp reason task = task := by
  unfold giveUp at h ⊢
  split_ifs at h ⊢ with hdone
  · rfl
  · have hopen : task.state.status.isFinal = false := by simpa [Task.isDone, Task.status] using hdone
    rw [Task.status, Task.state_abandon, TaskState.status_finish_error hopen] at h
    cases h

/-- A step that has succeeded has not been given up. -/
lemma find?_settleBelow {task child : Task κ} {id : String}
    (h : (settleBelow task).children.find? id = some child) (succeeded : child.status = .succeeded) :
    task.children.find? id = some child := by
  have hkept : List.Forall₂ (fun p q => q.1 = p.1 ∧ (p.2.status = .succeeded → q.2 = p.2))
      (settleBelow task).children task.children := by
    refine List.Forall₂.flip ?_
    rw [settleBelow]
    split_ifs
    · simp [List.forall₂_same, flip]
    · simp only [Task.children_withChildren]
      exact Machine.forall₂_giveUpAll _ _ _ (fun p => ⟨rfl, fun _ => rfl⟩)
        (fun p => ⟨rfl, fun hs => (giveUp_of_succeeded hs).symm⟩) _
  obtain ⟨before, hbefore, hsame⟩ := OrderedMap.find?_of_forall₂
    (R := fun after before : Task κ => after.status = .succeeded → before = after) hkept h
  rw [hbefore, hsame succeeded]

lemma value_settleBelow {cancelled : Bool} {workflow : Task κ} {source : String} {v : Value}
    (h : ((Supply.ofTask cancelled (settleBelow workflow)).value source).run = some (.ok v)) :
    Supplied workflow source ∧ v = readSource workflow source := by
  obtain ⟨supplied, rfl⟩ := value_eq_ok h
  rw [Supplied, Machine.info_settleBelow] at supplied
  refine ⟨fun producer hp => ?_, ?_⟩
  · obtain ⟨task, hc, hs⟩ := supplied producer hp
    exact ⟨task, find?_settleBelow hc hs, hs⟩
  · unfold readSource
    rw [Machine.info_settleBelow]
    cases hp : (outputSteps workflow.info.process).find? source with
    | some producer =>
        obtain ⟨task, hc, hs⟩ := supplied producer hp
        simp only [hc, find?_settleBelow hc hs]
    | none =>
        have hparams : (settleBelow workflow).state.parameters = workflow.state.parameters :=
          congrArg Task.Facts.parameters (Machine.facts_settleBelow workflow)
        simp only [hparams]

/-! ## Reads -/

/-- What is read from a source, and from which supply: a step that waits reads the sources of its inputs, and
a workflow whose steps are over those of its outputs. -/
inductive Reads (workflow : Task κ) : Supply → String → Prop
  | input {cancelled : Bool} {id source : String} {child : Task κ} {step : Step}
      (at_ : workflow.children.find? id = some child) (waiting : child.phase = .waiting)
      (isStep : child.info.step = some step) (mem : source ∈ sourcesOf step) :
      Reads workflow (.ofTask cancelled workflow) source
  | output {cancelled : Bool} {source : String} {output : Document.Output}
      (joining : workflow.phase = .joining) (rested : BelowOver workflow)
      (plain : workflow.info.isScatter = false) (isWorkflow : workflow.info.process.isWorkflow = true)
      (declared : output ∈ workflow.info.process.outputs) (mem : source ∈ output.sources) :
      Reads workflow (.ofTask cancelled (settleBelow workflow)) source

/-- A value has been supplied for a source. -/
inductive Delivered (workflow : Task κ) (source : String) (v : Value) : Prop
  /-- It is bound to an input that the workflow declares. -/
  | input {i : Document.Input} (declared : i ∈ workflow.info.process.inputs)
      (names : source = workflow.info.process.id ++ "/" ++ i.id)
      (bound : workflow.state.parameters.find? i.id = some v)
  /-- The task of a step has published it. -/
  | output {step : Step} {name : String} {child : Task κ} (mem : step ∈ workflow.info.process.steps)
      (declared : name ∈ step.outputs) (names : source = step.outputId name)
      (at_ : workflow.children.find? step.id = some child) (succeeded : child.status = .succeeded)
      (published : child.state.outputs.find? name = some v)

/-- The step that a source comes from, if it comes from one, runs a process with this output. -/
def Offered (document : Document) (process : Process) (source : String) : Prop :=
  ∀ step ∈ process.steps, ∀ name ∈ step.outputs, source = step.outputId name →
    ∀ last target, stepWith? process step.id = some last → runTarget document last = .ok target →
      ∃ output ∈ target.outputs, output.id = name

section Reads

variable {workflow : Task κ} {source : String} {supply : Supply} {v : Value}

/-- Only a workflow under way has steps that wait. -/
lemma joining_of_waiting {task child : Task κ} (h : Machine.Tidy task) {id : String}
    (at_ : task.children.find? id = some child) (waiting : child.phase = .waiting) :
    task.phase = .joining := by
  by_contra apart
  have hrests := ((h.rests_below apart).1 _ (OrderedMap.mem_of_find? at_)).here
  simp [Machine.Resting, waiting, Phase.isOver] at hrests

lemma isSome_of_fillDefaults {process : Process} {params values : Values}
    (h : Binding.fillDefaults process params = .ok values) :
    ∀ i ∈ process.inputs, (values.find? i.id).isSome = true := by
  intro i hi
  rw [OrderedMap.find?_isSome_iff, OrderedMap.keys_of_collect Document.Input.id _ h]
  exact OrderedMap.mem_firstKeys.mpr ⟨i, hi, rfl⟩

lemma Reads.known (h : Reads workflow supply source) {document : Document}
    (sound : Machine.Sound document workflow) (named : WellNamed workflow.info.process) :
    Known workflow.info.process source ∧ workflow.phase = .joining ∧
      workflow.info.isScatter = false := by
  have hwired := sound.here.1
  obtain ⟨hsteps, houtputs⟩ := known_of_valid hwired.valid named
  cases h with
  | input at_ waiting isStep mem =>
      obtain ⟨step, hstep, hs⟩ := hwired.child _ _ at_
      obtain rfl := Option.some.inj (hs.symm.trans isStep)
      exact ⟨hsteps _ (OrderedMap.mem_of_lastWith hstep).1 source mem,
        joining_of_waiting sound.here.2 at_ waiting, hwired.plain_of_child at_⟩
  | output joining _ plain isWorkflow declared mem =>
      exact ⟨houtputs isWorkflow _ declared source mem, joining, plain⟩

lemma Reads.supplied (h : Reads workflow supply source)
    (hv : (supply.value source).run = some (.ok v)) :
    Supplied workflow source ∧ v = readSource workflow source := by
  cases h with
  | input _ _ _ _ => exact value_eq_ok hv
  | output _ _ _ _ _ _ => exact value_settleBelow hv

/-- The value of a source is there when the inputs of the workflow are bound and its steps have published
their outputs. -/
lemma delivered_of_supplied {document : Document} (named : WellNamed workflow.info.process)
    (expanded : Expanded document workflow) (known : Known workflow.info.process source)
    (offered : Offered document workflow.info.process source)
    (bound : ∀ i ∈ workflow.info.process.inputs, (workflow.state.parameters.find? i.id).isSome = true)
    (complete : ∀ id child, workflow.children.find? id = some child → Complete child)
    (supplied : Supplied workflow source) :
    Delivered workflow source (readSource workflow source) := by
  unfold readSource
  cases hp : (outputSteps workflow.info.process).find? source with
  | some producer =>
      obtain ⟨step, hs, rfl, name, hname, rfl⟩ := (find?_outputSteps_iff named).mp hp
      obtain ⟨child, hc, hsucceeded⟩ := supplied _ hp
      obtain ⟨last, target, hlast, htarget, hinfo⟩ := expanded.child _ _ hc
      obtain ⟨output, houtput, rfl⟩ := offered step hs name hname rfl last target hlast htarget
      have hpublished : (child.state.outputs.find? output.id).isSome = true := by
        refine (complete _ _ hc hsucceeded).isSome_find? ?_
        rw [hinfo]
        exact houtput
      obtain ⟨v, hv⟩ := Option.isSome_iff_exists.mp hpublished
      have hlocal : Ident.localName (step.outputId output.id) = output.id :=
        Ident.localName_append _ (named.stepOutput step hs _ hname)
      simpa [hlocal, hc, hv] using Delivered.output hs hname rfl hc hsucceeded hv
  | none =>
      rcases known with ⟨step, hs, hout⟩ | ⟨i, hi, rfl⟩
      · rw [(find?_outputSteps_iff named).mpr ⟨step, hs, rfl, hout⟩] at hp
        cases hp
      · obtain ⟨v, hv⟩ := Option.isSome_iff_exists.mp (bound i hi)
        have hlocal : Ident.localName (workflow.info.process.id ++ "/" ++ i.id) = i.id :=
          Ident.localName_append _ (named.input i hi)
        simpa [hlocal, hv] using Delivered.input hi rfl hv

/-- Where tools give their outputs, what is read from a source that is offered has been supplied. -/
lemma Reads.delivered {m : Machine σ κ} {c : Circumstances σ} {json : Json} {root tree : Task κ}
    {params : Values} (delivers : Delivers m.behavior) (read : Document.ofJson json = .ok m.document)
    (accepted : resolve m.document = .ok root) (run : m.Runs c (ready root params) tree)
    (mem : workflow ∈ tree.descendants) (reads : Reads workflow supply source)
    (offered : Offered m.document workflow.info.process source)
    (hv : (supply.value source).run = some (.ok v)) : Delivered workflow source v := by
  have hsound := (Machine.sound_of_runs accepted run).everywhere workflow mem
  have hcomplete := (Machine.complete_of_runs delivers accepted run).everywhere workflow mem
  have hnamed : WellNamed workflow.info.process :=
    Document.wellNamed_of_ofJson read _ (found_of_runs accepted run workflow mem).mem
  obtain ⟨known, joining, plain⟩ := reads.known hsound hnamed
  obtain ⟨_, _, -, hfilled⟩ := (Machine.orderly_of_runs accepted run).2 workflow mem joining plain
  obtain ⟨supplied, rfl⟩ := reads.supplied hv
  exact delivered_of_supplied hnamed (Machine.expanded_of_runs accepted run workflow mem) known offered
    (isSome_of_fillDefaults hfilled)
    (fun id child hc => (hcomplete.child (OrderedMap.mem_of_find? hc)).here) supplied

end Reads

/-- **No source is silently null.**  In every run of a document that is read and accepted, in whatever order
its tasks go on: a value that a step or a workflow reads from a source has been supplied, provided that the
source is offered. -/
theorem reads_delivered {ε : Type} {engine : Engine ε} {directory : RunDirectory}
    {c : Circumstances (Tool.World ε)} {json : Json} {document : Document} {root tree : RunTask}
    {params : Values} (read : Document.ofJson json = .ok document)
    (accepted : resolve document = .ok root)
    (run : (engine.machine document directory).Runs c (ready root params) tree) {workflow : RunTask}
    (mem : workflow ∈ tree.descendants) {supply : Supply} {source : String}
    (reads : Reads workflow supply source)
    (offered : Offered document workflow.info.process source) {v : Value}
    (hv : (supply.value source).run = some (.ok v)) : Delivered workflow source v := by
  have delivers : Delivers (engine.machine document directory).behavior := delivers_behavior _
  exact reads.delivered delivers read accepted run mem offered hv

/-! ## A step that says too much -/

/-- A document whose main workflow takes its output from some source.  Its step runs a workflow that
passes its input on, and says that this has a second output. -/
def surplusJson (source : String) : Json :=
  documentJson [
    workflowJson "#main" source [.obj [("id", .str "only"), ("run", .str "#inner"),
      ("in", .obj [("in", .str "in")]), ("out", .arr [.str "out", .str "surplus"])]],
    workflowJson "#inner" "in" []]

def surplusStep : Step :=
  { relayStep "#main/only" "#main/in" with run := "#inner", outputs := ["out", "surplus"] }

def surplusInner : Process := relayWorkflow "#inner" "#inner/in" []

def surplus (source : String) : Document :=
  ⟨"v1.2", [relayWorkflow "#main" source [surplusStep], surplusInner]⟩

/-- An engine whose executor does nothing. -/
def idleEngine : Engine Unit where
  config := .standard
  executor := ⟨fun _ world => (.ok "", world), fun _ world => (.ok .completed, world),
    fun _ world => (.ok (), world)⟩

def surplusMachine (source : String) : Machine (Tool.World Unit) Tool.Running :=
  idleEngine.machine (surplus source) (.below "/" "run")

def surplusRoot (source : String) : RunTask :=
  let main := mainInfo (relayWorkflow "#main" source [surplusStep])
  .node main .fresh .idle
    [("#main/only", .node (childInfo main surplusStep surplusInner) .fresh .idle [] [])] []

/-- The tree once the step has come to its end. -/
def surplusLast (source : String) : RunTask :=
  let start := ready (surplusRoot source) [("in", .bool true)]
  (start :: (surplusMachine source).walk [[], [.child "#main/only"], [.child "#main/only"]] start
    ⟨default, 0, none, ()⟩).getLast (List.cons_ne_nil _ _)

lemma surplus_runs (source : String) : (surplusMachine source).Runs (.any (Tool.World Unit))
    (ready (surplusRoot source) [("in", .bool true)]) (surplusLast source) :=
  Machine.runs_walk (fun _ => trivial) _ _ _

lemma surplus_reads (source : String) : Reads (surplusLast source)
    (.ofTask false (settleBelow (surplusLast source))) source := by
  have hinfo : (surplusLast source).info = mainInfo (relayWorkflow "#main" source [surplusStep]) := by
    rfl
  have hjoining : (surplusLast source).phase = .joining := by rfl
  have hover : ((surplusLast source).children.all fun p => p.2.phase.isOver) = true := by rfl
  have helements : (surplusLast source).elements = [] := by rfl
  have rested : BelowOver (surplusLast source) := ⟨List.all_eq_true.mp hover, by simp [helements]⟩
  have hdeclared : (⟨"out", .any, none, [], [source]⟩ : Document.Output) ∈
      (surplusLast source).info.process.outputs := by
    rw [hinfo]
    exact List.mem_singleton_self _
  exact .output hjoining rested (by rw [hinfo]; rfl) (by rw [hinfo]; rfl) hdeclared
    (List.mem_singleton_self source)

/-- The output that the inner workflow has is read as it was published. -/
theorem surplus_out_delivered :
    Delivered (surplusLast "#main/only/out") "#main/only/out" (.bool true) := by
  have read : Document.ofJson (surplusJson "only/out") = .ok (surplus "#main/only/out") := by rfl
  have accepted : resolve (surplus "#main/only/out") = .ok (surplusRoot "#main/only/out") := by
    with_unfolding_all rfl
  have offered : Offered (surplus "#main/only/out") (surplusLast "#main/only/out").info.process
      "#main/only/out" := by
    intro step hs name hname hsource last target hlast htarget
    obtain rfl : step = surplusStep := List.mem_singleton.mp hs
    obtain rfl : surplusStep = last := Option.some.inj hlast
    have hinner : runTarget (surplus "#main/only/out") surplusStep = .ok surplusInner := by
      with_unfolding_all rfl
    obtain rfl := Except.ok.inj (hinner.symm.trans htarget)
    rcases List.mem_pair.mp hname with rfl | rfl
    · exact ⟨_, List.mem_singleton_self _, rfl⟩
    · exact absurd hsource (by decide)
  have run : (idleEngine.machine (surplus "#main/only/out") (.below "/" "run")).Runs
      (.any (Tool.World Unit)) (ready (surplusRoot "#main/only/out") [("in", .bool true)])
      (surplusLast "#main/only/out") := surplus_runs _
  have here : surplusLast "#main/only/out" ∈ (surplusLast "#main/only/out").descendants :=
    Task.mem_descendants.mpr (.inl rfl)
  have reads := surplus_reads "#main/only/out"
  have value : ((Supply.ofTask false (settleBelow (surplusLast "#main/only/out"))).value
      "#main/only/out").run = some (.ok (.bool true)) := by rfl
  exact reads_delivered read accepted run here reads offered value

/-- **The other one is silently null**, though the document is read and accepted: nothing has been
supplied for it. -/
theorem surplus_silently_null :
    Document.ofJson (surplusJson "only/surplus") = .ok (surplus "#main/only/surplus") ∧
    resolve (surplus "#main/only/surplus") = .ok (surplusRoot "#main/only/surplus") ∧
    (idleEngine.machine (surplus "#main/only/surplus") (.below "/" "run")).Runs (.any (Tool.World Unit))
      (ready (surplusRoot "#main/only/surplus") [("in", .bool true)])
      (surplusLast "#main/only/surplus") ∧
    ∃ supply, Reads (surplusLast "#main/only/surplus") supply "#main/only/surplus" ∧
      (supply.value "#main/only/surplus").run = some (.ok .null) ∧
      ∀ v, ¬ Delivered (surplusLast "#main/only/surplus") "#main/only/surplus" v := by
  have value : ((Supply.ofTask false (settleBelow (surplusLast "#main/only/surplus"))).value
      "#main/only/surplus").run = some (.ok .null) := by rfl
  have houtputs : ((surplusLast "#main/only/surplus").children.find? "#main/only").map
      (fun child => child.state.outputs) = some [("out", .bool true)] := by rfl
  refine ⟨by rfl, by with_unfolding_all rfl, surplus_runs _, _, surplus_reads _, value, fun v hv => ?_⟩
  cases hv with
  | input declared names _ =>
      obtain rfl := List.mem_singleton.mp declared
      exact absurd names (by decide)
  | output mem declared names at_ _ published =>
      obtain rfl := List.mem_singleton.mp mem
      obtain ⟨child, hchild, hpublished⟩ := Option.map_eq_some_iff.mp houtputs
      obtain rfl := Option.some.inj (hchild.symm.trans at_)
      rw [hpublished] at published
      rcases List.mem_pair.mp declared with rfl | rfl
      · exact absurd names (by decide)
      · cases published

end WorkflowEngine.Scheduling
