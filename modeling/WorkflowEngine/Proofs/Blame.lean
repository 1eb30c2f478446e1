import WorkflowEngine.Proofs.Failures

/-!
# Which task a run blames

A run that fails reports the id of a task along with the failure.  The failure is that of a task of the
tree, which may lie anywhere below the main task; the reported id is the id of that task, unless an
expression of its step failed: then it is the id that the step has in its own workflow.

**Blame.**  `Blames` says which id a failure names for the task that it came from.

**What is kept.**  A task that fails passes on the failure of a task directly below it, or is to blame
(`Traced`).  Followed down the tree this leads to the task to blame: `exists_blamed`.

**Nested workflows.**  The id of a step in a nested workflow is not the id of its task: a run of
`nestedMachine` reports an id that belongs to no task.
-/

namespace WorkflowEngine.Scheduling

open Document (Process Step)
open Machine (ready tasksBelow mem_tasksBelow tasksBelow_withPhase Attached GivenUpBelow)

variable {σ κ : Type}

/-! ## Blame -/

/-- The failure names the task, or the expressions of its step failed and the failure names the step. -/
def Blames (m : Machine σ κ) (task : Task κ) (failure : Failure) : Prop :=
  failure.task = some task.info.id ∨
    ∃ step, task.info.step = some step ∧ m.ownParameters task = .error failure ∧
      failure.task = some step.id

lemma Blames.named {m : Machine σ κ} {task : Task κ} {failure : Failure}
    (h : Blames m task failure) : failure.task.isSome = true := by
  rcases h with h | ⟨step, -, -, h⟩ <;> rw [h, Option.isSome_some]

lemma Blames.congr {m : Machine σ κ} {task next : Task κ} {failure : Failure}
    (h : Blames m task failure) (info : next.info = task.info)
    (params : next.state.parameters = task.state.parameters) : Blames m next failure := by
  unfold Blames Machine.ownParameters at h ⊢
  rwa [info, params]

/-- A task that fails by itself is to blame. -/
lemma OwnFailure.blames {m : Machine σ κ} (evaluator : m.evaluator.FailsAs fun failure => failure.task = none)
    {task : Task κ} {failure : Failure} (h : OwnFailure m task failure) : Blames m task failure := by
  obtain ⟨cause, rfl, ⟨step, -, -, hplan⟩ | ⟨-, hown⟩ | ⟨-, hfilled⟩⟩ := h
  · exact Or.inl (Failure.task_inTask (isFresh_of_combinations hplan).2 _)
  · obtain ⟨step, first, hstep, unnamed, hcause⟩ := exists_of_ownParameters evaluator hown
    have hnamed : cause.task = some step.id := hcause ▸ Failure.task_inTask unnamed step.id
    rw [Failure.inTask_of_named (by rw [hnamed, Option.isSome_some])]
    exact Or.inr ⟨step, hstep, hown, hnamed⟩
  · exact Or.inl (Failure.task_inTask (Binding.isFresh_of_fillDefaults hfilled).2 _)

/-! ## What is kept -/

/-- Where the task failed it is to blame, or a task directly below it failed with the same failure. -/
def Traced (m : Machine σ κ) (task : Task κ) : Prop :=
  ∀ failure, task.status = .failed failure →
    Blames m task failure ∨ ∃ d ∈ tasksBelow task, d.status = .failed failure

/-- **Some task is to blame for every failure.** -/
theorem exists_blamed {m : Machine σ κ} {task : Task κ} (h : task.Everywhere (Traced m))
    {failure : Failure} (failed : task.status = .failed failure) :
    ∃ d ∈ task.descendants, d.status = .failed failure ∧ Blames m d failure := by
  induction task using Task.inductionBelow with
  | step task ihc ihe =>
      rcases h.here failure failed with blames | ⟨d, hd, hs⟩
      · exact ⟨task, Task.mem_descendants.mpr (Or.inl rfl), failed, blames⟩
      · rcases mem_tasksBelow hd with ⟨p, hp, rfl⟩ | he
        · obtain ⟨e, he, hfound⟩ := ihc p hp (h.child hp) hs
          exact ⟨e, Task.mem_descendants.mpr (Or.inr (Or.inl ⟨p, hp, he⟩)), hfound⟩
        · obtain ⟨e, hmem, hfound⟩ := ihe d he (h.element he) hs
          exact ⟨e, Task.mem_descendants.mpr (Or.inr (Or.inr ⟨d, he, hmem⟩)), hfound⟩

lemma traced_of_undone {m : Machine σ κ} {task : Task κ} (h : task.isDone = false) :
    Traced m task := fun failure hs => absurd hs (Task.not_failed h failure)

/-- A task below that has failed keeps its failure when it is given up. -/
lemma Machine.GivenUpBelow.exists_failed {task next : Task κ} (h : GivenUpBelow task next)
    (info : next.info = task.info) {failure : Failure}
    (failed : ∃ d ∈ tasksBelow task, d.status = .failed failure) :
    ∃ d ∈ tasksBelow next, d.status = .failed failure := by
  obtain ⟨d, hd, hs⟩ := failed
  unfold tasksBelow at hd ⊢
  rw [info]
  split_ifs at hd ⊢
  · obtain ⟨e, he, reason, rfl⟩ := forall₂_mem_left h.elements hd
    exact ⟨_, he, Machine.status_abandon_of_failed hs reason⟩
  · obtain ⟨p, hp, rfl⟩ := List.mem_map.mp hd
    obtain ⟨q, hq, -, reason, hr⟩ := forall₂_mem_left h.children hp
    exact ⟨q.2, List.mem_map_of_mem hq, by rw [hr]; exact Machine.status_abandon_of_failed hs reason⟩

lemma Traced.abandon {m : Machine σ κ} {task : Task κ} (h : Traced m task) (reason : String) :
    Traced m (task.abandon reason) := by
  intro failure hf
  rcases Machine.status_of_abandon hf with hf | ⟨-, rfl⟩
  · exact (h failure hf).imp (fun b => b.congr (Task.info_abandon task reason) (by simp))
      ((GivenUpBelow.abandon task reason).exists_failed (Task.info_abandon task reason))
  · exact Or.inl (Or.inl (by rw [Task.info_abandon]; rfl))

lemma Traced.withPhase {m : Machine σ κ} {task : Task κ} (h : Traced m task) (phase : Phase κ) :
    Traced m (task.withPhase phase) := by
  intro failure hf
  rw [Task.status_withPhase] at hf
  rw [tasksBelow_withPhase]
  exact (h failure hf).imp_left fun b => b.congr (Task.info_withPhase task phase) (by simp)

namespace Machine

lemma everywhere_traced_ready {m : Machine σ κ} {task : Task κ} (h : task.Everywhere New)
    (params : Values) : (ready task params).Everywhere (Traced m) := by
  refine everywhere_ready (h.mono fun d hd => traced_of_undone hd.isDone) (traced_of_undone ?_)
  simpa [ready, Task.isDone] using h.here.isDone

section Kept

variable {m : Machine σ κ} {c : Circumstances σ} {world : σ} {supply : Option Supply}
  {task next : Task κ} (tools : m.FailsAs c fun failure => failure.task = none)
  (evaluator : m.evaluator.FailsAs fun failure => failure.task = none) (admitted : c.admits world)

include tools evaluator admitted

/-- What happens to a task leaves it traced. -/
lemma Change.traced (change : m.Change c world supply task next) (attached : Attached supply task)
    (sound : Sound m.document task) (checked : Checked m.document task.info.process)
    (h : task.Everywhere (Traced m)) : Traced m next := by
  intro failure hf
  have hinfo := change.outline.info
  have hblames {cause : Failure} (unnamed : cause.task = none) :
      Blames m next (cause.inTask task.info.id) :=
    Or.inl (by rw [hinfo]; exact Failure.task_inTask unnamed _)
  cases change.failsFor admitted attached sound.here.1 sound.here.2 checked hf with
  | refused _ _ _ recorded => exact Or.inl (recorded ▸ hblames rfl)
  | cancelled _ recorded => exact Or.inl (recorded ▸ hblames rfl)
  | own own => exact Or.inl (own.blames evaluator)
  | tool _ turn recorded => exact Or.inl (recorded ▸ hblames (turn _ tools))
  | below _ _ next_ unnamed found recorded =>
      subst next_ recorded
      rcases origin_of_failureBelow? found with ⟨d, hd, hs⟩ | rfl
      · -- The failure of a task below names a task, and keeps its name.
        obtain ⟨e, -, -, blames⟩ := exists_blamed (everywhere_tasksBelow h hd) hs
        rw [Failure.inTask_of_named blames.named]
        exact Or.inr ((ends_conclude_settleBelow _ task).below.exists_failed hinfo ⟨d, hd, hs⟩)
      · exact Or.inl (hblames unnamed)

/-- **Every move leaves all tasks traced.** -/
theorem Moves.traced (moves : m.Moves c world supply task next) (attached : Attached supply task)
    (sound : task.Everywhere fun d => (Wired m.document d ∧ Tidy d) ∧ Expanded m.document d)
    (h : task.Everywhere (Traced m)) : next.Everywhere (Traced m) := by
  refine Moves.everywhere (Q := fun d => (Wired m.document d ∧ Tidy d) ∧ Expanded m.document d)
    (fun hd hf => hd.1.1.attached hf) ?_ ?_ ?_ moves attached sound h
  · intro supply task next attached happens sound h
    refine happens.change.outline.everywhere attached sound.here.1.1.valid h
      (happens.change.traced tools evaluator admitted attached (sound.mono fun d hd => hd.1)
        sound.here.2.checked h)
      (fun d reason hd => hd.abandon reason) (fun d hd => hd.withPhase _) fun built own hb =>
        everywhere_traced_ready (hb.mono fun d hd => hd.2) own
  · intro task child next id sound _ hf below _
    have hundone := (sound.here.1.2.joining (sound.here.1.2.joining_of_moves.1 hf below)).1
    exact traced_of_undone (by simpa [Task.isDone] using hundone)
  · intro task element next place sound _ hf below _
    have hundone := (sound.here.1.2.joining (sound.here.1.2.joining_of_moves.2 hf below)).1
    exact traced_of_undone (by simpa [Task.isDone] using hundone)

end Kept

/-- In every tree of a run all tasks are traced. -/
lemma traced_of_runs {m : Machine σ κ} {c : Circumstances σ} {root tree : Task κ} {params : Values}
    (accepted : resolve m.document = .ok root) (run : m.Runs c (ready root params) tree)
    (tools : m.FailsAs c fun failure => failure.task = none)
    (evaluator : m.evaluator.FailsAs fun failure => failure.task = none) : tree.Everywhere (Traced m) := by
  refine Runs.keeps_within (P := fun task : Task κ => task.Everywhere (Traced m))
    (fun before admitted moves h => ?_) run
    (everywhere_traced_ready ((wired_of_resolve accepted).mono fun d hd => hd.2) params)
  exact moves.traced tools evaluator admitted (attached_none _)
    ((sound_of_runs accepted before).and (expanded_of_runs accepted before)) h

/-- **Blame.**  When the main task of an accepted document has come to its end and the run failed, some
task of the tree failed with the reported failure, and the reported id is its id; where the expressions
of its step failed, it is the id of the step.  This holds of every run, also of one that is cancelled or
in which work breaks off, as long as the failures of tools and of expressions name no task. -/
theorem blamed_task_failed {m : Machine σ κ} {c : Circumstances σ} {root tree : Task κ}
    {params : Values} (accepted : resolve m.document = .ok root)
    (run : m.Runs c (ready root params) tree)
    (tools : m.FailsAs c fun failure => failure.task = none)
    (evaluator : m.evaluator.FailsAs fun failure => failure.task = none) (returned : tree.phase = .returned)
    {failure : Failure} (reported : Engine.resultOf tree = .failed failure) :
    ∃ d ∈ tree.descendants, d.status = .failed failure ∧ Blames m d failure := by
  have hdone := ((sound_of_runs accepted run).here.2.returned returned).here.1
  exact exists_blamed (traced_of_runs accepted run tools evaluator) (status_of_resultOf hdone reported)

end Machine

/-! ## Nested workflows -/

/-- An expression without anything in it. -/
def emptyBlock : String := "$\x7b\x7d"

/-- What it fails with. -/
def emptyFailure : Failure := .eval .expressionEvaluator "empty expression"

/-- The evaluator of the engine, with this failure written out. -/
def nestedEvaluator : Binding.Evaluator := fun expression context =>
  if expression = emptyBlock then .error emptyFailure else Binding.evaluator evaluateJson expression context

lemma nestedEvaluator_eq : nestedEvaluator = Binding.evaluator evaluateJson := by
  funext expression context
  unfold nestedEvaluator
  split_ifs with h
  · have hempty : evaluate evaluateJson emptyBlock context = .error .empty := by cbv
    rw [h, Binding.evaluator, hempty]
    rfl
  · rfl

/-- A step of the inner workflow, with this expression. -/
def nestedStep : Step where
  id := "#inner/step"
  run := "#pass"
  inputs := [⟨"in", ["#inner/given"], some emptyBlock, none⟩]
  outputs := ["out"]
  scatter := []
  scatterMethod := none
  requirements := []
  hints := []

/-- The inner workflow. -/
def nestedInner : Process where
  id := "#inner"
  body := .workflow [nestedStep]
  inputs := [⟨"given", .any, none, none, [], false⟩]
  outputs := [⟨"out", .any, none, [], ["#inner/step/out"]⟩]
  requirements := []
  hints := []

/-- The step that runs the inner workflow. -/
def nestedCall : Step where
  id := "#main/call"
  run := "#inner"
  inputs := [⟨"given", ["#main/given"], none, none⟩]
  outputs := ["out"]
  scatter := []
  scatterMethod := none
  requirements := []
  hints := []

/-- A workflow with another one inside. -/
def nestedMain : Process where
  id := "#main"
  body := .workflow [nestedCall]
  inputs := relayMain.inputs
  outputs := [⟨"out", .any, none, [], ["#main/call/out"]⟩]
  requirements := []
  hints := []

/-- The machine of the relay for this workflow. -/
def nestedMachine : Machine Unit Unit := { relayMachine with
  document := ⟨"v1.2", [nestedMain, nestedInner, relayTool]⟩
  evaluator := nestedEvaluator }

/-- The task of the inner workflow before the run. -/
def nestedCallInfo : TaskInfo := childInfo (mainInfo nestedMain) nestedCall nestedInner

/-- The tree of the document. -/
def nestedRoot : Task Unit :=
  .node (mainInfo nestedMain) .fresh .idle
    [("#main/call", .node nestedCallInfo .fresh .idle
      [("#inner/step", .node (childInfo nestedCallInfo nestedStep relayTool) .fresh .idle [] [])]
      [])] []

/-- The tree with which the run ends. -/
def nestedLast : Task Unit :=
  let start := ready nestedRoot [("given", .bool true)]
  (start :: nestedMachine.walk [[], [.child "#main/call"],
    [.child "#main/call", .child "#inner/step"], [.child "#main/call"], []] start ()).getLast
      (List.cons_ne_nil _ _)

/-- The failure of the step's expression. -/
def nestedFailure : Failure := emptyFailure.inTask "#inner/step"

lemma nested_accepted : resolve nestedMachine.document = .ok nestedRoot := by
  with_unfolding_all rfl

lemma nested_runs : nestedMachine.Runs (.any Unit) (ready nestedRoot [("given", .bool true)])
    nestedLast :=
  Machine.runs_walk (fun _ => trivial) _ _ ()

lemma nested_returned : nestedLast.phase = .returned := by
  cbv

lemma nested_reports : Engine.resultOf nestedLast = .failed nestedFailure := by
  cbv

/-- **The blamed id need not be the id of a task**: all ids are paths from the main task on. -/
theorem nested_blames_no_task :
    nestedMachine.evaluator = Binding.evaluator evaluateJson ∧
      nestedMachine.Runs (.any Unit) (ready nestedRoot [("given", .bool true)]) nestedLast ∧
      nestedLast.phase = .returned ∧ Engine.resultOf nestedLast = .failed nestedFailure ∧
      nestedLast.descendants.map (fun d => d.info.id) =
        ["#main", "#main/call", "#main/call/step"] ∧
      nestedFailure.task = some "#inner/step" :=
  ⟨nestedEvaluator_eq, nested_runs, nested_returned, nested_reports, by cbv, rfl⟩

theorem nested_blames_step :
    ∃ d ∈ nestedLast.descendants, d.status = .failed nestedFailure ∧
      Blames nestedMachine d nestedFailure := by
  have tools : nestedMachine.FailsAs (.any Unit) fun failure => failure.task = none :=
    { start := by
        intro info params world failure _ h
        cases h
      resume := by
        intro info params tool world failure _ h
        cases h }
  have evaluator : nestedMachine.evaluator.FailsAs fun failure => failure.task = none := by
    have fresh := Binding.evaluator_failsAs_fresh evaluateJson
    rw [← nestedEvaluator_eq] at fresh
    exact fresh.imp fun _ h => h.2
  exact Machine.blamed_task_failed nested_accepted nested_runs tools evaluator nested_returned nested_reports

end WorkflowEngine.Scheduling
