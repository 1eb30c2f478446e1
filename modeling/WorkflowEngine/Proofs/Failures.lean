import WorkflowEngine.Proofs.Expansion
import WorkflowEngine.Proofs.Precedence
import WorkflowEngine.Proofs.Progress

/-!
# Failures

Where the failures of tasks come from.

**Failures of their own.**  The expressions and defaults of a process and the plan of a scattered step
fail by themselves (`OwnFailure`): the failure is no cancellation, and only the expressions of a step
have recorded a task for it.  Of expressions it only matters how their failures look
(`Binding.Evaluator.FailsAs`).

**Failures of other tasks.**  A task that awaits others only fails when one of them does
(`failureBelow?_of_joinResult`), and a task that is given up fails for that reason alone
(`status_of_abandon`).

**Failures, case by case.**  `FailsFor` lists why a task can fail when something happens to it
(`Change.failsFor`).
-/

namespace WorkflowEngine

namespace Failure

/-- The failure is no cancellation, and no task is recorded for it yet. -/
def IsFresh (failure : Failure) : Prop := failure.isCancelled = false ∧ failure.task = none

/-- A failure that names a task keeps its name. -/
lemma inTask_of_named {failure : Failure} (named : failure.task.isSome = true) (id : String) :
    failure.inTask id = failure := by
  obtain ⟨task, h⟩ := Option.isSome_iff_exists.mp named
  rw [inTask, h, Option.some_or, ← h]

lemma task_inTask {failure : Failure} (unnamed : failure.task = none) (id : String) :
    (failure.inTask id).task = some id := by
  rw [inTask, unnamed, Option.none_or]

lemma isSome_inTask (failure : Failure) (id : String) : (failure.inTask id).task.isSome = true := by
  rw [inTask]
  cases failure.task <;> rfl

end Failure

/-! ## Failures of their own -/

namespace Binding

/-- Every failure of an evaluator has some property. -/
def Evaluator.FailsAs (eval : Evaluator) (P : Failure → Prop) : Prop :=
  ∀ expression context failure, eval expression context = .error failure → P failure

lemma Evaluator.FailsAs.imp {eval : Evaluator} {P Q : Failure → Prop} (h : eval.FailsAs P)
    (himp : ∀ failure, P failure → Q failure) : eval.FailsAs Q :=
  fun expression context failure hfailed => himp failure (h expression context failure hfailed)

/-- **Whatever interprets expressions**, their failures are no cancellations and name no task. -/
theorem evaluator_failsAs_fresh (interpreter : Interpreter) : (evaluator interpreter).FailsAs Failure.IsFresh := by
  intro expression context failure h
  unfold evaluator ExprFault.orFail at h
  split at h
  · cases h
  · obtain rfl := Except.error.inj h
    exact ⟨rfl, rfl⟩

/-- The expression of a step fails with a failure for which the step is recorded. -/
lemma exists_of_stepValues {eval : Evaluator} {P : Failure → Prop} (fails : eval.FailsAs P)
    {step : Document.Step} {params : Values} {library : List String} {failure : Failure}
    (h : stepValues eval step params library = .error failure) :
    ∃ cause : Failure, P cause ∧ failure = cause.inTask step.id := by
  obtain ⟨input, -, before, h⟩ := foldlM_eq_error h
  unfold storeStepValue stepValue? at h
  cases hv : input.valueFrom with
  | none => simp [hv] at h
  | some expression =>
      simp only [hv, Option.map_some, map_eq_error_iff] at h
      cases hvalue : eval expression _ with
      | ok value =>
          rw [hvalue] at h
          cases h
      | error cause =>
          rw [hvalue] at h
          exact ⟨cause, fails expression _ cause hvalue, (Except.error.inj h).symm⟩

lemma isFresh_of_fillDefaults {process : Document.Process} {params : Values} {failure : Failure}
    (h : fillDefaults process params = .error failure) : failure.IsFresh := by
  obtain ⟨input, -, before, h⟩ := foldlM_eq_error h
  rcases bind_eq_error.mp h with hd | ⟨_, -, h⟩
  · have hfallback (h : defaulted.fallback input = .error failure) : failure.IsFresh := by
      unfold defaulted.fallback at h
      split at h
      · cases h
      · split_ifs at h
        obtain rfl := Except.error.inj h
        exact ⟨rfl, rfl⟩
    unfold defaulted at hd
    split at hd
    · split_ifs at hd
      exact hfallback hd
    · exact hfallback hd
  · cases h

end Binding

namespace Scheduling

open Document (Step)

variable {σ κ : Type}

lemma Task.isDone_of_failed {task : Task κ} {failure : Failure} (h : task.status = .failed failure) :
    task.isDone = true := by
  rw [Task.isDone, h]
  rfl

/-- A task that has not ended has no failure. -/
lemma Task.not_failed {task : Task κ} (undone : task.isDone = false) (failure : Failure) :
    task.status ≠ .failed failure := by
  intro h
  simp [Task.isDone_of_failed h] at undone

lemma isFresh_of_combinations {step : Step} {params : Values} {failure : Failure}
    (h : combinations step params = .error failure) : failure.IsFresh := by
  have hmisuse {α : Type} {message : String} (h : (misuse message : Outcome α) = .error failure) :
      failure.IsFresh := by
    obtain rfl := Except.error.inj h
    exact ⟨rfl, rfl⟩
  rcases bind_eq_error.mp h with hc | ⟨combining, -, h⟩
  · unfold combiningOf at hc
    split at hc <;> first
      | exact hmisuse hc
      | cases hc
    exact ⟨rfl, rfl⟩
  rcases bind_eq_error.mp h with ha | ⟨arrays, -, h⟩
  · obtain ⟨name, -, ha⟩ := mapM_eq_error ha
    unfold arrayOf at ha
    split at ha
    · cases ha
    · exact hmisuse ha
  · cases combining with
    | product => cases h
    | pairwise =>
        dsimp only at h
        unfold pairwise at h
        split at h
        · cases h
        · split at h
          · exact hmisuse h
          · cases h

/-- The task failed by itself: its runs could not be planned, the expressions of its step failed, or an
input had neither a value nor a default. -/
def OwnFailure (m : Machine σ κ) (task : Task κ) (failure : Failure) : Prop :=
  ∃ cause : Failure, failure = cause.inTask task.info.id ∧
    ((∃ step, task.info.isScatter = true ∧ task.info.step = some step ∧
        combinations step task.state.parameters = .error cause) ∨
      (task.info.isScatter = false ∧ m.ownParameters task = .error cause) ∨
      (task.info.isScatter = false ∧
        Binding.fillDefaults task.info.process task.state.parameters = .error cause))

lemma OwnFailure.congr {m : Machine σ κ} {task next : Task κ} {failure : Failure}
    (h : OwnFailure m task failure) (info : next.info = task.info)
    (params : next.state.parameters = task.state.parameters) : OwnFailure m next failure := by
  unfold OwnFailure Machine.ownParameters at h ⊢
  rwa [info, params]

/-- The expressions of a task's step fail with a failure for which the step is recorded. -/
lemma exists_of_ownParameters {m : Machine σ κ} {P : Failure → Prop} (evaluator : m.evaluator.FailsAs P)
    {task : Task κ} {failure : Failure} (h : m.ownParameters task = .error failure) :
    ∃ (step : Step) (cause : Failure), task.info.step = some step ∧ P cause ∧
      failure = cause.inTask step.id := by
  unfold Machine.ownParameters at h
  split at h
  · cases h
  · next step hstep =>
      obtain ⟨cause, known, hcause⟩ := Binding.exists_of_stepValues evaluator h
      exact ⟨step, cause, hstep, known, hcause⟩

/-- **A failure of its own is no cancellation.** -/
theorem OwnFailure.isCancelled {m : Machine σ κ}
    (evaluator : m.evaluator.FailsAs fun failure => failure.isCancelled = false)
    {task : Task κ} {failure : Failure} (h : OwnFailure m task failure) :
    failure.isCancelled = false := by
  obtain ⟨cause, rfl, ⟨step, -, -, hplan⟩ | ⟨-, hown⟩ | ⟨-, hfilled⟩⟩ := h
  · exact (isFresh_of_combinations hplan).1
  · obtain ⟨step, first, -, genuine, rfl⟩ := exists_of_ownParameters evaluator hown
    exact genuine
  · exact (Binding.isFresh_of_fillDefaults hfilled).1

namespace Machine

/-- Every failure with which a turn of a tool ends has some property. -/
structure FailsAs (m : Machine σ κ) (c : Circumstances σ) (P : Failure → Prop) : Prop where
  start : ∀ {info params world failure}, c.admits world →
    (m.behavior.start info params world).1.next = .done (.error failure) → P failure
  resume : ∀ {info params tool world failure}, c.admits world →
    (m.behavior.resume info params tool world).1.next = .done (.error failure) → P failure

/-! ## Failures of other tasks -/

/-- The tasks that a task awaits: the runs of a scattered step, else its steps. -/
def tasksBelow (task : Task κ) : List (Task κ) :=
  if task.info.isScatter then task.elements else task.children.values

lemma mem_tasksBelow {task d : Task κ} (h : d ∈ tasksBelow task) :
    (∃ p ∈ task.children, p.2 = d) ∨ d ∈ task.elements := by
  unfold tasksBelow at h
  split_ifs at h
  · exact Or.inr h
  · exact Or.inl (List.mem_map.mp h)

/-- What holds everywhere below a task holds below the tasks that it awaits. -/
lemma everywhere_tasksBelow {P : Task κ → Prop} {task d : Task κ} (h : task.Everywhere P)
    (hd : d ∈ tasksBelow task) : d.Everywhere P := by
  rcases mem_tasksBelow hd with ⟨p, hp, rfl⟩ | he
  · exact h.child hp
  · exact h.element he

lemma tasksBelow_withPhase (task : Task κ) (phase : Phase κ) :
    tasksBelow (task.withPhase phase) = tasksBelow task := by
  rw [tasksBelow, tasksBelow, Task.info_withPhase, Task.elements_withPhase, Task.children_withPhase]

/-- A task that is given up keeps its failure, or has not ended before. -/
lemma status_of_abandon {task : Task κ} {reason : String} {failure : Failure}
    (h : (task.abandon reason).status = .failed failure) : task.status = .failed failure ∨
      (task.isDone = false ∧ failure = (Task.givenUp reason).inTask task.info.id) := by
  rw [Task.status, Task.state_abandon] at h
  cases hfinal : task.state.status.isFinal with
  | true =>
      rw [TaskState.finish_eq_self hfinal] at h
      exact Or.inl h
  | false =>
      rw [TaskState.status_finish_error hfinal] at h
      exact Or.inr ⟨hfinal, (Status.failed.inj h).symm⟩

lemma status_abandon_of_failed {task : Task κ} {failure : Failure} (h : task.status = .failed failure)
    (reason : String) : (task.abandon reason).status = .failed failure := by
  rw [Task.status, Task.state_abandon, TaskState.finish_eq_self (Task.isDone_of_failed h)]
  exact h

/-- A run whose main task has ended reports the failure of this task. -/
lemma status_of_resultOf {task : Task κ} (done : task.isDone = true) {failure : Failure}
    (h : Engine.resultOf task = .failed failure) : task.status = .failed failure := by
  unfold Engine.resultOf at h
  rw [Task.isDone] at done
  cases hs : task.status with
  | succeeded => simp [hs] at h
  | failed own =>
      rw [hs] at h
      exact congrArg Status.failed (RunResult.failed.inj h)
  | pending => simp [hs, Status.isFinal] at done
  | running => simp [hs, Status.isFinal] at done

/-- A workflow or a scattered step fails with the failure of a task below it, or for want of one. -/
lemma origin_of_failureBelow? {tasks : List (Task κ)} {unfinished failure : Failure}
    (h : failureBelow? tasks unfinished = some failure) :
    (∃ d ∈ tasks, d.status = .failed failure) ∨ failure = unfinished := by
  unfold failureBelow? at h
  rcases Option.or_eq_some_iff.mp h with h | ⟨-, h⟩
  · obtain ⟨d, hd, hown⟩ := List.exists_of_findSome?_eq_some h
    obtain ⟨hf, -⟩ := Option.filter_eq_some_iff.mp hown
    refine Or.inl ⟨d, hd, ?_⟩
    cases hs : d.status <;> simp_all [Status.failure?]
  · obtain ⟨d, hd, hfound⟩ := List.exists_of_findSome?_eq_some h
    cases hs : d.status with
    | succeeded => simp [hs] at hfound
    | failed own =>
        obtain rfl : own = failure := by simpa [hs] using hfound
        exact Or.inl ⟨d, hd, hs⟩
    | pending => exact Or.inr (by simpa [hs] using hfound.symm)
    | running => exact Or.inr (by simpa [hs] using hfound.symm)

/-- **The outputs of a workflow whose steps have succeeded can be gathered**, also in a run that is
cancelled. -/
theorem gatherOutputs_ne_error {document : Document} {cancelled : Bool} {task : Task κ}
    (wired : Wired document task) (plain : task.info.isScatter = false)
    (succeeded : ∀ p ∈ task.children, p.2.status = .succeeded) {failure : Failure} :
    (gatherOutputs (.ofTask cancelled task) task.info.process).run ≠ some (.error failure) := by
  intro h
  obtain ⟨output, -, hg⟩ := awaited_collect_eq_error h
  obtain ⟨source, -, hv⟩ := exists_value_of_gather hg
  cases hp : (outputSteps task.info.process).find? source with
  | none =>
      rw [value_of_input hp] at hv
      simp at hv
  | some producer =>
      obtain ⟨child, hc⟩ := Option.isSome_iff_exists.mp (wired.isSome_producer plain hp)
      rw [value_of_producer hp hc, produced, succeeded _ (OrderedMap.mem_of_find? hc)] at hv
      simp at hv

/-- **A task that awaits others only fails when one of them does**: once all have succeeded the outputs
are there. -/
theorem failureBelow?_of_joinResult {document : Document} {cancelled : Bool} {task : Task κ}
    (wired : Wired document task) {failure : Failure}
    (h : joinResult cancelled task = some (.error failure)) :
    ∃ unfinished : Failure, unfinished.task = none ∧
      failureBelow? (tasksBelow task) unfinished = some failure := by
  unfold joinResult at h
  unfold tasksBelow
  split_ifs at h ⊢ with hscatter
  · unfold scatterResult at h
    split at h
    · next found hf =>
        obtain rfl := Except.error.inj (Option.some.inj h)
        exact ⟨_, rfl, hf⟩
    · cases h
  · unfold workflowResult at h
    split at h
    · next found hf =>
        obtain rfl := Except.error.inj (Option.some.inj h)
        exact ⟨_, rfl, hf⟩
    · next hnone =>
        have hplain : task.info.isScatter = false := by simpa using hscatter
        have hsucceeded (p : String × Task κ) (hp : p ∈ task.children) : p.2.status = .succeeded :=
          failureBelow?_eq_none hnone _ (List.mem_map_of_mem hp)
        have hchildren := children_settleBelow hplain fun p hp => by
          rw [Task.isDone, hsucceeded p hp]
          rfl
        have hinfo := info_settleBelow task
        have hwired : Wired document (settleBelow task) :=
          wired.congr hinfo (by rw [infosBelow, hchildren, infosBelow])
        rw [← hinfo] at h
        exact absurd h (gatherOutputs_ne_error hwired (hinfo ▸ hplain) (hchildren ▸ hsucceeded))

/-! ## Failures, case by case -/

section Cases

variable {m : Machine σ κ} {c : Circumstances σ} {world : σ} {supply : Option Supply}
  {task next : Task κ} {failure : Failure}

/-- A task fails with the result that it ends with. -/
lemma failed_of_conclude {result : Outcome Values} (undone : task.isDone = false)
    (h : (conclude result task).status = .failed failure) :
    ∃ cause, result = .error cause ∧ failure = cause.inTask task.info.id := by
  cases result with
  | ok outputs =>
      rw [status_conclude_ok undone] at h
      cases h
  | error cause =>
      rw [status_conclude_error undone] at h
      exact ⟨cause, rfl, (Status.failed.inj h).symm⟩

lemma failed_of_takeTurn {turn : Turn κ} (undone : task.isDone = false)
    (h : (takeTurn turn task).status = .failed failure) :
    ∃ cause, turn.next = .done (.error cause) ∧ failure = cause.inTask task.info.id := by
  have hundone : (afterTurn turn task).isDone = false := by
    rwa [Task.isDone, status_afterTurn]
  cases hnext : turn.next with
  | wait tool =>
      rw [takeTurn_wait hnext, Task.status_withPhase] at h
      exact absurd h (Task.not_failed hundone failure)
  | done result =>
      rw [takeTurn_done hnext] at h
      obtain ⟨cause, rfl, hfailure⟩ := failed_of_conclude hundone h
      exact ⟨cause, rfl, by rwa [info_afterTurn] at hfailure⟩

/-- Why a task fails at its start. -/
lemma Begun.failsFor (begun : m.Begun world task next)
    (checked : Checked m.document task.info.process) (undone : task.isDone = false)
    (h : next.status = .failed failure) :
    (m.behavior.cancelled world = true ∧ failure = Supply.runCancelled.inTask task.info.id) ∨
      OwnFailure m next failure ∨
      (task.info.isTool = true ∧ ∃ params cause,
        (m.behavior.start task.info params world).1.next = .done (.error cause) ∧
          failure = cause.inTask task.info.id) := by
  have hup : (takeUp task).isDone = false := by rwa [Task.isDone, isFinal_takeUp]
  have hset (params : Values) : ((takeUp task).setParameters params).isDone = false := by
    rwa [Task.isDone, Task.status_setParameters]
  cases begun with
  | cancelled hcancelled =>
      obtain ⟨cause, hcause, rfl⟩ := failed_of_conclude hup h
      obtain rfl := Except.error.inj hcause
      exact Or.inl ⟨hcancelled, by rw [info_takeUp]⟩
  | unscattered _ scatter planned =>
      obtain ⟨cause, hcause, rfl⟩ := failed_of_conclude hup h
      obtain rfl := Except.error.inj hcause
      obtain ⟨step, hstep⟩ : ∃ step, task.info.step = some step := by
        rw [← Option.isSome_iff_exists]
        unfold TaskInfo.isScatter at scatter
        cases hs : task.info.step <;> simp_all
      have hplan := elementsOf_eq_error checked hstep planned
      exact Or.inr (Or.inl ⟨_, by rw [info_conclude],
        Or.inl ⟨step, by simpa using scatter, by simpa using hstep, by simpa using hplan⟩⟩)
  | unevaluated _ plain own =>
      obtain ⟨cause, hcause, rfl⟩ := failed_of_conclude hup h
      obtain rfl := Except.error.inj hcause
      refine Or.inr (Or.inl ⟨_, by rw [info_conclude], Or.inr (Or.inl ⟨by simpa using plain, ?_⟩)⟩)
      unfold ownParameters at own ⊢
      simpa using own
  | incomplete _ plain _ _ filled =>
      obtain ⟨cause, hcause, rfl⟩ := failed_of_conclude (hset _) h
      obtain rfl := Except.error.inj hcause
      exact Or.inr (Or.inl ⟨_, by rw [info_conclude],
        Or.inr (Or.inr ⟨by simpa using plain, by simpa using filled⟩)⟩)
  | scattered _ _ _ =>
      rw [Task.record_eq_withEvents, Task.status_withPhase, Task.status_withEvents,
        Task.status_withElements] at h
      exact absurd h (Task.not_failed hup failure)
  | opened _ _ _ _ _ =>
      rw [Task.status_withPhase, Task.status_withChildren, Task.status_setParameters] at h
      exact absurd h (Task.not_failed hup failure)
  | @turned params _ plain _ tool =>
      obtain ⟨cause, hnext, rfl⟩ := failed_of_takeTurn (hset _) h
      exact Or.inr (Or.inr ⟨by simp [TaskInfo.isTool, plain, tool], params, cause, hnext, by simp⟩)

/-- Why a task fails when something happens to it. -/
inductive FailsFor (m : Machine σ κ) (c : Circumstances σ) (world : σ) (supply : Option Supply)
    (task next : Task κ) (failure : Failure) : Prop
  /-- The task is a step with a source that failed. -/
  | refused {cause : Failure} (waiting : task.phase = .waiting) (refuses : Refuses supply task cause)
      (next_ : next = refuse cause task)
      (recorded : failure = (Task.givenUp cause.message).inTask task.info.id)
  /-- The run is cancelled. -/
  | cancelled (cancelled : m.behavior.cancelled world = true)
      (recorded : failure = Supply.runCancelled.inTask task.info.id)
  /-- The task fails by itself. -/
  | own (own : OwnFailure m next failure)
  /-- A turn of its tool ends with a failure. -/
  | tool {cause : Failure} (tool : task.info.isTool = true ∨ ∃ tool, task.phase = .working tool)
      (turn : ∀ P, m.FailsAs c P → P cause) (recorded : failure = cause.inTask task.info.id)
  /-- A task below it has failed. -/
  | below {cause unfinished : Failure} (joining : task.phase = .joining) (rested : BelowOver task)
      (next_ : next = conclude (.error cause) (settleBelow task))
      (unnamed : unfinished.task = none)
      (found : failureBelow? (tasksBelow task) unfinished = some cause)
      (recorded : failure = cause.inTask task.info.id)

/-- **Why a task fails**, case by case. -/
theorem Change.failsFor (change : m.Change c world supply task next) (admitted : c.admits world)
    (attached : Attached supply task) (wired : Wired m.document task) (tidy : Tidy task)
    (checked : Checked m.document task.info.process) (h : next.status = .failed failure) :
    m.FailsFor c world supply task next failure := by
  have hundone := tidy.isDone change
  have hsettled : (settleBelow task).isDone = false := by
    rw [settleBelow]
    split_ifs <;> simpa [Task.isDone] using hundone
  cases change with
  | stray _ hs none => exact absurd none (attached.isStep (by simp [hs]))
  | refused waiting refuses =>
      rw [status_refuse (isCancelled_of_refuses refuses attached) hundone] at h
      exact .refused waiting refuses rfl (Status.failed.inj h).symm
  | @begun params waiting fed =>
      have hset : (task.setParameters params).isDone = false := by
        rwa [Task.isDone, Task.status_setParameters]
      have hb := (begun_begin m (task.setParameters params) world).failsFor (by simpa using checked)
        hset h
      rw [Task.info_setParameters] at hb
      rcases hb with ⟨hcancelled, hf⟩ | own | ⟨tool, params, cause, hnext, hf⟩
      · exact .cancelled hcancelled hf
      · exact .own own
      · exact .tool (Or.inl tool) (fun P tools => tools.start admitted hnext) hf
  | turned working =>
      obtain ⟨cause, hnext, hf⟩ := failed_of_takeTurn hundone h
      exact .tool (Or.inr ⟨_, working⟩) (fun P tools => tools.resume admitted hnext) hf
  | joined joining rested joined =>
      obtain ⟨cause, rfl, hf⟩ := failed_of_conclude hsettled h
      obtain ⟨unfinished, hunnamed, hfound⟩ := failureBelow?_of_joinResult wired joined
      exact .below joining rested rfl hunnamed hfound (by rwa [info_settleBelow] at hf)
  | woken _ _ cancelled =>
      obtain ⟨cause, hcause, hf⟩ := failed_of_conclude hundone h
      obtain rfl := Except.error.inj hcause
      exact .cancelled cancelled hf
  | brokenStart _ _ _ _ =>
      rw [Task.status_withPhase] at h
      exact absurd h (Task.not_failed (by simpa [Task.isDone] using hundone) failure)
  | brokenWork _ _ =>
      rw [Task.status_withPhase] at h
      exact absurd h (Task.not_failed hundone failure)

end Cases

end Machine

end Scheduling

end WorkflowEngine
