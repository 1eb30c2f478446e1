import WorkflowEngine.Proofs.Expansion
import WorkflowEngine.Proofs.Plans
import WorkflowEngine.Proofs.Publication

/-!
# The runs of a scattered step

A run of a scattered step is given its entry of the step's plan.  The expressions of the step are applied
to this entry once the run starts, and what comes of them is what its process works with.

**Ends.**  `EndedWith` says which result a task has ended with.  A task has outputs only once it has
succeeded (`silent_of_runs`), so one that fails has none (`endedWith_conclude`).

**Runs.**  `Performs` says how far a process can have come with some values, whether it is a tool or a
workflow, and `Undertakes` how far a run of a scattered step can have come with its entry.

**Moves.**  Whatever happens to a run or below it, in whatever order, it goes on with the same entry:
`Moves.undertakes`.
-/

namespace WorkflowEngine.Scheduling

open Document (Step)

variable {σ κ : Type} {task next : Task κ}

/-! ## Ends -/

/-- A task has ended with a result. -/
def EndedWith (task : Task κ) : Outcome Values → Prop
  | .ok outputs => task.status = .succeeded ∧ task.state.outputs = outputs
  | .error failure =>
    task.status = .failed (failure.inTask task.info.id) ∧ task.state.outputs = []

lemma EndedWith.isDone {result : Outcome Values} (h : EndedWith task result) : task.isDone = true := by
  cases result with
  | ok outputs => rw [Task.isDone, h.1]; rfl
  | error failure => rw [Task.isDone, h.1]; rfl

lemma EndedWith.congr {result : Outcome Values} (h : EndedWith task result) (info : next.info = task.info)
    (state : next.state = task.state) : EndedWith next result := by
  have hstatus : next.status = task.status := congrArg TaskState.status state
  cases result with
  | ok outputs => exact ⟨hstatus.trans h.1, state ▸ h.2⟩
  | error failure => exact ⟨by rw [hstatus, info, h.1], state ▸ h.2⟩

/-- A task that has not succeeded has no outputs. -/
def Silent (task : Task κ) : Prop := task.status ≠ .succeeded → task.state.outputs = []

/-- A task has not ended, and has no outputs. -/
structure Unended (task : Task κ) : Prop where
  undone : task.isDone = false
  empty : task.state.outputs = []

lemma EndedWith.silent {result : Outcome Values} (h : EndedWith task result) : Silent task := by
  cases result with
  | ok outputs => exact fun open_ => absurd h.1 open_
  | error failure => exact fun _ => h.2

lemma Unended.silent (h : Unended task) : Silent task := fun _ => h.empty

lemma Silent.unended (h : Silent task) (undone : task.isDone = false) : Unended task :=
  ⟨undone, h fun succeeded => by simp [Task.isDone, succeeded, Status.isFinal] at undone⟩

lemma Unended.congr (h : Unended task) (same : next.facts = task.facts) : Unended next := by
  have hstatus : next.status = task.status := congrArg Task.Facts.status same
  have houtputs : next.state.outputs = task.state.outputs := congrArg Task.Facts.outputs same
  exact ⟨by rw [Task.isDone, hstatus]; exact h.undone, houtputs.trans h.empty⟩

lemma Unended.setParameters (h : Unended task) (params : Values) :
    Unended (task.setParameters params) := by
  cases task
  exact ⟨h.undone, h.empty⟩

lemma TaskState.outputs_finish_error (state : TaskState) (id : String) (failure : Failure) :
    (state.finish id (.error failure)).outputs = state.outputs := by
  unfold TaskState.finish
  split_ifs <;> rfl

lemma outputs_abandon (task : Task κ) (reason : String) :
    (task.abandon reason).state.outputs = task.state.outputs := by
  rw [Task.state_abandon, TaskState.outputs_finish_error]

lemma state_abandon_of_isDone (done : task.isDone = true) (reason : String) :
    (task.abandon reason).state = task.state := by
  rw [Task.state_abandon, TaskState.finish_eq_self done]

/-- Giving a task up is no success. -/
lemma status_abandon_eq_succeeded {reason : String} :
    (task.abandon reason).status = .succeeded ↔ task.status = .succeeded := by
  constructor
  · intro h
    cases hdone : task.isDone with
    | true => rwa [Task.status, state_abandon_of_isDone hdone] at h
    | false =>
        rw [Task.status, Task.state_abandon, TaskState.status_finish_error hdone] at h
        cases h
  · intro h
    have hdone : task.isDone = true := by rw [Task.isDone, h]; rfl
    rwa [Task.status, state_abandon_of_isDone hdone]

lemma Silent.abandon (h : Silent task) (reason : String) : Silent (task.abandon reason) := by
  intro open_
  rw [outputs_abandon]
  exact h fun succeeded => open_ (status_abandon_eq_succeeded.mpr succeeded)

lemma Silent.congr (h : Silent task) (state : next.state = task.state) : Silent next := by
  rw [Silent, Task.status, state]
  exact h

lemma silent_of_new (h : New task) : Silent task := by
  simp [Silent, h.state, TaskState.fresh]

namespace Machine

variable {m : Machine σ κ} {c : Circumstances σ} {world : σ}

lemma unended_takeUp (h : Unended task) : Unended (takeUp task) := by
  refine ⟨by simpa [Task.isDone] using h.undone, Eq.trans ?_ h.empty⟩
  obtain ⟨info, ⟨status, parameters, outputs, events⟩, phase, children, elements⟩ := task
  cases status <;> rfl

lemma unended_afterTurn (h : Unended task) (turn : Turn κ) : Unended (afterTurn turn task) :=
  (h.setParameters turn.parameters).congr (Task.facts_withEvents _ _)

/-- **How a task ends that has not ended before.** -/
theorem endedWith_conclude (h : Unended task) (result : Outcome Values) :
    EndedWith (conclude result task) result := by
  have houtputs : (conclude result task).state.outputs = (task.finish result).state.outputs :=
    congrArg Task.Facts.outputs (facts_conclude result task)
  rw [Task.finish, Task.state_mapState] at houtputs
  cases result with
  | ok outputs =>
      refine ⟨status_conclude_ok h.undone outputs, houtputs.trans ?_⟩
      rw [TaskState.finish, if_neg (by simpa [Task.isDone, Task.status] using h.undone)]
  | error failure =>
      refine ⟨?_, houtputs.trans ((TaskState.outputs_finish_error _ _ _).trans h.empty)⟩
      rw [info_conclude]
      exact status_conclude_error h.undone failure

lemma outputs_refuse (failure : Failure) (task : Task κ) :
    (refuse failure task).state.outputs = task.state.outputs := by
  have hrecorded : (task.record .warning failure.message).state.outputs = task.state.outputs := by
    cases task; rfl
  rw [refuse]
  split_ifs
  · rw [Task.state_withPhase, outputs_abandon, hrecorded]
  · rw [Task.state_withPhase, outputs_abandon, Task.finish, Task.state_mapState,
      TaskState.outputs_finish_error, hrecorded]

lemma silent_takeTurn (h : Unended task) (turn : Turn κ) : Silent (takeTurn turn task) := by
  cases hnext : turn.next with
  | wait tool =>
      rw [takeTurn_wait hnext]
      exact ((unended_afterTurn h turn).congr (Task.facts_withPhase _ _)).silent
  | done result =>
      rw [takeTurn_done hnext]
      exact (endedWith_conclude (unended_afterTurn h turn) result).silent

lemma Begun.silent (begun : m.Begun world task next) (h : Unended task) : Silent next := by
  have hup : Unended (takeUp task) := unended_takeUp h
  cases begun with
  | cancelled _ => exact (endedWith_conclude hup _).silent
  | unscattered _ _ _ => exact (endedWith_conclude hup _).silent
  | unevaluated _ _ _ => exact (endedWith_conclude hup _).silent
  | incomplete _ _ _ _ _ => exact (endedWith_conclude (hup.setParameters _) _).silent
  | scattered _ _ _ =>
      refine (hup.congr ?_).silent
      rw [Task.facts_withPhase, Task.record_eq_withEvents, Task.facts_withEvents, Task.facts_withElements]
  | @opened _ values _ _ _ _ _ =>
      refine ((hup.setParameters values).congr ?_).silent
      rw [Task.facts_withPhase, Task.facts_withChildren]
  | turned _ _ _ _ => exact silent_takeTurn (hup.setParameters _) _

/-- Whatever happens to a task, it has no outputs until it has succeeded. -/
lemma Change.silent {supply : Option Supply} (change : m.Change c world supply task next)
    (h : Unended task) : Silent next := by
  cases change with
  | stray _ _ _ =>
      refine fun _ => Eq.trans ?_ h.empty
      rw [Task.state_withPhase, Task.finish, Task.state_mapState, TaskState.outputs_finish_error]
  | refused _ _ => exact fun _ => (outputs_refuse _ _).trans h.empty
  | begun _ _ => exact (begun_begin m _ world).silent (h.setParameters _)
  | turned _ => exact silent_takeTurn h _
  | joined _ _ _ => exact (endedWith_conclude (h.congr (facts_settleBelow task)) _).silent
  | woken _ _ _ => exact (endedWith_conclude h _).silent
  | @brokenStart params _ _ _ _ =>
      exact ((unended_takeUp (h.setParameters params)).congr (Task.facts_withPhase _ _)).silent
  | brokenWork _ _ => exact (h.congr (Task.facts_withPhase _ _)).silent

lemma everywhere_silent_ready (h : task.Everywhere New) (params : Values) :
    (ready task params).Everywhere Silent := by
  refine everywhere_ready (h.mono fun _ hd => silent_of_new hd) fun _ => ?_
  rw [ready, Task.setParameters, Task.state_withPhase, Task.state_mapState, h.here.state]
  rfl

lemma Moves.silent {supply : Option Supply} (moves : m.Moves c world supply task next)
    (attached : Attached supply task) (sound : Sound m.document task) (h : task.Everywhere Silent) :
    next.Everywhere Silent := by
  refine Moves.everywhere (Q := fun d => Wired m.document d ∧ Tidy d)
    (fun hd hf => hd.1.attached hf) ?_ ?_ ?_ moves attached sound h
  · intro supply task next attached happens sound h
    have change := happens.change
    refine change.outline.everywhere attached sound.here.1.valid h
      (change.silent (h.here.unended (sound.here.2.isDone change)))
      (fun _ reason hd => hd.abandon reason) (fun _ hd => hd.congr (Task.state_withPhase _ _))
      fun built own hb => ?_
    exact everywhere_silent_ready (hb.mono fun d hd => hd.2) own
  · intro task child next id _ h _ _ _
    exact h.here.congr (Task.state_withChildren _ _)
  · intro task element next place _ h _ _ _
    exact h.here.congr (Task.state_withElements _ _)

/-- **In every tree of a run what has not succeeded has no outputs.** -/
theorem silent_of_runs {root tree : Task κ} {params : Values} (accepted : resolve m.document = .ok root)
    (run : m.Runs c (ready root params) tree) : tree.Everywhere Silent :=
  Runs.keeps_within (fun before _ moves h =>
      moves.silent (attached_none _) (sound_of_runs accepted before) h) run
    (everywhere_silent_ready ((wired_of_resolve accepted).mono fun _ hd => hd.2) params)

/-! ## Runs -/

/-- The turns of a tool that was started with some parameters, up to the one with which it answers, and
the parameters that it shows then. -/
inductive Answering (m : Machine σ κ) (c : Circumstances σ) (info : TaskInfo) (params : Values) :
    Values → Outcome Values → Prop
  | start {world : σ} {result : Outcome Values} (admitted : c.admits world)
      (answers : (m.behavior.start info params world).1.next = .done result) :
      Answering m c info params (m.behavior.start info params world).1.parameters result
  | resume {world : σ} {tool : κ} {shown : Values} {result : Outcome Values}
      (before : m.Serving c info params tool shown) (admitted : c.admits world)
      (answers : (m.behavior.resume info shown tool world).1.next = .done result) :
      Answering m c info params (m.behavior.resume info shown tool world).1.parameters result

/-- How far the process of a task can have come with some values. -/
inductive Performs (m : Machine σ κ) (c : Circumstances σ) (own : Values) (task : Task κ) : Prop
  | incomplete {failure : Failure} (phase : task.phase = .returned)
      (workflow : task.info.process.isWorkflow = true)
      (filled : Binding.fillDefaults task.info.process own = .error failure)
      (ended : EndedWith task (.error failure))
  | opened {values : Values} (phase : task.phase = .joining ∨ task.phase = .returned)
      (workflow : task.info.process.isWorkflow = true)
      (filled : Binding.fillDefaults task.info.process own = .ok values)
      (parameters : task.state.parameters = values)
  | working {tool : κ} (phase : task.phase = .working tool)
      (isTool : task.info.process.isWorkflow = false)
      (serving : m.Serving c task.info own tool task.state.parameters)
  | broken {tool : κ} (phase : task.phase = .aborted)
      (isTool : task.info.process.isWorkflow = false)
      (serving : m.Serving c task.info own tool task.state.parameters)
  | answered {result : Outcome Values} (phase : task.phase = .returned)
      (isTool : task.info.process.isWorkflow = false)
      (answering : m.Answering c task.info own task.state.parameters result)
      (ended : EndedWith task result)

/-- How far a run of a scattered step can have come with its entry of the plan.  The expressions of the
step are applied to the entry, and the process works with what comes of them. -/
inductive Undertakes (m : Machine σ κ) (c : Circumstances σ) (step : Step) (entry : Values)
    (task : Task κ) : Prop
  | waiting (phase : task.phase = .waiting) (parameters : task.state.parameters = entry)
  | cancelled (phase : task.phase = .returned) (parameters : task.state.parameters = entry)
      (ended : EndedWith task (.error Supply.runCancelled))
  | broken (phase : task.phase = .aborted) (parameters : task.state.parameters = entry)
  | unevaluated {failure : Failure} (phase : task.phase = .returned)
      (evaluated : Binding.stepValues m.evaluator step entry task.info.library = .error failure)
      (ended : EndedWith task (.error failure))
  | evaluated {own : Values}
      (evaluated : Binding.stepValues m.evaluator step entry task.info.library = .ok own)
      (performs : m.Performs c own task)

variable {step : Step} {entry own : Values}

lemma Performs.carry (h : m.Performs c own task) (info : next.info = task.info)
    (phase : next.phase = task.phase) (parameters : next.state.parameters = task.state.parameters)
    (ended : ∀ result, EndedWith task result → EndedWith next result) : m.Performs c own next := by
  cases h with
  | incomplete hp workflow filled he =>
      exact .incomplete (phase ▸ hp) (info ▸ workflow) (info ▸ filled) (ended _ he)
  | opened hp workflow filled hv =>
      exact .opened (phase ▸ hp) (info ▸ workflow) (info ▸ filled) (parameters.trans hv)
  | working hp isTool serving =>
      exact .working (phase ▸ hp) (info ▸ isTool) (info ▸ parameters ▸ serving)
  | broken hp isTool serving =>
      exact .broken (phase ▸ hp) (info ▸ isTool) (info ▸ parameters ▸ serving)
  | answered hp isTool answering he =>
      exact .answered (phase ▸ hp) (info ▸ isTool) (info ▸ parameters ▸ answering) (ended _ he)

/-- A run stays where it is while its parameters, its phase and its end do. -/
lemma Undertakes.carry (h : m.Undertakes c step entry task) (info : next.info = task.info)
    (phase : next.phase = task.phase) (parameters : next.state.parameters = task.state.parameters)
    (ended : ∀ result, EndedWith task result → EndedWith next result) :
    m.Undertakes c step entry next := by
  cases h with
  | waiting hp he => exact .waiting (phase ▸ hp) (parameters.trans he)
  | cancelled hp he hc => exact .cancelled (phase ▸ hp) (parameters.trans he) (ended _ hc)
  | broken hp he => exact .broken (phase ▸ hp) (parameters.trans he)
  | unevaluated hp evaluated he => exact .unevaluated (phase ▸ hp) (info ▸ evaluated) (ended _ he)
  | evaluated evaluated performs =>
      exact .evaluated (info ▸ evaluated) (performs.carry info phase parameters ended)

lemma Undertakes.abandon (h : m.Undertakes c step entry task) (reason : String) :
    m.Undertakes c step entry (task.abandon reason) :=
  h.carry (Task.info_abandon _ _) (Task.phase_abandon _ _)
    (by rw [Task.state_abandon, TaskState.parameters_finish])
    fun _ he => he.congr (Task.info_abandon _ _) (state_abandon_of_isDone he.isDone reason)

/-! ## Moves -/

lemma info_takeTurn (turn : Turn κ) (task : Task κ) : (takeTurn turn task).info = task.info := by
  cases hnext : turn.next with
  | wait tool => rw [takeTurn_wait hnext, Task.info_withPhase, info_afterTurn]
  | done result => rw [takeTurn_done hnext, info_conclude, info_afterTurn]

/-- A turn of a tool goes on with what the tool was started with, whether it waits after it or answers. -/
lemma performs_takeTurn {before : Task κ} {turn : Turn κ} (h : Unended before)
    (isTool : before.info.process.isWorkflow = false)
    (waits : ∀ tool, turn.next = .wait tool → m.Serving c before.info own tool turn.parameters)
    (answers : ∀ result, turn.next = .done result →
      m.Answering c before.info own turn.parameters result) :
    m.Performs c own (takeTurn turn before) := by
  have hparams : (afterTurn turn before).state.parameters = turn.parameters :=
    congrArg Task.Facts.parameters (facts_afterTurn turn before)
  cases hnext : turn.next with
  | wait tool =>
      rw [takeTurn_wait hnext]
      refine .working (Task.phase_withPhase _ _) ?_ ?_
      · rwa [Task.info_withPhase, info_afterTurn]
      · rw [Task.info_withPhase, info_afterTurn, Task.state_withPhase, hparams]
        exact waits tool hnext
  | done result =>
      rw [takeTurn_done hnext]
      refine .answered (phase_conclude _ _) ?_ ?_ (endedWith_conclude (unended_afterTurn h turn) result)
      · rwa [info_conclude, info_afterTurn]
      · rw [info_conclude, info_afterTurn, parameters_conclude, hparams]
        exact answers result hnext

/-- **The start of a run** of a scattered step applies the expressions of the step to its entry. -/
lemma Begun.undertakes (begun : m.Begun world task next) (isStep : task.info.step = some step)
    (plain : task.info.isScatter = false) (admitted : c.admits world) (h : Unended task) :
    m.Undertakes c step task.state.parameters next := by
  have hup : Unended (takeUp task) := unended_takeUp h
  have hown : m.ownParameters task =
      Binding.stepValues m.evaluator step task.state.parameters task.info.library := by
    rw [ownParameters, isStep]
  cases begun with
  | unscattered _ scatter _ => simp [plain] at scatter
  | scattered _ scatter _ => simp [plain] at scatter
  | cancelled _ => exact .cancelled (phase_conclude _ _) (by simp) (endedWith_conclude hup _)
  | unevaluated _ _ own =>
      rw [hown] at own
      exact .unevaluated (phase_conclude _ _) (by simpa using own) (endedWith_conclude hup _)
  | @incomplete params failure _ _ own workflow filled =>
      rw [hown] at own
      exact .evaluated (by simpa using own) (.incomplete (phase_conclude _ _) (by simpa using workflow)
        (by simpa using filled) (endedWith_conclude (hup.setParameters params) _))
  | opened _ _ own workflow filled =>
      rw [hown] at own
      exact .evaluated (by simpa using own) (.opened (Or.inl (Task.phase_withPhase _ _))
        (by simpa using workflow) (by simpa using filled) (by simp))
  | @turned params _ _ own tool =>
      rw [hown] at own
      have hinfo : ((takeUp task).setParameters params).info = task.info := by simp
      have performs : m.Performs c params (takeTurn (m.behavior.start task.info params world).1
          ((takeUp task).setParameters params)) := by
        refine performs_takeTurn (hup.setParameters params) (by rwa [hinfo]) ?_ ?_
        · rw [hinfo]
          exact fun _ waits => .start admitted waits
        · rw [hinfo]
          exact fun _ answers => .start admitted answers
      exact .evaluated (by rwa [info_takeTurn, hinfo]) performs

/-- A run that waits still has its entry. -/
lemma Undertakes.of_waiting (h : m.Undertakes c step entry task) (waiting : task.phase = .waiting) :
    task.state.parameters = entry := by
  cases h with
  | waiting _ parameters => exact parameters
  | cancelled phase _ _ => simp [waiting] at phase
  | broken phase _ => simp [waiting] at phase
  | unevaluated phase _ _ => simp [waiting] at phase
  | evaluated _ performs =>
      cases performs with
      | incomplete phase _ _ _ => simp [waiting] at phase
      | opened phase _ _ _ => simp [waiting] at phase
      | working phase _ _ => simp [waiting] at phase
      | broken phase _ _ => simp [waiting] at phase
      | answered phase _ _ _ => simp [waiting] at phase

/-- A run that is under way has had the expressions of the step applied to its entry. -/
lemma Undertakes.of_busy (h : m.Undertakes c step entry task) (started : task.phase ≠ .waiting)
    (going : task.phase.isOver = false) :
    ∃ own, Binding.stepValues m.evaluator step entry task.info.library = .ok own ∧
      m.Performs c own task := by
  cases h with
  | waiting phase _ => exact absurd phase started
  | cancelled phase _ _ => simp [phase, Phase.isOver] at going
  | broken phase _ => simp [phase, Phase.isOver] at going
  | unevaluated phase _ _ => simp [phase, Phase.isOver] at going
  | evaluated evaluated performs => exact ⟨_, evaluated, performs⟩

lemma Performs.of_joining (h : m.Performs c own task) (joining : task.phase = .joining) :
    task.info.process.isWorkflow = true ∧
      Binding.fillDefaults task.info.process own = .ok task.state.parameters := by
  cases h with
  | incomplete phase _ _ _ => simp [joining] at phase
  | working phase _ _ => simp [joining] at phase
  | broken phase _ _ => simp [joining] at phase
  | answered phase _ _ _ => simp [joining] at phase
  | opened _ workflow filled parameters => exact ⟨workflow, parameters ▸ filled⟩

lemma Performs.of_working {tool : κ} (h : m.Performs c own task)
    (working : task.phase = .working tool) :
    task.info.process.isWorkflow = false ∧
      m.Serving c task.info own tool task.state.parameters := by
  cases h with
  | incomplete phase _ _ _ => simp [working] at phase
  | opened phase _ _ _ => simp [working] at phase
  | broken phase _ _ => simp [working] at phase
  | answered phase _ _ _ => simp [working] at phase
  | working phase isTool serving =>
      obtain rfl := Phase.working.inj (phase.symm.trans working)
      exact ⟨isTool, serving⟩

/-- A workflow that joins goes on with its values when it ends. -/
lemma Undertakes.ended (h : m.Undertakes c step entry task) (joining : task.phase = .joining)
    (info : next.info = task.info) (phase : next.phase = .returned)
    (parameters : next.state.parameters = task.state.parameters) : m.Undertakes c step entry next := by
  obtain ⟨own, evaluated, performs⟩ :=
    h.of_busy (by simp [joining]) (by simp [joining, Phase.isOver])
  obtain ⟨workflow, filled⟩ := performs.of_joining joining
  exact .evaluated (info ▸ evaluated)
    (.opened (Or.inr phase) (info ▸ workflow) (info ▸ filled) parameters)

/-- **What happens to a run leaves it with its entry.** -/
theorem Change.undertakes (change : m.Change c world none task next) (admitted : c.admits world)
    (isStep : task.info.step = some step) (plain : task.info.isScatter = false)
    (unended : Unended task) (h : m.Undertakes c step entry task) :
    m.Undertakes c step entry next := by
  cases change with
  | stray _ hs _ => cases hs
  | refused _ refuses =>
      obtain ⟨s, -, hs, -⟩ := refuses
      cases hs
  | @begun params waiting fed =>
      obtain rfl : params = task.state.parameters := fed
      rw [setParameters_self]
      exact h.of_waiting waiting ▸
        (begun_begin m task world).undertakes isStep plain admitted unended
  | @turned tool working =>
      obtain ⟨own, evaluated, before⟩ :=
        h.of_busy (by simp [working]) (by simp [working, Phase.isOver])
      obtain ⟨isTool, serving⟩ := before.of_working working
      have performs : m.Performs c own (takeTurn
          (m.behavior.resume task.info task.state.parameters tool world).1 task) :=
        performs_takeTurn unended isTool (fun _ waits => .resume serving admitted waits)
          fun _ answers => .resume serving admitted answers
      exact .evaluated (by rwa [info_takeTurn]) performs
  | joined joining _ _ =>
      have hparams : (settleBelow task).state.parameters = task.state.parameters :=
        congrArg Task.Facts.parameters (facts_settleBelow task)
      exact h.ended joining (by simp) (phase_conclude _ _) (by rw [parameters_conclude, hparams])
  | woken joining _ _ => exact h.ended joining (by simp) (phase_conclude _ _) (by simp)
  | @brokenStart params _ _ waiting fed =>
      obtain rfl : params = task.state.parameters := fed
      refine .broken (Task.phase_withPhase _ _) ?_
      rw [setParameters_self, Task.state_withPhase, parameters_takeUp, h.of_waiting waiting]
  | @brokenWork tool _ working =>
      obtain ⟨own, evaluated, before⟩ :=
        h.of_busy (by simp [working]) (by simp [working, Phase.isOver])
      obtain ⟨isTool, serving⟩ := before.of_working working
      have performs : m.Performs c own (task.withPhase .aborted) :=
        .broken (Task.phase_withPhase _ _) (by rwa [Task.info_withPhase]) (by simpa using serving)
      exact .evaluated (by rwa [Task.info_withPhase]) performs

/-- **Whatever happens to a run or below it leaves it with its entry.** -/
theorem Moves.undertakes (moves : m.Moves c world none task next) (admitted : c.admits world)
    (isStep : task.info.step = some step) (plain : task.info.isScatter = false)
    (tidy : Tidy task) (silent : Silent task) (h : m.Undertakes c step entry task) :
    m.Undertakes c step entry next := by
  cases moves with
  | here happens =>
      exact happens.change.undertakes admitted isStep plain
        (silent.unended (tidy.isDone happens.change)) h
  | child _ _ =>
      exact h.carry (by simp) (by simp) (by simp) fun _ he => he.congr (by simp) (by simp)
  | element _ _ =>
      exact h.carry (by simp) (by simp) (by simp) fun _ he => he.congr (by simp) (by simp)

end Machine

end WorkflowEngine.Scheduling
