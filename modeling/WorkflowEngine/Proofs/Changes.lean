import Mathlib.Data.List.Forall2
import WorkflowEngine.Proofs.Interleavings

/-!
# What happens, case by case

The steps of the machine are taken apart once.  Later proofs go through the cases given here and open
no step again.

**Starts and joins.**  `Begun` lists what the start of the work on a task leads to (`begun_begin`);
`join_eq` splits a join into the tasks that it gives up and the result that it ends the task with.

**Changes.**  `Change` lists what can happen to a task (`Happens.change`).

**Outline.**  `Outline` keeps of a change only what it does to the shape of a tree and to the phases in
it (`Change.outline`): a task ends, or its elements or children are started, or its tool is at work.
-/

namespace WorkflowEngine.Scheduling

variable {σ κ : Type}

namespace Machine

/-! ## Starts -/

/-- What the start of the work on a task leads to. -/
inductive Begun (m : Machine σ κ) (world : σ) (task : Task κ) : Task κ → Prop
  | cancelled (h : m.behavior.cancelled world = true) :
      Begun m world task (conclude (.error Supply.runCancelled) (takeUp task))
  | unscattered {failure : Failure} (live : m.behavior.cancelled world = false)
      (scatter : task.info.isScatter = true)
      (planned : m.elementsOf task.info task.state.parameters = .error failure) :
      Begun m world task (conclude (.error failure) (takeUp task))
  | scattered {elements : List (Task κ)} (live : m.behavior.cancelled world = false)
      (scatter : task.info.isScatter = true)
      (planned : m.elementsOf task.info task.state.parameters = .ok elements) :
      Begun m world task ((((takeUp task).withElements elements).record .info
        ("scattering over " ++ toString elements.length ++ " subtasks")).withPhase .joining)
  | unevaluated {failure : Failure} (live : m.behavior.cancelled world = false)
      (plain : task.info.isScatter = false) (own : m.ownParameters task = .error failure) :
      Begun m world task (conclude (.error failure) (takeUp task))
  | incomplete {params : Values} {failure : Failure} (live : m.behavior.cancelled world = false)
      (plain : task.info.isScatter = false) (own : m.ownParameters task = .ok params)
      (workflow : task.info.process.isWorkflow = true)
      (filled : Binding.fillDefaults task.info.process params = .error failure) :
      Begun m world task (conclude (.error failure) ((takeUp task).setParameters params))
  | opened {params values : Values} (live : m.behavior.cancelled world = false)
      (plain : task.info.isScatter = false) (own : m.ownParameters task = .ok params)
      (workflow : task.info.process.isWorkflow = true)
      (filled : Binding.fillDefaults task.info.process params = .ok values) :
      Begun m world task ((((takeUp task).setParameters values).withChildren
        (task.children.map fun p => (p.1, p.2.withPhase .waiting))).withPhase .joining)
  | turned {params : Values} (live : m.behavior.cancelled world = false)
      (plain : task.info.isScatter = false) (own : m.ownParameters task = .ok params)
      (tool : task.info.process.isWorkflow = false) :
      Begun m world task (takeTurn (m.behavior.start task.info params world).1
        ((takeUp task).setParameters params))

@[simp] lemma info_takeUp (task : Task κ) : (takeUp task).info = task.info := by
  simp [takeUp, Task.record, Task.markRunning]

@[simp] lemma parameters_takeUp (task : Task κ) :
    (takeUp task).state.parameters = task.state.parameters := by
  simp only [takeUp, Task.record, Task.markRunning, Task.state_mapState, TaskState.record]
  unfold TaskState.markRunning
  split <;> rfl

@[simp] lemma phase_takeUp (task : Task κ) : (takeUp task).phase = task.phase := by
  simp [takeUp, Task.record, Task.markRunning]

@[simp] lemma children_takeUp (task : Task κ) : (takeUp task).children = task.children := by
  simp [takeUp, Task.record, Task.markRunning]

@[simp] lemma elements_takeUp (task : Task κ) : (takeUp task).elements = task.elements := by
  simp [takeUp, Task.record, Task.markRunning]

lemma ownParameters_takeUp (m : Machine σ κ) (task : Task κ) :
    m.ownParameters (takeUp task) = m.ownParameters task := by
  simp [ownParameters]

lemma setParameters_setParameters (task : Task κ) (p q : Values) :
    (task.setParameters p).setParameters q = task.setParameters q := by
  cases task; rfl

lemma begun_beginWorkflow {m : Machine σ κ} {task : Task κ} {world : σ} {params : Values}
    (live : m.behavior.cancelled world = false) (plain : task.info.isScatter = false)
    (own : m.ownParameters task = .ok params) (workflow : task.info.process.isWorkflow = true) :
    m.Begun world task (beginWorkflow ((takeUp task).setParameters params)) := by
  have hinfo : ((takeUp task).setParameters params).info = task.info := by
    simp [Task.setParameters]
  have hparams : ((takeUp task).setParameters params).state.parameters = params := by
    simp [Task.setParameters]
  rw [beginWorkflow, hinfo, hparams]
  cases hfilled : Binding.fillDefaults task.info.process params with
  | error failure => exact .incomplete live plain own workflow hfilled
  | ok values =>
      have h := Begun.opened live plain own workflow hfilled
      rw [← setParameters_setParameters (takeUp task) params values] at h
      simpa [Task.setParameters] using h

/-- **The start of the work on a task, case by case.** -/
theorem begun_begin (m : Machine σ κ) (task : Task κ) (world : σ) :
    m.Begun world task (m.begin task world).1 := by
  unfold begin
  dsimp only
  rw [info_takeUp, ownParameters_takeUp]
  cases hcancel : m.behavior.cancelled world with
  | true => exact .cancelled hcancel
  | false =>
      cases hscatter : task.info.isScatter with
      | true =>
          simp only [Bool.false_eq_true, if_false, if_true, beginScatter, info_takeUp,
            parameters_takeUp]
          split
          · next failure planned => exact .unscattered hcancel hscatter planned
          · next elements planned => exact .scattered hcancel hscatter planned
      | false =>
          simp only [Bool.false_eq_true, if_false]
          cases own : m.ownParameters task with
          | error failure => exact .unevaluated hcancel hscatter own
          | ok params =>
              cases hworkflow : task.info.process.isWorkflow with
              | true => exact begun_beginWorkflow hcancel hscatter own hworkflow
              | false =>
                  have h := Begun.turned (m := m) hcancel hscatter own hworkflow
                  simpa [Task.setParameters] using h

/-! ## Ends -/

/-- The tasks below a task have been given up, each for some reason. -/
structure GivenUpBelow (task next : Task κ) : Prop where
  children : List.Forall₂ (fun p q => q.1 = p.1 ∧ ∃ reason, q.2 = p.2.abandon reason)
    task.children next.children
  elements : List.Forall₂ (fun e d => ∃ reason, d = e.abandon reason) task.elements next.elements

/-- A task has come to its end. -/
structure Ends (task next : Task κ) : Prop where
  info : next.info = task.info
  phase : next.phase = .returned
  done : next.isDone = true
  below : GivenUpBelow task next

lemma abandon_abandon (task : Task κ) (r s : String) : (task.abandon r).abandon s = task.abandon r :=
  Task.abandon_eq_self (Task.everywhere_isDone_abandon task r) s

lemma GivenUpBelow.abandon (task : Task κ) (reason : String) :
    GivenUpBelow task (task.abandon reason) where
  children := by
    rw [Task.children_abandon, List.forall₂_map_right_iff, List.forall₂_same]
    exact fun p _ => ⟨rfl, reason, rfl⟩
  elements := by
    rw [Task.elements_abandon, List.forall₂_map_right_iff, List.forall₂_same]
    exact fun e _ => ⟨reason, rfl⟩

/-- What was given up before stays as it is when the task is given up. -/
lemma GivenUpBelow.trans_abandon {task next : Task κ} (reason : String)
    (children : List.Forall₂ (fun p q => q.1 = p.1 ∧
      (q.2 = p.2 ∨ ∃ reason, q.2 = p.2.abandon reason)) task.children next.children)
    (elements : List.Forall₂ (fun e d => d = e ∨ ∃ reason, d = e.abandon reason)
      task.elements next.elements) :
    GivenUpBelow task (next.abandon reason) where
  children := by
    rw [Task.children_abandon, List.forall₂_map_right_iff]
    refine children.imp fun p q h => ⟨h.1, ?_⟩
    rcases h.2 with h | ⟨r, h⟩
    · exact ⟨reason, by rw [h]⟩
    · exact ⟨r, by rw [h, abandon_abandon]⟩
  elements := by
    rw [Task.elements_abandon, List.forall₂_map_right_iff]
    refine elements.imp fun e d h => ?_
    rcases h with h | ⟨r, h⟩
    · exact ⟨reason, by rw [h]⟩
    · exact ⟨r, by rw [h, abandon_abandon]⟩

@[simp] lemma info_conclude (result : Outcome Values) (task : Task κ) :
    (conclude result task).info = task.info := by
  cases result <;> simp [conclude, Task.finish, Task.record]

@[simp] lemma phase_conclude (result : Outcome Values) (task : Task κ) :
    (conclude result task).phase = .returned := by
  cases result <;> simp [conclude]

lemma children_conclude (result : Outcome Values) (task : Task κ) :
    (conclude result task).children =
      task.children.map fun p => (p.1, p.2.abandon "enclosing task finished first") := by
  cases result <;> simp [conclude, Task.finish, Task.record]

lemma elements_conclude (result : Outcome Values) (task : Task κ) :
    (conclude result task).elements =
      task.elements.map fun e => e.abandon "enclosing task finished first" := by
  cases result <;> simp [conclude, Task.finish, Task.record]

@[simp] lemma isDone_conclude (result : Outcome Values) (task : Task κ) :
    (conclude result task).isDone = true := by
  cases result <;> simp [conclude, Task.isDone, Task.status]

/-- The facts of a task that ends are those with its result. -/
lemma facts_conclude (result : Outcome Values) (task : Task κ) :
    (conclude result task).facts = (task.finish result).facts := by
  have habandon (t : Task κ) (reason : String) (done : t.isDone = true) :
      ((t.abandon reason).withPhase .returned).facts = t.facts := by
    simp only [Task.facts, Task.info_withPhase, Task.info_abandon, Task.status, Task.state_withPhase,
      Task.state_abandon]
    rw [TaskState.finish_eq_self done]
  have hdone (t : Task κ) : (t.finish result).isDone = true := by
    rw [Task.isDone, Task.status, Task.finish, Task.state_mapState, TaskState.isFinal_finish]
  cases result with
  | error failure => exact habandon _ _ (hdone task)
  | ok outputs =>
      refine (habandon _ _ (hdone _)).trans (Task.facts_finish_congr ?_ _)
      rw [Task.record_eq_withEvents, Task.facts_withEvents]

lemma status_conclude_ok {task : Task κ} (undone : task.isDone = false) (outputs : Values) :
    (conclude (.ok outputs) task).status = .succeeded := by
  have hfacts := congrArg Task.Facts.status (facts_conclude (.ok outputs) task)
  rw [Task.isDone, Task.status] at undone
  simpa [Task.facts, Task.finish, Task.status, TaskState.finish, undone] using hfacts

lemma status_conclude_error {task : Task κ} (undone : task.isDone = false) (failure : Failure) :
    (conclude (.error failure) task).status = .failed (failure.inTask task.info.id) := by
  have hfacts := congrArg Task.Facts.status (facts_conclude (.error failure) task)
  rw [Task.isDone, Task.status] at undone
  simpa [Task.facts, Task.finish, Task.status, TaskState.status_finish_error undone] using hfacts

@[simp] lemma parameters_conclude (result : Outcome Values) (task : Task κ) :
    (conclude result task).state.parameters = task.state.parameters := by
  have hfacts := congrArg Task.Facts.parameters (facts_conclude result task)
  simpa [Task.facts, Task.finish] using hfacts

lemma ends_conclude {task before : Task κ} (result : Outcome Values) (hi : before.info = task.info)
    (hc : before.children = task.children) (he : before.elements = task.elements) :
    Ends task (conclude result before) where
  info := by rw [info_conclude, hi]
  phase := phase_conclude result before
  done := isDone_conclude result before
  below := by
    have h := GivenUpBelow.abandon task "enclosing task finished first"
    refine ⟨?_, ?_⟩
    · rw [children_conclude, hc, ← Task.children_abandon]
      exact h.children
    · rw [elements_conclude, he, ← Task.elements_abandon]
      exact h.elements

lemma ends_refuse (failure : Failure) (task : Task κ) : Ends task (refuse failure task) := by
  unfold refuse
  split_ifs
  · refine ⟨by simp [Task.record], by simp, by simp [Task.isDone, Task.status], ⟨?_, ?_⟩⟩
    · simpa [Task.record] using (GivenUpBelow.abandon task failure.message).children
    · simpa [Task.record] using (GivenUpBelow.abandon task failure.message).elements
  · refine ⟨by simp [Task.record, Task.finish], by simp, by simp [Task.isDone, Task.status], ⟨?_, ?_⟩⟩
    · simpa [Task.record, Task.finish] using
        (GivenUpBelow.abandon task "step inputs could not be resolved").children
    · simpa [Task.record, Task.finish] using
        (GivenUpBelow.abandon task "step inputs could not be resolved").elements

/-! ## Joins -/

/-- The failures of work below that broke off, as events. -/
def abortEvents (what : String) (below : List (Task κ)) : List Event :=
  below.filterMap fun task =>
    match task.phase with
    | .aborted => some ⟨.error, what ++ " aborted"⟩
    | _ => none

lemma recordAborts_eq (what : String) (below : List (Task κ)) (task : Task κ) :
    recordAborts what below task = task.withEvents (abortEvents what below) := by
  induction below generalizing task with
  | nil => cases task; simp [recordAborts, abortEvents, Task.withEvents, Task.mapState]
  | cons child rest ih =>
      have hstep (t : Task κ) : recordAborts what (child :: rest) t =
          recordAborts what rest (recordAborts what [child] t) := rfl
      rw [hstep, ih]
      cases task
      cases hp : child.phase <;>
        simp [recordAborts, abortEvents, Task.withEvents, Task.record, Task.mapState,
          TaskState.record, hp]

/-- A workflow or a scattered step with the unfinished tasks below it given up, up to the first one that
failed by itself. -/
def settleBelow (task : Task κ) : Task κ :=
  if task.info.isScatter then
    (task.withEvents (abortEvents "subtask" task.elements)).withElements
      (giveUpAll "subtask did not finish" id (fun _ t => t) task.elements)
  else
    (task.withEvents (abortEvents "step" task.children.values)).withChildren
      (giveUpAll "step did not finish" Prod.snd (fun p t => (p.1, t)) task.children)

/-- The result of a scattered step whose elements are over. -/
def scatterResult (task : Task κ) : Outcome Values :=
  match failureBelow? task.elements (.cancelled .scatterEngine "subtask did not finish") with
  | some failure => .error failure
  | none => .ok (gatherElements (settleBelow task))

/-- The result of a workflow whose steps are over. -/
def workflowResult (cancelled : Bool) (task : Task κ) : Option (Outcome Values) :=
  match failureBelow? task.children.values (.cancelled .stepScheduler "step did not finish") with
  | some failure => some (.error failure)
  | none => (gatherOutputs (.ofTask cancelled (settleBelow task)) task.info.process).run

/-- The result of a task whose tasks below are over. -/
def joinResult (cancelled : Bool) (task : Task κ) : Option (Outcome Values) :=
  if task.info.isScatter then some (scatterResult task) else workflowResult cancelled task

/-- Whether the work on all tasks directly below is over. -/
def BelowOver (task : Task κ) : Prop :=
  (∀ p ∈ task.children, p.2.phase.isOver = true) ∧ ∀ e ∈ task.elements, e.phase.isOver = true

/-- **A join ends the task with a result of its own**, once the work below is over. -/
theorem join_eq_some_iff {cancelled : Bool} {task next : Task κ} :
    join cancelled task = some next ↔ BelowOver task ∧
      ∃ result, joinResult cancelled task = some result ∧ conclude result (settleBelow task) = next := by
  have hover : (task.children.values.all (·.phase.isOver) && task.elements.all (·.phase.isOver))
      = true ↔ BelowOver task := by
    simp [BelowOver, OrderedMap.values, -Prod.forall]
  rw [join, ← hover]
  by_cases h : (task.children.values.all (·.phase.isOver) && task.elements.all (·.phase.isOver)) = true
  · rw [if_pos h, joinResult]
    simp only [h, true_and]
    split_ifs with hscatter
    · rw [joinScatter, recordAborts_eq, scatterResult]
      cases failureBelow? task.elements (.cancelled .scatterEngine "subtask did not finish") <;>
        simp [settleBelow, hscatter]
    · rw [joinWorkflow, recordAborts_eq, workflowResult]
      cases failureBelow? task.children.values (.cancelled .stepScheduler "step did not finish") <;>
        simp [settleBelow, hscatter, Option.map_eq_some_iff]
  · simp [h]

lemma forall₂_giveUpAll {α : Type} {R : α → α → Prop} (reason : String) (taskOf : α → Task κ)
    (withTask : α → Task κ → α) (keep : ∀ a, R a a)
    (given : ∀ a, R a (withTask a (giveUp reason (taskOf a)))) :
    ∀ as : List α, List.Forall₂ R as (giveUpAll reason taskOf withTask as)
  | [] => .nil
  | a :: rest => by
      rw [giveUpAll]
      split_ifs
      · exact List.forall₂_same.mpr fun b _ => keep b
      · exact .cons (given a) (forall₂_giveUpAll reason taskOf withTask keep given rest)

lemma giveUp_eq (reason : String) (task : Task κ) :
    giveUp reason task = task ∨ ∃ r, giveUp reason task = task.abandon r := by
  unfold giveUp
  split_ifs
  · exact Or.inl rfl
  · exact Or.inr ⟨reason, rfl⟩

lemma giveUpAll_of_done {α : Type} {reason : String} {taskOf : α → Task κ}
    {withTask : α → Task κ → α} (same : ∀ a, withTask a (taskOf a) = a) :
    ∀ {as : List α}, (∀ a ∈ as, (taskOf a).isDone = true) →
      giveUpAll reason taskOf withTask as = as
  | [], _ => rfl
  | a :: rest, h => by
      have ha : giveUp reason (taskOf a) = taskOf a := by rw [giveUp, if_pos (h a (by simp))]
      rw [giveUpAll, ha, same, giveUpAll_of_done same fun b hb => h b (by simp [hb])]
      split_ifs <;> rfl

@[simp] lemma info_settleBelow (task : Task κ) : (settleBelow task).info = task.info := by
  unfold settleBelow
  split_ifs <;> simp

/-- When all steps of a workflow have ended none is given up. -/
lemma children_settleBelow {task : Task κ} (plain : task.info.isScatter = false)
    (done : ∀ p ∈ task.children, p.2.isDone = true) :
    (settleBelow task).children = task.children := by
  rw [settleBelow, if_neg (by simp [plain]), Task.children_withChildren]
  exact giveUpAll_of_done (fun _ => rfl) done

lemma ends_conclude_settleBelow (result : Outcome Values) (task : Task κ) :
    Ends task (conclude result (settleBelow task)) where
  info := by rw [info_conclude, info_settleBelow]
  phase := phase_conclude result _
  done := isDone_conclude result _
  below := by
    have h : GivenUpBelow task ((settleBelow task).abandon "enclosing task finished first") := by
      refine .trans_abandon _ ?_ ?_
      · rw [settleBelow]
        split_ifs
        · simp [List.forall₂_same]
        · simp only [Task.children_withChildren]
          exact forall₂_giveUpAll _ _ _ (fun p => ⟨rfl, Or.inl rfl⟩)
            (fun p => ⟨rfl, giveUp_eq _ p.2⟩) _
      · rw [settleBelow]
        split_ifs
        · simp only [Task.elements_withElements]
          exact forall₂_giveUpAll _ id (fun _ t => t) (fun _ => Or.inl rfl) (fun e => giveUp_eq _ e) _
        · simp [List.forall₂_same]
    refine ⟨?_, ?_⟩
    · rw [children_conclude, ← Task.children_abandon]
      exact h.children
    · rw [elements_conclude, ← Task.elements_abandon]
      exact h.elements

/-! ## Changes -/

/-- Why a step that waits is refused: a source failed, or the run is cancelled. -/
def Refuses (supply : Option Supply) (task : Task κ) (failure : Failure) : Prop :=
  ∃ s step, supply = some s ∧ task.info.step = some step ∧
    (s.feed step = some (.error failure) ∨
      (failure = Supply.runCancelled ∧ s.cancelled = true ∧
        s.Awaits (step.inputs.flatMap (·.sources))))

/-- What can happen to a task, case by case. -/
inductive Change (m : Machine σ κ) (c : Circumstances σ) (world : σ) (supply : Option Supply)
    (task : Task κ) : Task κ → Prop
  | stray {s : Supply} {failure : Failure} (waiting : task.phase = .waiting) (hs : supply = some s)
      (none : task.info.step = none) :
      Change m c world supply task ((task.finish (.error failure)).withPhase .returned)
  | refused {failure : Failure} (waiting : task.phase = .waiting)
      (refuses : Refuses supply task failure) : Change m c world supply task (refuse failure task)
  | begun {params : Values} (waiting : task.phase = .waiting) (fed : Feeds supply task params) :
      Change m c world supply task (m.begin (task.setParameters params) world).1
  | turned {tool : κ} (working : task.phase = .working tool) :
      Change m c world supply task
        (takeTurn (m.behavior.resume task.info task.state.parameters tool world).1 task)
  | joined {result : Outcome Values} (joining : task.phase = .joining) (rested : BelowOver task)
      (joined : joinResult (m.behavior.cancelled world) task = some result) :
      Change m c world supply task (conclude result (settleBelow task))
  | woken (joining : task.phase = .joining) (rested : BelowOver task)
      (cancelled : m.behavior.cancelled world = true) :
      Change m c world supply task (conclude (.error Supply.runCancelled) task)
  | brokenStart {params : Values} (allowed : c.breaksOff) (tool : task.info.isTool = true)
      (waiting : task.phase = .waiting) (fed : Feeds supply task params) :
      Change m c world supply task ((takeUp (task.setParameters params)).withPhase .aborted)
  | brokenWork {tool : κ} (allowed : c.breaksOff) (working : task.phase = .working tool) :
      Change m c world supply task (task.withPhase .aborted)

lemma setParameters_self (task : Task κ) : task.setParameters task.state.parameters = task := by
  cases task; rfl

/-- **What happens to a task is one of the changes listed.** -/
theorem Happens.change {m : Machine σ κ} {c : Circumstances σ} {world : σ} {supply : Option Supply}
    {task next : Task κ} (h : m.Happens c world supply task next) :
    m.Change c world supply task next := by
  cases h with
  | wakeWaiting waiting hs hstep cancelled awaits =>
      exact .refused waiting ⟨_, _, hs, hstep, Or.inr ⟨rfl, cancelled, awaits⟩⟩
  | wakeJoining joining _ succeeded none cancelled _ =>
      exact .woken joining ⟨fun p hp => (succeeded p hp).2, by simp [none]⟩ cancelled
  | breakStart allowed tool waiting fed => exact .brokenStart allowed tool waiting fed
  | breakWork allowed working => exact .brokenWork allowed working
  | @step _ world' h =>
      cases hphase : task.phase with
      | idle => simp [stepHere, hphase] at h
      | returned => simp [stepHere, hphase] at h
      | aborted => simp [stepHere, hphase] at h
      | waiting =>
          cases supply with
          | none =>
              simp only [stepHere, hphase, Option.some.injEq] at h
              have hb : m.Change c world none task (m.begin (task.setParameters _) world).1 :=
                .begun hphase rfl
              rwa [setParameters_self, h] at hb
          | some s =>
              simp only [stepHere, hphase, beginStep] at h
              split at h
              · next hstep =>
                  obtain ⟨rfl, -⟩ := Prod.mk.inj (Option.some.inj h)
                  exact .stray hphase rfl hstep
              · next step hstep =>
                  split at h
                  · exact absurd h (by simp)
                  · next failure hfeed =>
                      obtain ⟨rfl, -⟩ := Prod.mk.inj (Option.some.inj h)
                      exact .refused hphase ⟨s, step, rfl, hstep, Or.inl hfeed⟩
                  · next params hfeed =>
                      have hb : m.Change c world (some s) task
                          (m.begin (task.setParameters params) world).1 :=
                        .begun hphase ⟨step, hstep, hfeed⟩
                      rwa [Option.some.inj h] at hb
      | working tool =>
          simp only [stepHere, hphase, Option.ite_none_right_eq_some, Option.some.injEq] at h
          obtain ⟨-, h⟩ := h
          obtain ⟨rfl, -⟩ := Prod.mk.inj h
          exact .turned hphase
      | joining =>
          simp only [stepHere, hphase, Option.map_eq_some_iff] at h
          obtain ⟨joined, hj, h⟩ := h
          obtain ⟨rfl, -⟩ := Prod.mk.inj h
          obtain ⟨rested, result, hresult, rfl⟩ := join_eq_some_iff.mp hj
          exact .joined hphase rested hresult

/-! ## Outline -/

/-- What happens to the shape of a tree and to the phases in it. -/
inductive Outline (m : Machine σ κ) (supply : Option Supply) (task next : Task κ) : Prop
  /-- The task ends. -/
  | ended (before : task.phase = .waiting ∨ (∃ tool, task.phase = .working tool) ∨
        task.phase = .joining ∧ BelowOver task)
      (ends : Ends task next)
  /-- A task that is no step was taken for one. -/
  | stray (isSome : supply.isSome = true) (none : task.info.step = none)
      (info : next.info = task.info) (phase : next.phase = .returned)
  /-- The elements of a scattered step are started. -/
  | scattered {params : Values} (waiting : task.phase = .waiting)
      (scatter : task.info.isScatter = true)
      (planned : m.elementsOf task.info params = .ok next.elements) (info : next.info = task.info)
      (done : next.isDone = task.isDone) (phase : next.phase = .joining)
      (children : next.children = task.children)
  /-- The steps of a workflow are started. -/
  | opened (waiting : task.phase = .waiting) (plain : task.info.isScatter = false)
      (info : next.info = task.info) (done : next.isDone = task.isDone)
      (phase : next.phase = .joining)
      (children : next.children = task.children.map fun p => (p.1, p.2.withPhase .waiting))
      (elements : next.elements = task.elements)
  /-- A tool is at work, or its work has broken off. -/
  | atWork (before : task.phase = .waiting ∧ task.info.isTool = true ∨
        ∃ tool, task.phase = .working tool)
      (info : next.info = task.info) (done : next.isDone = task.isDone)
      (phase : (∃ tool, next.phase = .working tool) ∨ next.phase = .aborted)
      (children : next.children = task.children) (elements : next.elements = task.elements)

@[simp] lemma isFinal_takeUp (task : Task κ) :
    (takeUp task).status.isFinal = task.status.isFinal := by
  cases task
  exact TaskState.isFinal_markRunning _

/-- The task with what a turn of its tool has left behind. -/
def afterTurn (turn : Turn κ) (task : Task κ) : Task κ :=
  (task.setParameters turn.parameters).withEvents turn.events

lemma takeTurn_done {turn : Turn κ} {result : Outcome Values} (h : turn.next = .done result)
    (task : Task κ) : takeTurn turn task = conclude result (afterTurn turn task) := by
  rw [takeTurn, h]
  rfl

lemma takeTurn_wait {turn : Turn κ} {tool : κ} (h : turn.next = .wait tool) (task : Task κ) :
    takeTurn turn task = (afterTurn turn task).withPhase (.working tool) := by
  rw [takeTurn, h]
  rfl

@[simp] lemma info_afterTurn (turn : Turn κ) (task : Task κ) :
    (afterTurn turn task).info = task.info := by
  simp [afterTurn]

@[simp] lemma status_afterTurn (turn : Turn κ) (task : Task κ) :
    (afterTurn turn task).status = task.status := by
  simp [afterTurn]

@[simp] lemma children_afterTurn (turn : Turn κ) (task : Task κ) :
    (afterTurn turn task).children = task.children := by
  simp [afterTurn]

@[simp] lemma elements_afterTurn (turn : Turn κ) (task : Task κ) :
    (afterTurn turn task).elements = task.elements := by
  simp [afterTurn]

lemma outline_takeTurn {m : Machine σ κ} {supply : Option Supply} {task before : Task κ}
    (turn : Turn κ)
    (start : task.phase = .waiting ∧ task.info.isTool = true ∨ ∃ tool, task.phase = .working tool)
    (hi : before.info = task.info) (hd : before.isDone = task.isDone)
    (hc : before.children = task.children) (he : before.elements = task.elements) :
    m.Outline supply task (takeTurn turn before) := by
  cases hnext : turn.next with
  | done result =>
      rw [takeTurn_done hnext]
      refine .ended ?_ (ends_conclude result (by simp [hi]) (by simp [hc]) (by simp [he]))
      rcases start with ⟨h, -⟩ | h
      · exact Or.inl h
      · exact Or.inr (Or.inl h)
  | wait tool =>
      rw [takeTurn_wait hnext]
      exact .atWork start (by simp [hi]) (by simpa [Task.isDone] using hd) (Or.inl ⟨tool, by simp⟩)
        (by simp [hc]) (by simp [he])

lemma outline_begun {m : Machine σ κ} {world : σ} {supply : Option Supply} {task next : Task κ}
    {params : Values} (waiting : task.phase = .waiting)
    (begun : m.Begun world (task.setParameters params) next) : m.Outline supply task next := by
  have hend (result : Outcome Values) {before : Task κ} (hi : before.info = task.info)
      (hc : before.children = task.children) (he : before.elements = task.elements) :
      m.Outline supply task (conclude result before) :=
    .ended (Or.inl waiting) (ends_conclude result hi hc he)
  cases begun with
  | cancelled _ => exact hend _ (by simp) (by simp) (by simp)
  | unscattered _ _ _ => exact hend _ (by simp) (by simp) (by simp)
  | unevaluated _ _ _ => exact hend _ (by simp) (by simp) (by simp)
  | incomplete _ _ _ _ _ => exact hend _ (by simp) (by simp) (by simp)
  | @scattered elements _ scatter planned =>
      rw [Task.info_setParameters] at scatter planned
      exact .scattered waiting scatter (by simpa using planned) (by simp) (by simp [Task.isDone])
        (by simp) (by simp)
  | @opened own values _ plain _ _ _ =>
      rw [Task.info_setParameters] at plain
      exact .opened waiting plain (by simp) (by simp [Task.isDone]) (by simp) (by simp) (by simp)
  | @turned own _ plain _ tool =>
      rw [Task.info_setParameters] at plain tool
      exact outline_takeTurn _ (Or.inl ⟨waiting, by simp [TaskInfo.isTool, plain, tool]⟩) (by simp)
        (by simp [Task.isDone]) (by simp) (by simp)

/-- **What a change does to the shape of a tree.** -/
theorem Change.outline {m : Machine σ κ} {c : Circumstances σ} {world : σ} {supply : Option Supply}
    {task next : Task κ} (h : m.Change c world supply task next) : m.Outline supply task next := by
  cases h with
  | stray _ hs none => exact .stray (by simp [hs]) none (by simp [Task.finish]) (by simp)
  | refused waiting _ => exact .ended (Or.inl waiting) (ends_refuse _ task)
  | begun waiting _ => exact outline_begun waiting (begun_begin m _ world)
  | turned working => exact outline_takeTurn _ (Or.inr ⟨_, working⟩) rfl rfl rfl rfl
  | joined joining rested _ =>
      exact .ended (Or.inr (Or.inr ⟨joining, rested⟩)) (ends_conclude_settleBelow _ task)
  | woken joining rested _ =>
      exact .ended (Or.inr (Or.inr ⟨joining, rested⟩)) (ends_conclude _ rfl rfl rfl)
  | brokenStart _ tool waiting _ =>
      exact .atWork (Or.inl ⟨waiting, tool⟩) (by simp) (by simp [Task.isDone]) (Or.inr (by simp))
        (by simp) (by simp)
  | brokenWork _ working =>
      exact .atWork (Or.inr ⟨_, working⟩) (by simp) (by simp [Task.isDone]) (Or.inr (by simp))
        (by simp) (by simp)

/-- What a task is does not change. -/
lemma Outline.info {m : Machine σ κ} {supply : Option Supply} {task next : Task κ}
    (h : m.Outline supply task next) : next.info = task.info := by
  cases h with
  | ended _ ends => exact ends.info
  | stray _ _ info _ => exact info
  | scattered _ _ _ info _ _ _ => exact info
  | opened _ _ info _ _ _ _ => exact info
  | atWork _ info _ _ _ _ => exact info

lemma Outline.phase_ne_idle {m : Machine σ κ} {supply : Option Supply} {task next : Task κ}
    (h : m.Outline supply task next) : next.phase ≠ .idle := by
  cases h with
  | ended _ ends => simp [ends.phase]
  | stray _ _ _ phase => simp [phase]
  | scattered _ _ _ _ _ phase _ => simp [phase]
  | opened _ _ _ _ phase _ _ => simp [phase]
  | atWork _ _ _ phase _ _ => rcases phase with ⟨tool, h⟩ | h <;> simp [h]

lemma Moves.info {m : Machine σ κ} {c : Circumstances σ} {world : σ} {supply : Option Supply}
    {task next : Task κ} (h : m.Moves c world supply task next) : next.info = task.info := by
  cases h with
  | here h => exact h.change.outline.info
  | child _ _ => exact Task.info_withChildren ..
  | element _ _ => exact Task.info_withElements ..

end Machine

end WorkflowEngine.Scheduling
