import WorkflowEngine.Proofs.Precedence

/-!
# What tasks publish

A task that succeeds publishes a value for every output that its process declares, and for nothing else,
whatever it is: a tool, a workflow or a scattered step.

**Collection.**  Outputs are collected one after the other, and what is collected has their names in the
order in which they are declared (`Outputs.publishes_expressionOutputs`, `Outputs.publishes_toolOutputs`).

**Tools.**  `Delivers` asks this of tools; the tools of the engine do it: `delivers_behavior`.

**Tasks.**  `Complete` is kept by everything that can happen to a task (`Change.complete`), and so holds in
every tree of a run: `complete_of_runs`.
-/

namespace WorkflowEngine

open Document (Process)

/-- Some outputs are those that a process declares, in the same order. -/
def Publishes (process : Process) (outputs : Values) : Prop :=
  outputs.keys = OrderedMap.firstKeys Document.Output.id process.outputs

lemma Publishes.isSome_find? {process : Process} {outputs : Values} (h : Publishes process outputs)
    {output : Document.Output} (ho : output ∈ process.outputs) :
    (outputs.find? output.id).isSome = true := by
  rw [OrderedMap.find?_isSome_iff, h]
  exact OrderedMap.mem_firstKeys.mpr ⟨output, ho, rfl⟩

/-! ## Collection -/

namespace Logged

variable {α β : Type}

lemma bind_eq_ok {x : Logged α} {f : α → Logged β} {b : β} {before after : List Event} :
    (x >>= f).run before = (.ok b, after) ↔
      ∃ a between, x.run before = (.ok a, between) ∧ (f a).run between = (.ok b, after) := by
  rw [ExceptT.run_bind]
  simp only [bind, StateT.bind]
  cases hx : x.run before with
  | mk result between =>
      cases result with
      | ok a =>
          refine ⟨fun h => ⟨a, between, rfl, h⟩, ?_⟩
          rintro ⟨_, _, ⟨⟩, h⟩
          exact h
      | error e =>
          refine ⟨fun h => (by cases (Prod.mk.inj h).1), ?_⟩
          rintro ⟨_, _, ⟨⟩, -⟩

lemma liftM_eq_ok {x : Outcome α} {a : α} {before after : List Event}
    (h : (liftM x : Logged α).run before = (.ok a, after)) : x = .ok a := by
  cases x with
  | ok b =>
      obtain ⟨hb, -⟩ := Prod.mk.inj h
      exact hb
  | error e => cases (Prod.mk.inj h).1

/-- What is collected with events has its keys in order. -/
lemma keys_of_collect {key : β → String} {f : β → Logged α} :
    ∀ {xs : List β} {init m : OrderedMap α} {before after : List Event},
      (xs.foldlM (fun map x => do return OrderedMap.insert map (key x) (← f x)) init).run before =
        (.ok m, after) →
      m.keys = OrderedMap.keysAfter key init.keys xs
  | [], init, m, before, after, h => by
      obtain rfl : init = m := Except.ok.inj (Prod.mk.inj h).1
      rfl
  | x :: xs, init, m, before, after, h => by
      rw [List.foldlM_cons] at h
      obtain ⟨between, events, hx, h⟩ := bind_eq_ok.mp h
      obtain ⟨v, _, -, hbetween⟩ := bind_eq_ok.mp hx
      obtain rfl := Except.ok.inj (Prod.mk.inj hbetween).1
      rw [keys_of_collect h, ← OrderedMap.keysAfter_cons]

end Logged

namespace Outputs

variable {process : Process} {outputs : Values}

lemma publishes_expressionOutputs {result : Json}
    (h : expressionOutputs process result = .ok outputs) : Publishes process outputs := by
  unfold expressionOutputs at h
  split at h
  · exact OrderedMap.keys_foldlM h
  · cases h

lemma publishes_reportedOutputs {site : Site} {report : String}
    (h : reportedOutputs site process report = .ok outputs) : Publishes process outputs := by
  obtain ⟨_, -, h⟩ := bind_eq_ok.mp h
  split at h
  · cases h
  · exact OrderedMap.keys_foldlM h
  · cases h

/-- **What is collected of a tool publishes its outputs.** -/
theorem publishes_toolOutputs {site : Site} {before after : List Event}
    (h : (toolOutputs site process).run before = (.ok outputs, after)) : Publishes process outputs := by
  unfold toolOutputs at h
  dsimp only at h
  split_ifs at h
  · exact publishes_reportedOutputs (Logged.liftM_eq_ok h)
  · exact Logged.keys_of_collect h

end Outputs

namespace Scheduling

variable {σ κ : Type}

/-! ## Tools -/

/-- Tools that succeed give the outputs of their processes. -/
structure Delivers (behavior : Behavior σ κ) : Prop where
  start : ∀ info params world outputs,
    (behavior.start info params world).1.next = .done (.ok outputs) → Publishes info.process outputs
  resume : ∀ info params tool world outputs,
    (behavior.resume info params tool world).1.next = .done (.ok outputs) → Publishes info.process outputs

section Engine

variable {ε : Type} {setting : Tool.Setting ε} {info : TaskInfo} {outputs : Values}

lemma publishes_perform {workplace : Tool.Workplace} {world : Tool.World ε}
    (h : (Tool.perform setting info workplace world).1 = .done (.ok outputs)) :
    Publishes info.process outputs := by
  unfold Tool.perform at h
  split at h
  · have hresult := Next.done.inj h
    obtain ⟨value, -, hvalue⟩ := bind_eq_ok.mp hresult
    exact Outputs.publishes_expressionOutputs hvalue
  · unfold Tool.dispatch at h
    split at h
    · cases Next.done.inj h
    · dsimp only at h
      split at h
      · cases Next.done.inj h
      · cases h
  · cases Next.done.inj h

lemma publishes_start {params : Values} {world : Tool.World ε}
    (h : (Tool.start setting info params world).1.next = .done (.ok outputs)) :
    Publishes info.process outputs := by
  unfold Tool.start at h
  generalize Tool.onFiles world (Tool.settleIn setting info params) = settled at h
  obtain ⟨_ | workplace, events, world⟩ := settled
  · cases Next.done.inj h
  · dsimp only at h
    generalize Tool.onFiles world (Tool.stageIn setting.interpreter info workplace) = staged at h
    obtain ⟨_ | _, more, world⟩ := staged
    · cases Next.done.inj h
    · exact publishes_perform h

lemma publishes_collectOutputs {running : Tool.Running} {files : FileTree}
    (h : (Tool.collectOutputs setting info running files).1 = .ok outputs) :
    Publishes info.process outputs := by
  unfold Tool.collectOutputs Logged.collect at h
  generalize hwork : Outputs.toolOutputs _ _ = work at h
  generalize hrun : work.run [] = collected at h
  obtain ⟨result, after⟩ := collected
  obtain rfl : result = .ok outputs := h
  rw [← hwork] at hrun
  exact Outputs.publishes_toolOutputs hrun

lemma publishes_resume {params : Values} {running : Tool.Running} {world : Tool.World ε}
    (h : (Tool.resume setting info params running world).1.next = .done (.ok outputs)) :
    Publishes info.process outputs := by
  unfold Tool.resume at h
  generalize running.polling.turn setting.executor setting.config world = turned at h
  obtain ⟨progress, events, world⟩ := turned
  cases progress with
  | again polling => cases h
  | ended result =>
      cases result with
      | error failure => cases Next.done.inj h
      | ok _ => exact publishes_collectOutputs (Next.done.inj h)

/-- **The tools of the engine give their outputs**, with every executor. -/
theorem delivers_behavior (setting : Tool.Setting ε) : Delivers (Tool.behavior setting) where
  start info params world outputs h := by
    simp only [Tool.behavior] at h
    exact publishes_start h
  resume info params running world outputs h := by
    simp only [Tool.behavior] at h
    exact publishes_resume h

end Engine

/-! ## Joins -/

lemma publishes_gatherElements (task : Task κ) :
    Publishes task.info.process (Machine.gatherElements task) :=
  OrderedMap.keys_foldl _ _ _ _

lemma publishes_gatherOutputs {cancelled : Bool} {task : Task κ} {process : Process} {outputs : Values}
    (h : (Machine.gatherOutputs (.ofTask cancelled task) process).run = some (.ok outputs)) :
    Publishes process outputs := by
  have hentry (output : Document.Output) (_ : output ∈ process.outputs) (v : Value)
      (hv : ((Supply.ofTask cancelled task).gather output.sources).run = some (.ok v)) :
      True ∧ v = readSources task output.sources := ⟨trivial, (gather_eq_ok hv).2⟩
  obtain ⟨-, rfl⟩ := awaited_collect_eq_ok hentry h
  exact OrderedMap.keys_foldl _ _ _ _

namespace Machine

lemma publishes_joinResult {cancelled : Bool} {task : Task κ} {outputs : Values}
    (h : joinResult cancelled task = some (.ok outputs)) : Publishes task.info.process outputs := by
  rw [joinResult] at h
  split_ifs at h
  · rw [scatterResult] at h
    split at h
    · cases h
    · obtain rfl := Except.ok.inj (Option.some.inj h)
      have hpublishes := publishes_gatherElements (settleBelow task)
      rwa [info_settleBelow] at hpublishes
  · rw [workflowResult] at h
    split at h
    · cases h
    · exact publishes_gatherOutputs h

end Machine

/-! ## Tasks -/

/-- A task that has succeeded has published its outputs. -/
def Complete (task : Task κ) : Prop :=
  task.status = .succeeded → Publishes task.info.process task.state.outputs

namespace Complete

variable {task next : Task κ}

lemma of_open (h : task.status ≠ .succeeded) : Complete task := fun hs => absurd hs h

lemma congr (h : Complete task) (same : next.facts = task.facts) : Complete next := by
  intro hs
  have hstatus : next.status = task.status := congrArg Task.Facts.status same
  have houtputs : next.state.outputs = task.state.outputs := congrArg Task.Facts.outputs same
  have hinfo : next.info = task.info := congrArg Task.Facts.info same
  rw [hinfo, houtputs]
  exact h (hstatus ▸ hs)

lemma finish (h : Complete task) {result : Outcome Values}
    (publishes : ∀ outputs, result = .ok outputs → Publishes task.info.process outputs) :
    Complete (task.finish result) := by
  unfold Complete Task.finish
  rw [Task.status, Task.state_mapState, Task.info_mapState]
  unfold TaskState.finish
  split_ifs
  · exact h
  · cases result with
    | ok outputs => exact fun _ => publishes outputs rfl
    | error failure =>
        intro hs
        cases hs

lemma abandon (h : Complete task) (reason : String) : Complete (task.abandon reason) := by
  have hfinish : Complete (task.finish (.error (Task.givenUp reason))) := h.finish (by simp)
  refine hfinish.congr ?_
  simp [Task.facts, Task.status, Task.finish]

lemma setParameters (h : Complete task) (params : Values) : Complete (task.setParameters params) := by
  intro hs
  cases task
  exact h hs

lemma withPhase (h : Complete task) (phase : Phase κ) : Complete (task.withPhase phase) :=
  h.congr (Task.facts_withPhase task phase)

end Complete

namespace Machine

variable {task next : Task κ}

lemma complete_conclude (h : Complete task) {result : Outcome Values}
    (publishes : ∀ outputs, result = .ok outputs → Publishes task.info.process outputs) :
    Complete (conclude result task) :=
  (h.finish publishes).congr (facts_conclude result task)

lemma complete_conclude_error (h : Complete task) (failure : Failure) :
    Complete (conclude (.error failure) task) :=
  complete_conclude h (by simp)

lemma complete_takeUp (h : Complete task) : Complete (takeUp task) := by
  -- Only a pending task is marked, and it is running from then on.
  have hmarked : Complete task.markRunning := by
    unfold Complete Task.markRunning
    rw [Task.status, Task.state_mapState, Task.info_mapState]
    unfold TaskState.markRunning
    split
    · intro hs
      cases hs
    · exact h
  refine hmarked.congr ?_
  rw [takeUp, Task.record_eq_withEvents, Task.facts_withEvents]

lemma complete_refuse (h : Complete task) (failure : Failure) : Complete (refuse failure task) := by
  have hrecorded : Complete (task.record .warning failure.message) :=
    h.congr (by rw [Task.record_eq_withEvents, Task.facts_withEvents])
  rw [refuse]
  split_ifs
  · exact (hrecorded.abandon _).withPhase _
  · exact ((hrecorded.finish (by simp)).abandon _).withPhase _

lemma facts_settleBelow (task : Task κ) : (settleBelow task).facts = task.facts := by
  rw [settleBelow]
  split_ifs
  · rw [Task.facts_withElements, Task.facts_withEvents]
  · rw [Task.facts_withChildren, Task.facts_withEvents]

lemma complete_takeTurn {turn : Turn κ} (h : Complete task)
    (publishes : ∀ outputs, turn.next = .done (.ok outputs) → Publishes task.info.process outputs) :
    Complete (takeTurn turn task) := by
  have hafter : Complete (afterTurn turn task) :=
    (h.setParameters turn.parameters).congr (Task.facts_withEvents _ _)
  cases hnext : turn.next with
  | wait tool =>
      rw [takeTurn_wait hnext]
      exact hafter.withPhase _
  | done result =>
      rw [takeTurn_done hnext]
      refine complete_conclude hafter fun outputs hok => ?_
      rw [info_afterTurn]
      exact publishes outputs (hok ▸ hnext)

lemma complete_begin {m : Machine σ κ} {world : σ} (delivers : Delivers m.behavior)
    (h : Complete task) : Complete (m.begin task world).1 := by
  have hup : Complete (takeUp task) := complete_takeUp h
  have hb := begun_begin m task world
  generalize (m.begin task world).1 = next at hb ⊢
  cases hb with
  | cancelled _ => exact complete_conclude_error hup _
  | unscattered _ _ _ => exact complete_conclude_error hup _
  | unevaluated _ _ _ => exact complete_conclude_error hup _
  | incomplete _ _ _ _ _ => exact complete_conclude_error (hup.setParameters _) _
  | scattered _ _ _ =>
      refine Complete.withPhase (hup.congr ?_) _
      rw [Task.record_eq_withEvents, Task.facts_withEvents, Task.facts_withElements]
  | opened _ _ _ _ _ =>
      exact Complete.withPhase ((hup.setParameters _).congr (Task.facts_withChildren _ _)) _
  | turned _ _ _ _ =>
      refine complete_takeTurn (hup.setParameters _) fun outputs hdone => ?_
      rw [Task.info_setParameters, info_takeUp]
      exact delivers.start _ _ _ outputs hdone

/-- **Whatever happens to a task, once it has succeeded it has published its outputs.** -/
theorem Change.complete {m : Machine σ κ} {c : Circumstances σ} {world : σ}
    {supply : Option Supply} (delivers : Delivers m.behavior)
    (change : m.Change c world supply task next) (h : Complete task) : Complete next := by
  cases change with
  | stray _ _ _ => exact (h.finish (by simp)).withPhase _
  | refused _ _ => exact complete_refuse h _
  | begun _ _ => exact complete_begin delivers (h.setParameters _)
  | turned _ => exact complete_takeTurn h fun outputs hdone => delivers.resume _ _ _ _ outputs hdone
  | joined _ _ joined =>
      refine complete_conclude (h.congr (facts_settleBelow task)) fun outputs hok => ?_
      rw [info_settleBelow]
      exact publishes_joinResult (hok ▸ joined)
  | woken _ _ _ => exact complete_conclude_error h _
  | brokenStart _ _ _ _ => exact (complete_takeUp (h.setParameters _)).withPhase _
  | brokenWork _ _ => exact h.withPhase _

lemma everywhere_complete_ready (h : task.Everywhere New) (params : Values) :
    (ready task params).Everywhere Complete := by
  have hpending {d : Task κ} (hd : New d) : Complete d :=
    .of_open (by simp [Task.status, hd.state, TaskState.fresh])
  refine everywhere_ready (h.mono fun d hd => hpending hd) ?_
  exact ((hpending h.here).setParameters params).withPhase _

lemma Moves.complete {m : Machine σ κ} {c : Circumstances σ} {world : σ} {supply : Option Supply}
    (delivers : Delivers m.behavior) (moves : m.Moves c world supply task next)
    (attached : Attached supply task) (hw : task.Everywhere (Wired m.document))
    (h : task.Everywhere Complete) : next.Everywhere Complete := by
  refine Moves.everywhere (Q := Wired m.document) (fun hw hf => hw.attached hf)
    ?_ ?_ ?_ moves attached hw h
  · intro supply task next attached happens hw h
    refine happens.change.outline.everywhere attached hw.here.valid h
      (happens.change.complete delivers h.here) (fun d reason hd => hd.abandon reason)
      (fun d hd => hd.withPhase _) fun built own hb => ?_
    exact everywhere_complete_ready (hb.mono fun d hd => hd.2) own
  · intro task child next id _ h _ _ _
    exact h.here.congr (Task.facts_withChildren _ _)
  · intro task element next place _ h _ _ _
    exact h.here.congr (Task.facts_withElements _ _)

/-- **In every tree of a run what has succeeded has published its outputs.** -/
theorem complete_of_runs {m : Machine σ κ} {c : Circumstances σ} {root tree : Task κ}
    {params : Values} (delivers : Delivers m.behavior) (accepted : resolve m.document = .ok root)
    (run : m.Runs c (ready root params) tree) : tree.Everywhere Complete := by
  have hnew := wired_of_resolve accepted
  have hkept := Runs.keeps (P := fun task : Task κ => Sound m.document task ∧
      task.Everywhere Complete)
    (fun _ moves h => ⟨moves.sound (attached_none _) h.1,
      moves.complete delivers (attached_none _) (h.1.mono fun d hd => hd.1) h.2⟩)
    run ⟨sound_ready params hnew, everywhere_complete_ready (hnew.mono fun d hd => hd.2) params⟩
  exact hkept.2

end Machine

end Scheduling

end WorkflowEngine
