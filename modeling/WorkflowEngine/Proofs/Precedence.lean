import WorkflowEngine.Proofs.Completion
import WorkflowEngine.Proofs.Supplies

/-!
# Precedence

A step starts once the steps that it takes values from have succeeded, and it is fed their outputs.

**Starts.**  A task has started when its events say so (`HasStarted`); `Change.starts` lists the ways in
which this can come about.

**Order.**  `Orderly` is the invariant: what is at work has started, below a task that has not started
nothing has, and a step that has started has producers that succeeded.

**Precedence.**  `producers_before_consumers`, for every order of the work.
-/

namespace WorkflowEngine.Scheduling

open Document (Step)

variable {σ κ : Type}

/-! ## Starts -/

/-- The work on the task has been started. -/
def HasStarted (task : Task κ) : Prop :=
  (⟨.info, task.info.startMessage⟩ : Event) ∈ task.state.events

/-- A task that has started goes on having started. -/
lemma HasStarted.of_subset {task next : Task κ} (h : HasStarted task)
    (info : next.info = task.info) (events : task.state.events ⊆ next.state.events) :
    HasStarted next := by
  unfold HasStarted at h ⊢
  rw [info]
  exact events h

@[simp] lemma hasStarted_withPhase (task : Task κ) (phase : Phase κ) :
    HasStarted (task.withPhase phase) ↔ HasStarted task := by
  simp [HasStarted]

@[simp] lemma hasStarted_withChildren (task : Task κ) (children : OrderedMap (Task κ)) :
    HasStarted (task.withChildren children) ↔ HasStarted task := by
  simp [HasStarted]

@[simp] lemma hasStarted_withElements (task : Task κ) (elements : List (Task κ)) :
    HasStarted (task.withElements elements) ↔ HasStarted task := by
  simp [HasStarted]

lemma not_hasStarted_of_events {task : Task κ} (h : task.state.events = []) : ¬ HasStarted task := by
  simp [HasStarted, h]

lemma events_finish_subset (state : TaskState) (id : String) (result : Outcome Values) :
    state.events ⊆ (state.finish id result).events := by
  unfold TaskState.finish
  split_ifs
  · exact fun _ h => h
  · cases result with
    | ok outputs => exact fun _ h => h
    | error failure => exact List.subset_append_left _ _

/-- What ends a task does not start it. -/
lemma mem_events_finish {state : TaskState} {id message : String} {result : Outcome Values}
    (h : (⟨.info, message⟩ : Event) ∈ (state.finish id result).events) :
    (⟨.info, message⟩ : Event) ∈ state.events := by
  unfold TaskState.finish at h
  split_ifs at h
  · exact h
  · cases result with
    | ok outputs => exact h
    | error failure => simpa [TaskState.record] using h

@[simp] lemma hasStarted_abandon (task : Task κ) (reason : String) :
    HasStarted (task.abandon reason) ↔ HasStarted task := by
  unfold HasStarted
  rw [Task.info_abandon, Task.state_abandon]
  exact ⟨mem_events_finish, fun h => events_finish_subset _ _ _ h⟩

/-- What has succeeded stays so. -/
lemma Supplied.continues {task next : Task κ} {source : String} (h : Supplied task source)
    (later : Continues task next) : Supplied next source := by
  obtain ⟨d, hd, hinfo, -⟩ := later [] task rfl
  obtain rfl : next = d := Option.some.inj hd
  intro producer hp
  obtain ⟨child, hc, hs⟩ := h producer (hinfo ▸ hp)
  obtain ⟨child', hc', -, hkept⟩ := later [.child producer] child (by simp [Task.at?, hc])
  refine ⟨child', by simpa [Task.at?, Option.bind_eq_some_iff] using hc', ?_⟩
  have hdone : child.isDone = true := by rw [Task.isDone, hs]; rfl
  rw [← hs]
  exact congrArg Task.Facts.status (hkept hdone)

namespace Machine

lemma hasStarted_takeUp (task : Task κ) : HasStarted (takeUp task) := by
  unfold HasStarted
  rw [info_takeUp]
  simp [takeUp, Task.withEvents]

lemma events_conclude_subset (result : Outcome Values) (task : Task κ) :
    task.state.events ⊆ (conclude result task).state.events := by
  intro event he
  cases result with
  | ok outputs =>
      simp only [conclude, Task.state_withPhase, Task.state_abandon, Task.finish, Task.state_mapState]
      refine events_finish_subset _ _ _ (events_finish_subset _ _ _ ?_)
      simp [Task.withEvents, he]
  | error failure =>
      simp only [conclude, Task.state_withPhase, Task.state_abandon, Task.finish, Task.state_mapState]
      exact events_finish_subset _ _ _ (events_finish_subset _ _ _ he)

lemma hasStarted_conclude {task : Task κ} (h : HasStarted task) (result : Outcome Values) :
    HasStarted (conclude result task) :=
  h.of_subset (info_conclude result task) (events_conclude_subset result task)

lemma hasStarted_setParameters {task : Task κ} (h : HasStarted task) (params : Values) :
    HasStarted (task.setParameters params) :=
  h.of_subset (Task.info_setParameters task params) (by simp [Task.setParameters])

lemma hasStarted_withEvents {task : Task κ} (h : HasStarted task) (events : List Event) :
    HasStarted (task.withEvents events) :=
  h.of_subset (Task.info_withEvents task events) (by simp [Task.withEvents])

lemma hasStarted_takeTurn {task : Task κ} (h : HasStarted task) (turn : Turn κ) :
    HasStarted (takeTurn turn task) := by
  have hafter : HasStarted (afterTurn turn task) :=
    hasStarted_withEvents (hasStarted_setParameters h _) _
  cases hnext : turn.next with
  | done result =>
      rw [takeTurn_done hnext]
      exact hasStarted_conclude hafter result
  | wait tool =>
      rw [takeTurn_wait hnext]
      exact (hasStarted_withPhase _ _).mpr hafter

lemma hasStarted_settleBelow {task : Task κ} (h : HasStarted task) : HasStarted (settleBelow task) := by
  unfold settleBelow
  split_ifs
  · exact (hasStarted_withElements _ _).mpr (hasStarted_withEvents h _)
  · exact (hasStarted_withChildren _ _).mpr (hasStarted_withEvents h _)

/-- The start of the work starts the task. -/
lemma hasStarted_begin (m : Machine σ κ) (task : Task κ) (world : σ) :
    HasStarted (m.begin task world).1 := by
  have hup := hasStarted_takeUp task
  have hb := begun_begin m task world
  generalize (m.begin task world).1 = next at hb ⊢
  cases hb with
  | cancelled _ => exact hasStarted_conclude hup _
  | unscattered _ _ _ => exact hasStarted_conclude hup _
  | unevaluated _ _ _ => exact hasStarted_conclude hup _
  | incomplete _ _ _ _ _ => exact hasStarted_conclude (hasStarted_setParameters hup _) _
  | scattered _ _ _ =>
      rw [hasStarted_withPhase]
      exact hasStarted_withEvents ((hasStarted_withElements _ _).mpr hup) _
  | opened _ _ _ _ _ =>
      rw [hasStarted_withPhase, hasStarted_withChildren]
      exact hasStarted_setParameters hup _
  | turned _ _ _ _ => exact hasStarted_takeTurn (hasStarted_setParameters hup _) _

/-- A step that is refused has not started. -/
lemma not_hasStarted_refuse {task : Task κ} (h : task.state.events = []) (failure : Failure) :
    ¬ HasStarted (refuse failure task) := by
  unfold refuse HasStarted
  intro hmem
  split_ifs at hmem
  · simp only [Task.state_withPhase, Task.state_abandon] at hmem
    have hmem := mem_events_finish hmem
    simp [Task.withEvents, h] at hmem
  · simp only [Task.state_withPhase, Task.state_abandon, Task.finish, Task.state_mapState] at hmem
    have hmem := mem_events_finish (mem_events_finish hmem)
    simp [Task.withEvents, h] at hmem

/-! ## Order -/

/-- What is known of a task and of the steps below it about their starts. -/
structure Orderly (task : Task κ) : Prop where
  atWork : (task.phase = .joining ∨ ∃ tool, task.phase = .working tool) → HasStarted task
  unstarted : ¬ HasStarted task → (task.Everywhere fun d => ¬ HasStarted d) ∧
    (task.status = .pending ∨ ∃ failure, task.status = .failed failure ∧ failure.isCancelled = true)
  supplied : ∀ id child step, task.children.find? id = some child → child.info.step = some step →
    HasStarted child → ∀ source ∈ sourcesOf step, Supplied task source

/-- **What happens to a task starts it, or finds it started**, unless it is refused. -/
lemma Change.hasStarted {m : Machine σ κ} {c : Circumstances σ} {world : σ}
    {supply : Option Supply} {task next : Task κ} (h : m.Change c world supply task next)
    (attached : Attached supply task) (order : Orderly task) :
    HasStarted next ∨ ∃ failure, task.phase = .waiting ∧ Refuses supply task failure ∧
      next = refuse failure task := by
  cases h with
  | stray _ hs none => exact absurd none (attached.isStep (by simp [hs]))
  | refused waiting refuses => exact Or.inr ⟨_, waiting, refuses, rfl⟩
  | begun _ _ => exact Or.inl (hasStarted_begin m _ world)
  | turned working => exact Or.inl (hasStarted_takeTurn (order.atWork (Or.inr ⟨_, working⟩)) _)
  | joined joining _ _ =>
      exact Or.inl (hasStarted_conclude (hasStarted_settleBelow (order.atWork (Or.inl joining))) _)
  | woken joining _ _ => exact Or.inl (hasStarted_conclude (order.atWork (Or.inl joining)) _)
  | brokenStart _ _ _ _ => exact Or.inl ((hasStarted_withPhase _ _).mpr (hasStarted_takeUp _))
  | brokenWork _ working =>
      exact Or.inl ((hasStarted_withPhase _ _).mpr (order.atWork (Or.inr ⟨_, working⟩)))

/-- **A task only starts when it is fed.** -/
lemma Change.starts {m : Machine σ κ} {c : Circumstances σ} {world : σ} {supply : Option Supply}
    {task next : Task κ} (h : m.Change c world supply task next) (attached : Attached supply task)
    (tidy : Tidy task) (order : Orderly task) (before : ¬ HasStarted task)
    (after : HasStarted next) : ∃ params, Feeds supply task params ∧
      (next = (m.begin (task.setParameters params) world).1 ∨
        c.breaksOff ∧ next = (takeUp (task.setParameters params)).withPhase .aborted) := by
  cases h with
  | stray _ hs none => exact absurd none (attached.isStep (by simp [hs]))
  | refused waiting _ =>
      exact absurd after (not_hasStarted_refuse (tidy.waiting waiting).2.1 _)
  | begun _ fed => exact ⟨_, fed, Or.inl rfl⟩
  | brokenStart allowed _ _ fed => exact ⟨_, fed, Or.inr ⟨allowed, rfl⟩⟩
  | turned working => exact absurd (order.atWork (Or.inr ⟨_, working⟩)) before
  | joined joining _ _ => exact absurd (order.atWork (Or.inl joining)) before
  | woken joining _ _ => exact absurd (order.atWork (Or.inl joining)) before
  | brokenWork _ working => exact absurd (order.atWork (Or.inr ⟨_, working⟩)) before

lemma everywhere_not_hasStarted_of_new {task : Task κ} (h : task.Everywhere New) :
    task.Everywhere fun d => ¬ HasStarted d :=
  h.mono fun d hd => not_hasStarted_of_events (by rw [hd.state]; rfl)

/-- A tree in which nothing has started is in order. -/
lemma orderly_of_unstarted {task : Task κ} (h : task.Everywhere fun d => ¬ HasStarted d)
    (idle : task.phase ≠ .joining ∧ ∀ tool, task.phase ≠ .working tool)
    (pending : task.status = .pending) : Orderly task where
  atWork busy := by
    rcases busy with hp | ⟨tool, hp⟩
    · exact absurd hp idle.1
    · exact absurd hp (idle.2 tool)
  unstarted _ := ⟨h, Or.inl pending⟩
  supplied id child step hf _ started :=
    absurd started (h.child (OrderedMap.mem_of_find? hf)).here

lemma Orderly.abandon {task : Task κ} (h : Orderly task) (reason : String) :
    Orderly (task.abandon reason) where
  atWork busy := by
    rw [Task.phase_abandon] at busy
    exact (hasStarted_abandon task reason).mpr (h.atWork busy)
  unstarted before := by
    rw [hasStarted_abandon] at before
    obtain ⟨hbelow, hstatus⟩ := h.unstarted before
    refine ⟨hbelow.abandon reason fun d hd => (hasStarted_abandon d reason).not.mpr hd, Or.inr ?_⟩
    rw [Task.status, Task.state_abandon]
    rcases hstatus with hp | ⟨failure, hf, hcancelled⟩
    · have hopen : task.state.status.isFinal = false := by
        rw [show task.state.status = .pending from hp]
        rfl
      exact ⟨_, TaskState.status_finish_error hopen _ _, rfl⟩
    · have hdone : task.state.status.isFinal = true := by
        rw [show task.state.status = .failed failure from hf]
        rfl
      rw [TaskState.finish_eq_self hdone]
      exact ⟨failure, hf, hcancelled⟩
  supplied id child step hf hs started source hsource := by
    rw [Task.children_abandon, OrderedMap.find?_mapValues, Option.map_eq_some_iff] at hf
    obtain ⟨old, hold, rfl⟩ := hf
    rw [Task.info_abandon] at hs
    rw [hasStarted_abandon] at started
    exact (h.supplied id old step hold hs started source hsource).continues
      (continues_abandon task reason)

lemma Orderly.withPhase {task : Task κ} (h : Orderly task) :
    Orderly (task.withPhase .waiting) where
  atWork busy := by simp at busy
  unstarted before := by
    rw [hasStarted_withPhase] at before
    obtain ⟨hbelow, hstatus⟩ := h.unstarted before
    refine ⟨everywhere_withPhase hbelow ((hasStarted_withPhase _ _).not.mpr before), ?_⟩
    rwa [Task.status_withPhase]
  supplied id child step hf hs started source hsource := by
    rw [Task.children_withPhase] at hf
    exact (h.supplied id child step hf hs started source hsource).continues
      (continues_withPhase task _)

lemma everywhere_not_hasStarted_ready {task : Task κ} (h : task.Everywhere New) (params : Values) :
    (ready task params).Everywhere fun d => ¬ HasStarted d := by
  refine everywhere_ready (everywhere_not_hasStarted_of_new h) (not_hasStarted_of_events ?_)
  simp [ready, Task.setParameters, h.here.state, TaskState.fresh]

lemma everywhere_orderly_ready {task : Task κ} (h : task.Everywhere New) (params : Values) :
    (ready task params).Everywhere Orderly := by
  have hnot := everywhere_not_hasStarted_of_new h
  refine everywhere_ready ?_
    (orderly_of_unstarted (everywhere_not_hasStarted_ready h params) (by simp [ready]) ?_)
  · exact (hnot.everywhere.and h).mono fun d hd =>
      orderly_of_unstarted hd.1 (by simp [hd.2.phase]) (by rw [Task.status, hd.2.state]; rfl)
  · rw [ready, Task.status_withPhase, Task.status_setParameters, Task.status, h.here.state]
    rfl

/-- A step below a task was there before something happened to the task, and this has neither started it
nor brought its work to an end. -/
lemma Outline.child_before {m : Machine σ κ} {supply : Option Supply} {task next : Task κ}
    (h : m.Outline supply task next) (attached : Attached supply task) {id : String}
    {child' : Task κ} (hf : next.children.find? id = some child') :
    ∃ child, task.children.find? id = some child ∧ child'.info = child.info ∧
      (HasStarted child' ↔ HasStarted child) ∧
      (child'.phase = child.phase ∨ child'.phase = .waiting) := by
  cases h with
  | ended _ ends =>
      have hback := ends.below.children.flip
      obtain ⟨child, hc, reason, rfl⟩ := OrderedMap.find?_of_forall₂
        (R := fun v w => ∃ reason, v = w.abandon reason)
        (hback.imp fun p q h => ⟨h.1.symm, h.2⟩) hf
      exact ⟨child, hc, Task.info_abandon _ _, hasStarted_abandon _ _,
        Or.inl (Task.phase_abandon _ _)⟩
  | stray isSome none _ _ => exact absurd none (attached.isStep isSome)
  | scattered _ _ _ _ _ _ children => exact ⟨child', children ▸ hf, rfl, Iff.rfl, Or.inl rfl⟩
  | opened _ _ _ _ _ children _ =>
      rw [children, OrderedMap.find?_mapValues, Option.map_eq_some_iff] at hf
      obtain ⟨child, hc, rfl⟩ := hf
      exact ⟨child, hc, Task.info_withPhase _ _, hasStarted_withPhase _ _,
        Or.inr (Task.phase_withPhase _ _)⟩
  | atWork _ _ _ _ children _ => exact ⟨child', children ▸ hf, rfl, Iff.rfl, Or.inl rfl⟩

lemma status_refuse {task : Task κ} {failure : Failure} (cancelled : failure.isCancelled = true)
    (undone : task.isDone = false) : (refuse failure task).status =
      .failed ((Task.givenUp failure.message).inTask task.info.id) := by
  rw [refuse, if_pos cancelled, Task.status_withPhase, Task.status, Task.state_abandon,
    Task.record_eq_withEvents, Task.info_withEvents]
  refine TaskState.status_finish_error ?_ _ _
  show (task.withEvents _).status.isFinal = false
  rwa [Task.status_withEvents]

lemma isCancelled_of_refuses {supply : Option Supply} {task : Task κ} {failure : Failure}
    (h : Refuses supply task failure) (attached : Attached supply task) :
    failure.isCancelled = true := by
  obtain ⟨s, step, hs, -, hfeed | ⟨rfl, -⟩⟩ := h
  · exact isCancelled_of_feed (attached s hs).2 hfeed
  · rfl

/-- What happens below a task does not start it. -/
lemma Moves.here_of_starts {m : Machine σ κ} {c : Circumstances σ} {world : σ}
    {supply : Option Supply} {task next : Task κ} (h : m.Moves c world supply task next)
    (before : ¬ HasStarted task) (after : HasStarted next) : m.Happens c world supply task next := by
  cases h with
  | here happens => exact happens
  | child _ _ => exact absurd ((hasStarted_withChildren _ _).mp after) before
  | element _ _ => exact absurd ((hasStarted_withElements _ _).mp after) before

/-- What happens to a task leaves it in order. -/
lemma Change.orderly {m : Machine σ κ} {c : Circumstances σ} {world : σ} {supply : Option Supply}
    {task next : Task κ} (change : m.Change c world supply task next)
    (attached : Attached supply task) (sound : Sound m.document task) (later : Continues task next)
    (h : task.Everywhere Orderly) : Orderly next := by
  have houtline := change.outline
  have hsupplied (id : String) (child : Task κ) (step : Step)
      (hf : next.children.find? id = some child) (hs : child.info.step = some step)
      (started : HasStarted child) (source : String) (hsource : source ∈ sourcesOf step) :
      Supplied next source := by
    obtain ⟨old, hold, hinfo, hstarted, -⟩ := houtline.child_before attached hf
    exact (h.here.supplied id old step hold (hinfo ▸ hs) (hstarted.mp started) source
      hsource).continues later
  -- Only a task that is refused comes to its end without having started.
  rcases change.hasStarted attached h.here with started | ⟨failure, waiting, refuses, rfl⟩
  · exact ⟨fun _ => started, fun before => absurd started before, hsupplied⟩
  · obtain ⟨hundone, hevents, -, -⟩ := sound.here.2.waiting waiting
    have hnot := not_hasStarted_refuse hevents failure
    have hbefore : task.Everywhere fun d => ¬ HasStarted d :=
      (h.here.unstarted (not_hasStarted_of_events hevents)).1
    refine ⟨fun busy => ?_, fun _ => ⟨?_, Or.inr ?_⟩, hsupplied⟩
    · simp [(ends_refuse failure task).phase] at busy
    · refine houtline.everywhere attached sound.here.1.valid hbefore hnot
        (fun d reason hd => (hasStarted_abandon d reason).not.mpr hd)
        (fun d hd => (hasStarted_withPhase d _).not.mpr hd) fun built own hb => ?_
      exact everywhere_not_hasStarted_ready (hb.mono fun d hd => hd.2) own
    · exact ⟨_, status_refuse (isCancelled_of_refuses refuses attached) hundone, rfl⟩

/-- A step that has started has been fed, now or before. -/
lemma Moves.supplied {m : Machine σ κ} {c : Circumstances σ} {world : σ} {task child next : Task κ}
    {id : String} {step : Step} (sound : Sound m.document task) (h : task.Everywhere Orderly)
    (at_ : task.children.find? id = some child)
    (below : m.Moves c world (some (.ofTask (m.behavior.cancelled world) task)) child next)
    (hstep : next.info.step = some step) (started : HasStarted next) :
    ∀ source ∈ sourcesOf step, Supplied task source := by
  intro source hsource
  rw [below.info] at hstep
  by_cases before : HasStarted child
  · exact h.here.supplied id child step at_ hstep before source hsource
  · have hmem := OrderedMap.mem_of_find? at_
    have hattached := sound.here.1.attached at_ (m.behavior.cancelled world)
    obtain ⟨params, ⟨step', hs', hfeed⟩, -⟩ := (below.here_of_starts before started).change.starts
      hattached (sound.child hmem).here.2 (h.child hmem).here before started
    obtain rfl : step' = step := Option.some.inj (hs'.symm.trans hstep)
    exact (feed_eq_ok hfeed).1 source hsource

/-- **Every task of a tree stays in order.** -/
theorem Moves.orderly {m : Machine σ κ} {c : Circumstances σ} {world : σ} {supply : Option Supply}
    {task next : Task κ} (moves : m.Moves c world supply task next)
    (attached : Attached supply task) (sound : Sound m.document task)
    (h : task.Everywhere Orderly) : next.Everywhere Orderly := by
  refine Moves.everywhere (Q := fun d => Wired m.document d ∧ Tidy d)
    (fun hd hf => hd.1.attached hf) ?_ ?_ ?_ moves attached sound h
  · intro supply task next attached happens sound h
    have hlater := (Moves.here happens).continues attached sound
    exact happens.change.outline.everywhere attached sound.here.1.valid h
      (happens.change.orderly attached sound hlater h) (fun d reason hd => hd.abandon reason)
      (fun d hd => hd.withPhase) fun built own hb =>
        everywhere_orderly_ready (hb.mono fun d hd => hd.2) own
  · intro task child next id sound h hf below _
    have hlater := (Moves.child hf below : m.Moves c world none _ _).continues (attached_none task) sound
    have hstarted := h.here.atWork (Or.inl (sound.here.2.joining_of_moves.1 hf below))
    refine ⟨fun _ => (hasStarted_withChildren _ _).mpr hstarted,
      fun before => absurd ((hasStarted_withChildren _ _).mpr hstarted) before, ?_⟩
    intro key child' step hf' hs started source hsource
    rw [Task.children_withChildren, find?_replaceChild, Option.map_eq_some_iff] at hf'
    obtain ⟨old, hold, hchild⟩ := hf'
    split_ifs at hchild with hk
    · subst hchild
      exact (below.supplied sound h hf hs started source hsource).continues hlater
    · subst hchild
      exact (h.here.supplied key old step hold hs started source hsource).continues hlater
  · intro task element next place sound h hf below _
    have hlater := (Moves.element hf below : m.Moves c world none _ _).continues (attached_none task)
      sound
    have hstarted := h.here.atWork (Or.inl (sound.here.2.joining_of_moves.2 hf below))
    refine ⟨fun _ => (hasStarted_withElements _ _).mpr hstarted,
      fun before => absurd ((hasStarted_withElements _ _).mpr hstarted) before, ?_⟩
    intro key child step hf' hs started source hsource
    rw [Task.children_withElements] at hf'
    exact (h.here.supplied key child step hf' hs started source hsource).continues hlater

/-! ## Parameters of workflows -/

/-- The parameters of a workflow whose steps are under way are the ones given to it, with its expressions
evaluated and its defaults filled in. -/
def Defaulted (m : Machine σ κ) (task : Task κ) : Prop :=
  ∃ given own, m.ownParameters (task.setParameters given) = .ok own ∧
    Binding.fillDefaults task.info.process own = .ok task.state.parameters

lemma Defaulted.congr {m : Machine σ κ} {task next : Task κ} (h : Defaulted m task)
    (info : next.info = task.info) (params : next.state.parameters = task.state.parameters) :
    Defaulted m next := by
  obtain ⟨given, own, hown, hfilled⟩ := h
  refine ⟨given, own, ?_, by rw [info, params, hfilled]⟩
  rw [← hown]
  simp only [ownParameters, Task.info_setParameters, Task.parameters_setParameters, info]

lemma Change.defaulted {m : Machine σ κ} {c : Circumstances σ} {world : σ} {supply : Option Supply}
    {task next : Task κ} (h : m.Change c world supply task next) (joining : next.phase = .joining)
    (plain : next.info.isScatter = false) : Defaulted m next := by
  have hturn (turn : Turn κ) (before : Task κ) : (takeTurn turn before).phase ≠ .joining := by
    cases hnext : turn.next with
    | done result => simp [takeTurn_done hnext]
    | wait tool => simp [takeTurn_wait hnext]
  cases h with
  | stray _ _ _ => simp at joining
  | refused _ _ => simp [(ends_refuse _ task).phase] at joining
  | turned _ => exact absurd joining (hturn _ _)
  | joined _ _ _ => simp at joining
  | woken _ _ _ => simp at joining
  | brokenStart _ _ _ _ => simp at joining
  | brokenWork _ _ => simp at joining
  | @begun params _ _ =>
      have hb := begun_begin m (task.setParameters params) world
      generalize (m.begin (task.setParameters params) world).1 = next at hb joining plain
      cases hb with
      | scattered _ scatter _ => simp [show task.info.isScatter = true by simpa using scatter] at plain
      | turned _ _ _ _ => exact absurd joining (hturn _ _)
      | @opened own values _ _ hown _ hfilled =>
          refine ⟨params, own, ?_, by simpa using hfilled⟩
          rw [← hown]
          simp [ownParameters]
      | _ => simp at joining

/-- **The steps of a workflow find its defaulted parameters.** -/
theorem Moves.defaulted {m : Machine σ κ} {c : Circumstances σ} {world : σ}
    {supply : Option Supply} {task next : Task κ} (moves : m.Moves c world supply task next)
    (attached : Attached supply task) (hw : task.Everywhere (Wired m.document))
    (h : task.Everywhere fun d => d.phase = .joining → d.info.isScatter = false → Defaulted m d) :
    next.Everywhere fun d => d.phase = .joining → d.info.isScatter = false → Defaulted m d := by
  refine Moves.everywhere (Q := Wired m.document) (fun hw hf => hw.attached hf)
    ?_ ?_ ?_ moves attached hw h
  · intro supply task next attached happens hw h
    refine happens.change.outline.everywhere attached hw.here.valid h happens.change.defaulted
      (fun d reason hd joining plain => ?_) (fun d _ joining => by simp at joining) fun built own hb => ?_
    · rw [Task.phase_abandon] at joining
      rw [Task.info_abandon] at plain
      exact (hd joining plain).congr (Task.info_abandon d reason) (by simp)
    · exact everywhere_ready (hb.mono fun d hd joining => by simp [hd.2.phase] at joining)
        fun joining => by simp [ready] at joining
  · intro task child next id _ h _ _ _ joining plain
    rw [Task.phase_withChildren] at joining
    rw [Task.info_withChildren] at plain
    exact (h.here joining plain).congr (Task.info_withChildren _ _) (by simp)
  · intro task element next place _ h _ _ _ joining plain
    rw [Task.phase_withElements] at joining
    rw [Task.info_withElements] at plain
    exact (h.here joining plain).congr (Task.info_withElements _ _) (by simp)

/-- Every tree of a run is in order, and its workflows have their defaulted parameters. -/
lemma orderly_of_runs {m : Machine σ κ} {c : Circumstances σ} {root tree : Task κ} {params : Values}
    (accepted : resolve m.document = .ok root) (run : m.Runs c (ready root params) tree) :
    tree.Everywhere Orderly ∧
      tree.Everywhere fun d => d.phase = .joining → d.info.isScatter = false → Defaulted m d := by
  have hnew := wired_of_resolve accepted
  have hkept := Runs.keeps (P := fun task : Task κ => Sound m.document task ∧
      task.Everywhere Orderly ∧
      task.Everywhere fun d => d.phase = .joining → d.info.isScatter = false → Defaulted m d)
    (fun _ moves h => ⟨moves.sound (attached_none _) h.1, moves.orderly (attached_none _) h.1 h.2.1,
      moves.defaulted (attached_none _) (h.1.mono fun d hd => hd.1) h.2.2⟩)
    run ⟨sound_ready params hnew, everywhere_orderly_ready (hnew.mono fun d hd => hd.2) params,
      everywhere_ready (hnew.mono fun d hd joining => by simp [hd.2.phase] at joining)
        fun joining => by simp [ready] at joining⟩
  exact hkept.2

/-! ## Precedence -/

/-- **Producer before consumer.**  In every tree of a run of an accepted document, for every step of a
workflow that has been opened:

* once the step has started, all steps that it takes values from have succeeded;
* whatever starts the step does so after its producers have succeeded, and starts it with the values that
  `fedValues` reads off their outputs and off the defaulted parameters of the workflow;
* with a producer that failed, neither the step nor a task below it has started, and the step is pending
  or failed as cancelled. -/
theorem producers_before_consumers {m : Machine σ κ} {c : Circumstances σ} {root tree : Task κ}
    {params : Values} (accepted : resolve m.document = .ok root)
    (run : m.Runs c (ready root params) tree) {address : Address} {workflow child : Task κ}
    {id : String} {step : Step} (at_ : tree.at? address = some workflow)
    (below : workflow.children.find? id = some child) (isStep : child.info.step = some step) :
    (HasStarted child ∨ child.status = .running ∨ child.status = .succeeded →
      ∀ source ∈ sourcesOf step, Supplied workflow source) ∧
    (∀ world next,
      m.Happens c world (some (.ofTask (m.behavior.cancelled world) workflow)) child next →
      ¬ HasStarted child → HasStarted next →
      (∀ source ∈ sourcesOf step, Supplied workflow source) ∧ Defaulted m workflow ∧
        (next = (m.begin (child.setParameters (fedValues workflow step)) world).1 ∨
          c.breaksOff ∧
            next = (takeUp (child.setParameters (fedValues workflow step))).withPhase .aborted)) ∧
    (∀ source ∈ sourcesOf step, ∀ producer failed failure,
      (outputSteps workflow.info.process).find? source = some producer →
      workflow.children.find? producer = some failed → failed.status = .failed failure →
      (∀ d ∈ child.descendants, ¬ HasStarted d) ∧ (child.status = .pending ∨
        ∃ own, child.status = .failed own ∧ own.isCancelled = true)) := by
  have hsound : Sound m.document tree := sound_of_runs accepted run
  obtain ⟨horder, hdefaulted⟩ := orderly_of_runs accepted run
  have hmem := Task.mem_descendants_of_at? at_
  have hmemChild := OrderedMap.mem_of_find? below
  have hsoundHere := hsound.everywhere workflow hmem
  have horderHere := horder.everywhere workflow hmem
  have hchild := (horderHere.child hmemChild).here
  have hstarted (h : HasStarted child ∨ child.status = .running ∨ child.status = .succeeded) :
      HasStarted child := by
    by_contra hnot
    rcases h with h | h
    · exact hnot h
    · rcases (hchild.unstarted hnot).2 with hp | ⟨failure, hf, -⟩
      · rcases h with h | h <;> simp [hp] at h
      · rcases h with h | h <;> simp [hf] at h
  refine ⟨fun h => horderHere.here.supplied id child step below isStep (hstarted h), ?_, ?_⟩
  · intro world next happens before after
    have hattached := hsoundHere.here.1.attached below (m.behavior.cancelled world)
    obtain ⟨fed, ⟨step', hs, hfeed⟩, hnext⟩ := happens.change.starts hattached
      (hsoundHere.child hmemChild).here.2 hchild before after
    obtain rfl : step' = step := Option.some.inj (hs.symm.trans isStep)
    obtain ⟨hsupplied, rfl⟩ := feed_eq_ok hfeed
    have hjoining := hsoundHere.here.2.joining_of_moves.1 below (.here happens)
    exact ⟨hsupplied, hdefaulted workflow hmem hjoining (hsoundHere.here.1.plain_of_child below), hnext⟩
  · intro source hsource producer failed failure hp hc hfailed
    have hnot : ¬ HasStarted child := by
      intro started
      obtain ⟨task, ht, hs⟩ := horderHere.here.supplied id child step below isStep started source
        hsource producer hp
      obtain rfl : failed = task := Option.some.inj (hc.symm.trans ht)
      simp [hfailed] at hs
    exact hchild.unstarted hnot

end Machine

/-- The task of the second step of the relay, when the run has come to its end. -/
def relayFollower : Task Unit :=
  match relayLast.children.find? "#main/second" with
  | some child => child
  | none => default

theorem relay_second_supplied : Supplied relayLast "#main/first/out" := by
  have hrun : relayMachine.Runs (.any Unit) relayStart relayLast :=
    Machine.runs_walk (fun _ => trivial) _ relayStart ()
  have hroot : relayLast.at? [] = some relayLast := rfl
  have hbelow : relayLast.children.find? "#main/second" = some relayFollower := by cbv
  have hstep : relayFollower.info.step = some relaySecond := by cbv
  have hsucceeded : relayFollower.status = .succeeded := by cbv
  have hsource : "#main/first/out" ∈ sourcesOf relaySecond := List.mem_singleton_self _
  exact (Machine.producers_before_consumers relay_accepted hrun hroot hbelow hstep).1
    (Or.inr (Or.inr hsucceeded)) _ hsource

example : fedValues relayLast relaySecond = [("in", .bool true)] := by
  cbv

end WorkflowEngine.Scheduling
