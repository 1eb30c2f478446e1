import WorkflowEngine.Proofs.Changes
import WorkflowEngine.Proofs.Validation

/-!
# The trees of a run

What every tree of a run looks like, in two groups.

**Wiring.**  The tasks below a task stay those of its process, also below the elements that are built
during the run: `Moves.wired`.

**Tidiness.**  `Tidy` says for each phase of a task what can be found below it: nothing has happened
below a task that waits, and below one that has returned nothing can happen any more.  Every tree of a
run is tidy: `sound_of_runs`.
-/

namespace WorkflowEngine.Scheduling

variable {σ κ : Type}

/-! ## Wiring -/

lemma infosBelow_abandon (task : Task κ) (reason : String) :
    infosBelow (task.abandon reason) = infosBelow task := by
  simp [infosBelow, Function.comp_def]

lemma Wired.abandon {document : Document} {task : Task κ} (h : Wired document task)
    (reason : String) : Wired document (task.abandon reason) :=
  h.congr (Task.info_abandon task reason) (infosBelow_abandon task reason)

lemma Wired.withPhase {document : Document} {task : Task κ} (h : Wired document task)
    (phase : Phase κ) : Wired document (task.withPhase phase) :=
  h.congr (Task.info_withPhase task phase) (by rw [infosBelow, Task.children_withPhase, infosBelow])

lemma Wired.ready {document : Document} {task : Task κ} (h : Wired document task)
    (params : Values) : Wired document (Machine.ready task params) :=
  h.congr (by simp [Machine.ready]) (by simp [infosBelow, Machine.ready])

/-- A tool has no tasks below it. -/
lemma Wired.children_of_isTool {document : Document} {task : Task κ} (h : Wired document task)
    (tool : task.info.isTool = true) : task.children = [] := by
  have hw : task.info.process.isWorkflow = false := by
    simp [TaskInfo.isTool] at tool
    exact tool.1
  cases hc : task.children with
  | nil => rfl
  | cons p rest =>
      obtain ⟨step, hstep, -⟩ := 
        h.child p.1 p.2 ((OrderedMap.find?_eq_some_iff h.nodup).mpr (by simp [hc]))
      simp [stepWith?, OrderedMap.lastWith, steps_eq_nil hw] at hstep

lemma New.isDone {task : Task κ} (h : New task) : task.isDone = false := by
  simp [Task.isDone, Task.status, h.state, TaskState.fresh, Status.isFinal]

/-- The steps that the sources of a wired workflow come from are there. -/
lemma Wired.isSome_producer {document : Document} {task : Task κ} (h : Wired document task)
    (plain : task.info.isScatter = false) {source producer : String}
    (hp : (outputSteps task.info.process).find? source = some producer) :
    (task.children.find? producer).isSome = true :=
  h.present plain producer (stepWith?_of_outputSteps hp)

lemma Wired.plain_of_child {document : Document} {task child : Task κ} {id : String}
    (h : Wired document task) (hf : task.children.find? id = some child) :
    task.info.isScatter = false := by
  cases hs : task.info.isScatter with
  | false => rfl
  | true => simp [h.scattered hs] at hf

/-- A child of a wired task is fed as a step. -/
lemma Wired.attached {document : Document} {task child : Task κ} {id : String}
    (h : Wired document task) (hf : task.children.find? id = some child) (cancelled : Bool) :
    Machine.Attached (some (.ofTask cancelled task)) child := by
  intro s hs
  obtain rfl := Option.some.inj hs
  obtain ⟨step, -, hstep⟩ := h.child id child hf
  refine ⟨by simp [hstep], fun source producer hp => ?_⟩
  rw [Machine.find?_steps_ofTask, Option.isSome_map]
  exact h.isSome_producer (h.plain_of_child hf) hp

namespace Machine

/-- The elements are trees of the step's process, counted from one, each with the parameters of one
run. -/
lemma forall₂_elementsOf {m : Machine σ κ} {info : TaskInfo} {params : Values}
    {elements : List (Task κ)} (h : m.elementsOf info params = .ok elements) :
    ∃ step all, info.step = some step ∧ combinations step params = .ok all ∧
      List.Forall₂ (fun run e => ∃ built : Task κ, elementTask m.document info run.2 = .ok built ∧
        e = ready built run.1) (all.zipIdx 1) elements := by
  unfold elementsOf at h
  split at h
  · simp [throw, throwThe, MonadExceptOf.throw] at h
  · next step hstep =>
      obtain ⟨all, hall, h⟩ := bind_eq_ok.mp h
      refine ⟨step, all, hstep, hall, (mapM_eq_ok_iff.mp h).imp fun run e he => ?_⟩
      obtain ⟨built, hb, he⟩ := bind_eq_ok.mp he
      exact ⟨built, hb, (Except.ok.inj he).symm⟩

/-- An element is the tree of the step's process with the parameters of one run. -/
lemma mem_elementsOf {m : Machine σ κ} {info : TaskInfo} {params : Values}
    {elements : List (Task κ)} (h : m.elementsOf info params = .ok elements) {e : Task κ}
    (he : e ∈ elements) : ∃ (index : Nat) (built : Task κ) (own : Values),
      elementTask m.document info index = .ok built ∧ e = ready built own := by
  obtain ⟨_, all, -, -, hall⟩ := forall₂_elementsOf h
  obtain ⟨run, -, built, hb, he⟩ := forall₂_mem_right hall he
  exact ⟨run.2, built, run.1, hb, he⟩

/-- Only what the task itself is and what is directly below it has changed: the rest was in the tree. -/
lemma everywhere_withPhase {P : Task κ → Prop} {task : Task κ} {phase : Phase κ}
    (h : task.Everywhere P) (here : P (task.withPhase phase)) :
    (task.withPhase phase).Everywhere P := by
  refine Task.everywhere_iff.mpr ⟨here, fun p hp => ?_, fun e he => ?_⟩
  · rw [Task.children_withPhase] at hp
    exact h.child hp
  · rw [Task.elements_withPhase] at he
    exact h.element he

lemma everywhere_ready {P : Task κ → Prop} {task : Task κ} {params : Values}
    (h : task.Everywhere P) (here : P (ready task params)) : (ready task params).Everywhere P := by
  refine Task.everywhere_iff.mpr ⟨here, fun p hp => h.child ?_, fun e he => h.element ?_⟩
  · simpa [Machine.ready] using hp
  · simpa [Machine.ready] using he

lemma GivenUpBelow.mem_children {task next : Task κ} (h : GivenUpBelow task next)
    {p : String × Task κ} (hp : p ∈ next.children) :
    ∃ q ∈ task.children, ∃ reason, p.2 = q.2.abandon reason := by
  obtain ⟨q, hq, -, hr⟩ := forall₂_mem_right h.children hp
  exact ⟨q, hq, hr⟩

lemma GivenUpBelow.mem_elements {task next : Task κ} (h : GivenUpBelow task next) {e : Task κ}
    (he : e ∈ next.elements) : ∃ d ∈ task.elements, ∃ reason, e = d.abandon reason :=
  forall₂_mem_right h.elements he

lemma GivenUpBelow.infosBelow {task next : Task κ} (h : GivenUpBelow task next) :
    infosBelow next = infosBelow task := by
  refine map_eq_of_forall₂ (h.children.imp fun p q hpq => ?_)
  obtain ⟨hid, reason, hr⟩ := hpq
  rw [hid, hr, Task.info_abandon]

/-- A property that is kept by giving up and by being let wait, and that the elements have when they are
built, holds everywhere after a change when it holds of the task itself. -/
lemma Outline.everywhere_built {m : Machine σ κ} {P : Task κ → Prop} {supply : Option Supply}
    {task next : Task κ} (h : m.Outline supply task next) (attached : Attached supply task)
    (hP : task.Everywhere P) (here : P next)
    (given : ∀ (d : Task κ) (reason : String), P d → P (d.abandon reason))
    (let_ : ∀ d : Task κ, P d → P (d.withPhase .waiting))
    (new : ∀ (index : Nat) (built : Task κ) (own : Values),
      elementTask m.document task.info index = .ok built → (ready built own).Everywhere P) :
    next.Everywhere P := by
  cases h with
  | ended _ ends =>
      refine Task.everywhere_iff.mpr ⟨here, fun p hp => ?_, fun e he => ?_⟩
      · obtain ⟨q, hq, reason, hr⟩ := ends.below.mem_children hp
        rw [hr]
        exact (hP.child hq).abandon reason fun d hd => given d reason hd
      · obtain ⟨d, hd, reason, hr⟩ := ends.below.mem_elements he
        rw [hr]
        exact (hP.element hd).abandon reason fun d hd => given d reason hd
  | stray isSome none _ _ => exact absurd none (attached.isStep isSome)
  | scattered _ _ planned _ _ _ children =>
      refine Task.everywhere_iff.mpr ⟨here, fun p hp => hP.child (children ▸ hp), fun e he => ?_⟩
      obtain ⟨index, built, own, hb, rfl⟩ := mem_elementsOf planned he
      exact new index built own hb
  | opened _ _ _ _ _ children elements =>
      refine Task.everywhere_iff.mpr ⟨here, fun p hp => ?_, fun e he => hP.element (elements ▸ he)⟩
      rw [children, List.mem_map] at hp
      obtain ⟨q, hq, rfl⟩ := hp
      exact everywhere_withPhase (hP.child hq) (let_ q.2 (hP.child hq).here)
  | atWork _ _ _ _ children elements =>
      exact Task.everywhere_iff.mpr
        ⟨here, fun p hp => hP.child (children ▸ hp), fun e he => hP.element (elements ▸ he)⟩

/-- In a tree built from a valid process the elements are wired and new. -/
lemma Outline.everywhere {m : Machine σ κ} {P : Task κ → Prop} {supply : Option Supply}
    {task next : Task κ} (h : m.Outline supply task next) (attached : Attached supply task)
    (valid : Valid m.document task.info.process) (hP : task.Everywhere P) (here : P next)
    (given : ∀ (d : Task κ) (reason : String), P d → P (d.abandon reason))
    (let_ : ∀ d : Task κ, P d → P (d.withPhase .waiting))
    (new : ∀ (built : Task κ) (own : Values),
      built.Everywhere (fun d => Wired m.document d ∧ New d) → (ready built own).Everywhere P) :
    next.Everywhere P :=
  h.everywhere_built attached hP here given let_ fun _ built own hb =>
    new built own (wired_of_elementTask valid hb)

/-- What the tasks below a task are changes only when elements are built. -/
lemma Outline.infosBelow {m : Machine σ κ} {supply : Option Supply} {task next : Task κ}
    (h : m.Outline supply task next) (attached : Attached supply task) :
    infosBelow next = infosBelow task := by
  cases h with
  | ended _ ends => exact ends.below.infosBelow
  | stray isSome none _ _ => exact absurd none (attached.isStep isSome)
  | scattered _ _ _ _ _ _ children => rw [Scheduling.infosBelow, children, Scheduling.infosBelow]
  | opened _ _ _ _ _ children _ => simp [Scheduling.infosBelow, children, Function.comp_def]
  | atWork _ _ _ _ children _ => rw [Scheduling.infosBelow, children, Scheduling.infosBelow]

/-- A child that goes on stays what it is. -/
lemma infosBelow_replaceChild {task child next : Task κ} {id : String}
    (nodup : task.children.keys.Nodup) (hf : task.children.find? id = some child)
    (info : next.info = child.info) :
    infosBelow (task.withChildren (replaceChild task.children id next)) = infosBelow task := by
  rw [infosBelow, Task.children_withChildren, replaceChild_eq, List.map_map, infosBelow]
  refine List.map_congr_left fun p hp => ?_
  by_cases hk : p.1 = id
  · have hp' := (OrderedMap.find?_eq_some_iff nodup).mpr hp
    rw [hk, hf] at hp'
    simp [hk, info, Option.some.inj hp']
  · simp [hk]

/-- **The wiring of a tree is kept.** -/
theorem Moves.wired {m : Machine σ κ} {c : Circumstances σ} {world : σ} {supply : Option Supply}
    {task next : Task κ} (moves : m.Moves c world supply task next)
    (attached : Attached supply task) (h : task.Everywhere (Wired m.document)) :
    next.Everywhere (Wired m.document) := by
  refine Moves.everywhere (Q := Wired m.document) (fun hw hf => hw.attached hf)
    ?_ ?_ ?_ moves attached h h
  · intro supply task next attached happens hw _
    have houtline := happens.change.outline
    refine houtline.everywhere attached hw.here.valid hw ?_ (fun d reason hd => hd.abandon reason)
      (fun d hd => hd.withPhase _) fun built own hb =>
        everywhere_ready (hb.mono fun d hd => hd.1) (hb.here.1.ready own)
    exact hw.here.congr houtline.info (houtline.infosBelow attached)
  · intro task child next id hw _ hf below _
    exact hw.here.congr (Task.info_withChildren _ _)
      (infosBelow_replaceChild hw.here.nodup hf below.info)
  · intro task element next place hw _ _ _ _
    exact hw.here.congr (Task.info_withElements _ _)
      (by rw [infosBelow, Task.children_withElements, infosBelow])

/-! ## Tidiness -/

/-- Nothing can happen to the task. -/
def Resting (task : Task κ) : Prop := task.phase = .idle ∨ task.phase.isOver = true

/-- What can be found below a task, phase by phase. -/
structure Tidy (task : Task κ) : Prop where
  idle : task.phase = .idle → task.Everywhere fun d => d.phase = .idle
  waiting : task.phase = .waiting → task.isDone = false ∧ task.state.events = [] ∧
    task.elements = [] ∧ ∀ p ∈ task.children, p.2.Everywhere New
  working : ∀ tool, task.phase = .working tool →
    task.isDone = false ∧ task.children = [] ∧ task.elements = []
  joining : task.phase = .joining → task.isDone = false ∧
    (∀ p ∈ task.children, p.2.phase ≠ .idle) ∧ ∀ e ∈ task.elements, e.phase ≠ .idle
  returned : task.phase = .returned → task.Everywhere fun d => d.isDone = true ∧ Resting d
  aborted : task.phase = .aborted → task.children = [] ∧ task.elements = []

/-- What is known of every task of a tree. -/
def Sound (document : Document) (task : Task κ) : Prop :=
  task.Everywhere fun d => Wired document d ∧ Tidy d

lemma tidy_of_idle {task : Task κ} (h : task.Everywhere fun d => d.phase = .idle) : Tidy task where
  idle _ := h
  waiting hw := by simp [h.here] at hw
  working tool hw := by simp [h.here] at hw
  joining hj := by simp [h.here] at hj
  returned hr := by simp [h.here] at hr
  aborted ha := by simp [h.here] at ha

lemma tidy_of_returned {task : Task κ} (phase : task.phase = .returned)
    (h : task.Everywhere fun d => d.isDone = true ∧ Resting d) : Tidy task where
  idle hi := by simp [phase] at hi
  waiting hw := by simp [phase] at hw
  working tool hw := by simp [phase] at hw
  joining hj := by simp [phase] at hj
  returned _ := h
  aborted ha := by simp [phase] at ha

/-- A task that was built and is let wait is tidy. -/
lemma tidy_of_new {task next : Task κ} (h : task.Everywhere New) (phase : next.phase = .waiting)
    (done : next.isDone = false) (events : next.state.events = [])
    (children : next.children = task.children) (elements : next.elements = task.elements) :
    Tidy next where
  idle hi := by simp [phase] at hi
  waiting _ := ⟨done, events, elements.trans h.here.elements, fun p hp => h.child (children ▸ hp)⟩
  working tool hw := by simp [phase] at hw
  joining hj := by simp [phase] at hj
  returned hr := by simp [phase] at hr
  aborted ha := by simp [phase] at ha

lemma everywhere_tidy_of_new {task : Task κ} (h : task.Everywhere New) : task.Everywhere Tidy :=
  (h.mono fun _ hd => hd.phase).everywhere.mono fun _ hd => tidy_of_idle hd

lemma everywhere_tidy_ready {task : Task κ} (h : task.Everywhere New) (params : Values) :
    (ready task params).Everywhere Tidy := by
  refine everywhere_ready (everywhere_tidy_of_new h) (tidy_of_new h ?_ ?_ ?_ ?_ ?_)
  · simp [Machine.ready]
  · simpa [Machine.ready, Task.isDone] using h.here.isDone
  · simp [Machine.ready, Task.setParameters, h.here.state, TaskState.fresh]
  · simp [Machine.ready]
  · simp [Machine.ready]

lemma everywhere_tidy_withPhase {task : Task κ} (h : task.Everywhere New) :
    (task.withPhase .waiting).Everywhere Tidy := by
  refine everywhere_withPhase (everywhere_tidy_of_new h)
    (tidy_of_new h (by simp) ?_ ?_ (by simp) (by simp))
  · simpa [Task.isDone] using h.here.isDone
  · simp [h.here.state, TaskState.fresh]

/-- A task that joins is tidy when the work below it has been taken up. -/
lemma tidy_of_joining {task : Task κ} (phase : task.phase = .joining) (done : task.isDone = false)
    (children : ∀ p ∈ task.children, p.2.phase ≠ .idle)
    (elements : ∀ e ∈ task.elements, e.phase ≠ .idle) : Tidy task where
  idle hi := by simp [phase] at hi
  waiting hw := by simp [phase] at hw
  working tool hw := by simp [phase] at hw
  joining _ := ⟨done, children, elements⟩
  returned hr := by simp [phase] at hr
  aborted ha := by simp [phase] at ha

/-- A task without tasks below it is tidy while it is at work. -/
lemma tidy_of_leaf {task : Task κ}
    (phase : (∃ tool, task.phase = .working tool) ∨ task.phase = .aborted)
    (done : task.isDone = false) (children : task.children = []) (elements : task.elements = []) :
    Tidy task := by
  rcases phase with ⟨tool, h⟩ | h
  · constructor <;> simp [h, done, children, elements]
  · constructor <;> simp [h, children, elements]

/-- Something only happens to a task that waits, works or joins. -/
lemma Change.not_resting {m : Machine σ κ} {c : Circumstances σ} {world : σ}
    {supply : Option Supply} {task next : Task κ} (h : m.Change c world supply task next) :
    ¬ Resting task := by
  rintro (hp | hp) <;> cases h <;> simp_all [Phase.isOver]

/-- **Where everything rests nothing happens.** -/
theorem not_moves_of_resting {m : Machine σ κ} {c : Circumstances σ} {world : σ}
    {supply : Option Supply} {task next : Task κ} (h : task.Everywhere Resting) :
    ¬ m.Moves c world supply task next := by
  intro moves
  induction moves with
  | here happens => exact happens.change.not_resting h.here
  | child at_ _ ih => exact ih (h.child (OrderedMap.mem_of_find? at_))
  | element at_ _ ih => exact ih (h.element (List.mem_of_getElem? at_))

lemma everywhere_resting_of_new {task : Task κ} (h : task.Everywhere New) :
    task.Everywhere Resting := h.mono fun _ hd => Or.inl hd.phase

/-- Below a task that does not join everything rests. -/
lemma Tidy.rests_below {task : Task κ} (h : Tidy task) (apart : task.phase ≠ .joining) :
    (∀ p ∈ task.children, p.2.Everywhere Resting) ∧ ∀ e ∈ task.elements, e.Everywhere Resting := by
  cases hp : task.phase with
  | joining => exact absurd hp apart
  | idle =>
      have hr := (h.idle hp).mono fun d hd => (Or.inl hd : Resting d)
      exact ⟨fun p hmem => hr.child hmem, fun e hmem => hr.element hmem⟩
  | waiting =>
      obtain ⟨-, -, he, hc⟩ := h.waiting hp
      exact ⟨fun p hmem => everywhere_resting_of_new (hc p hmem), by simp [he]⟩
  | working tool =>
      obtain ⟨-, hc, he⟩ := h.working tool hp
      exact ⟨by simp [hc], by simp [he]⟩
  | aborted =>
      obtain ⟨hc, he⟩ := h.aborted hp
      exact ⟨by simp [hc], by simp [he]⟩
  | returned =>
      have hr := (h.returned hp).mono fun d hd => hd.2
      exact ⟨fun p hmem => hr.child hmem, fun e hmem => hr.element hmem⟩

/-- The work on a task below goes on only while the task joins. -/
lemma Tidy.joining_of_moves {m : Machine σ κ} {c : Circumstances σ} {world : σ} {task : Task κ}
    (h : Tidy task) :
    (∀ {id : String} {child next : Task κ} {supply : Option Supply},
      task.children.find? id = some child → m.Moves c world supply child next →
        task.phase = .joining) ∧
    ∀ {place : Nat} {element next : Task κ} {supply : Option Supply},
      task.elements[place]? = some element → m.Moves c world supply element next →
        task.phase = .joining := by
  constructor
  · intro id child next supply hf hm
    by_contra apart
    exact not_moves_of_resting ((h.rests_below apart).1 _ (OrderedMap.mem_of_find? hf)) hm
  · intro place element next supply hf hm
    by_contra apart
    exact not_moves_of_resting ((h.rests_below apart).2 _ (List.mem_of_getElem? hf)) hm

lemma Tidy.abandon {task : Task κ} (h : Tidy task) (rests : Resting task) (reason : String) :
    Tidy (task.abandon reason) := by
  rcases rests with hp | hp
  · exact tidy_of_idle ((h.idle hp).abandon reason fun d hd => by rwa [Task.phase_abandon])
  · cases hphase : task.phase with
    | returned =>
        rw [Task.abandon_eq_self ((h.returned hphase).mono fun d hd => hd.1)]
        exact h
    | aborted =>
        obtain ⟨hc, he⟩ := h.aborted hphase
        constructor <;> simp [hphase, hc, he]
    | _ => simp [hphase, Phase.isOver] at hp

/-- Work that is over has nothing going on below it. -/
lemma resting_of_isOver {task : Task κ} (h : Tidy task) (ended : task.phase.isOver = true) :
    task.Everywhere Resting := by
  cases hp : task.phase with
  | returned => exact (h.returned hp).mono fun d hd => hd.2
  | aborted =>
      obtain ⟨hc, he⟩ := h.aborted hp
      exact Task.everywhere_iff.mpr ⟨Or.inr ended, by simp [hc], by simp [he]⟩
  | _ => simp [hp, Phase.isOver] at ended

/-- A task that ends has nothing going on below it. -/
lemma Ends.everywhere {task next : Task κ} (ends : Ends task next) (h : task.Everywhere Tidy)
    (before : task.phase = .waiting ∨ (∃ tool, task.phase = .working tool) ∨
      task.phase = .joining ∧ BelowOver task) :
    next.Everywhere fun d => (d.isDone = true ∧ Resting d) ∧ Tidy d := by
  have hbelow : (∀ p ∈ task.children, p.2.Everywhere Resting) ∧
      ∀ e ∈ task.elements, e.Everywhere Resting := by
    rcases before with hp | ⟨tool, hp⟩ | ⟨-, rested⟩
    · exact h.here.rests_below (by simp [hp])
    · exact h.here.rests_below (by simp [hp])
    · exact ⟨fun p hp => resting_of_isOver (h.child hp).here (rested.1 p hp),
        fun e he => resting_of_isOver (h.element he).here (rested.2 e he)⟩
  have hgive {d : Task κ} (hd : d.Everywhere Tidy) (hr : d.Everywhere Resting) (reason : String) :
      (d.abandon reason).Everywhere fun d => (d.isDone = true ∧ Resting d) ∧ Tidy d := by
    have hkept := (hr.and hd).abandon reason fun e he =>
      ⟨by simpa [Resting] using he.1, he.2.abandon he.1 reason⟩
    exact ((Task.everywhere_isDone_abandon d reason).and hkept).mono
      fun e he => ⟨⟨he.1, he.2.1⟩, he.2.2⟩
  have hchildren (p : String × Task κ) (hp : p ∈ next.children) :
      p.2.Everywhere fun d => (d.isDone = true ∧ Resting d) ∧ Tidy d := by
    obtain ⟨q, hq, reason, hr⟩ := ends.below.mem_children hp
    exact hr ▸ hgive (h.child hq) (hbelow.1 q hq) reason
  have helements (e : Task κ) (he : e ∈ next.elements) :
      e.Everywhere fun d => (d.isDone = true ∧ Resting d) ∧ Tidy d := by
    obtain ⟨d, hd, reason, hr⟩ := ends.below.mem_elements he
    exact hr ▸ hgive (h.element hd) (hbelow.2 d hd) reason
  have hrest : next.Everywhere fun d => d.isDone = true ∧ Resting d :=
    Task.everywhere_iff.mpr ⟨⟨ends.done, Or.inr (by rw [ends.phase]; rfl)⟩,
      fun p hp => (hchildren p hp).mono fun d hd => hd.1,
      fun e he => (helements e he).mono fun d hd => hd.1⟩
  exact Task.everywhere_iff.mpr
    ⟨⟨hrest.here, tidy_of_returned ends.phase hrest⟩, hchildren, helements⟩

lemma Moves.phase_ne_idle {m : Machine σ κ} {c : Circumstances σ} {world : σ}
    {supply : Option Supply} {task next : Task κ} (h : m.Moves c world supply task next)
    (busy : task.phase ≠ .idle) : next.phase ≠ .idle := by
  cases h with
  | here happens => exact happens.change.outline.phase_ne_idle
  | child _ _ => rwa [Task.phase_withChildren]
  | element _ _ => rwa [Task.phase_withElements]

/-- What happens to a task leaves the tree tidy. -/
lemma Outline.everywhere_tidy {m : Machine σ κ} {supply : Option Supply} {task next : Task κ}
    (h : m.Outline supply task next) (attached : Attached supply task) (wired : Wired m.document task)
    (tidy : task.Everywhere Tidy) : next.Everywhere Tidy := by
  cases h with
  | ended before ends => exact (ends.everywhere tidy before).mono fun d hd => hd.2
  | stray isSome none _ _ => exact absurd none (attached.isStep isSome)
  | scattered waiting scatter planned info done phase children =>
      have hchildren : next.children = [] := children.trans (wired.scattered scatter)
      have helement {e : Task κ} (he : e ∈ next.elements) :
          e.phase ≠ .idle ∧ e.Everywhere Tidy := by
        obtain ⟨index, built, own, hb, rfl⟩ := mem_elementsOf planned he
        have hnew := (wired_of_elementTask wired.valid hb).mono fun d hd => hd.2
        exact ⟨by simp [Machine.ready], everywhere_tidy_ready hnew own⟩
      have hnext : Tidy next := tidy_of_joining phase (done.trans (tidy.here.waiting waiting).1)
        (by simp [hchildren]) fun e he => (helement he).1
      exact Task.everywhere_iff.mpr ⟨hnext, by simp [hchildren], fun e he => (helement he).2⟩
  | opened waiting plain info done phase children elements =>
      obtain ⟨hdone, -, he, hc⟩ := tidy.here.waiting waiting
      have helements : next.elements = [] := elements.trans he
      have hchild {p : String × Task κ} (hp : p ∈ next.children) :
          p.2.phase ≠ .idle ∧ p.2.Everywhere Tidy := by
        rw [children, List.mem_map] at hp
        obtain ⟨q, hq, rfl⟩ := hp
        exact ⟨by simp, everywhere_tidy_withPhase (hc q hq)⟩
      have hnext : Tidy next := tidy_of_joining phase (done.trans hdone)
        (fun p hp => (hchild hp).1) (by simp [helements])
      exact Task.everywhere_iff.mpr ⟨hnext, fun p hp => (hchild hp).2, by simp [helements]⟩
  | atWork before info done phase children elements =>
      have hleaf : task.isDone = false ∧ task.children = [] ∧ task.elements = [] := by
        rcases before with ⟨waiting, tool⟩ | ⟨tool, working⟩
        · obtain ⟨hdone, -, he, -⟩ := tidy.here.waiting waiting
          exact ⟨hdone, wired.children_of_isTool tool, he⟩
        · exact tidy.here.working tool working
      obtain ⟨hdone, hc, he⟩ := hleaf
      exact Task.everywhere_iff.mpr ⟨tidy_of_leaf phase (done.trans hdone) (children.trans hc)
        (elements.trans he), by simp [children, hc], by simp [elements, he]⟩

/-- **The trees of a run stay tidy.** -/
theorem Moves.tidy {m : Machine σ κ} {c : Circumstances σ} {world : σ} {supply : Option Supply}
    {task next : Task κ} (moves : m.Moves c world supply task next)
    (attached : Attached supply task) (hw : task.Everywhere (Wired m.document))
    (h : task.Everywhere Tidy) : next.Everywhere Tidy := by
  refine Moves.everywhere (Q := Wired m.document) (fun hw hf => hw.attached hf)
    ?_ ?_ ?_ moves attached hw h
  · intro supply task next attached happens hw h
    exact happens.change.outline.everywhere_tidy attached hw.here h
  · intro task child next id _ h hf below _
    have hp := h.here.joining_of_moves.1 hf below
    obtain ⟨hdone, hc, he⟩ := h.here.joining hp
    have hnext := below.phase_ne_idle (hc _ (OrderedMap.mem_of_find? hf))
    refine tidy_of_joining (by rwa [Task.phase_withChildren]) (by simpa [Task.isDone] using hdone)
      (fun p hp => ?_) (by simpa using he)
    rw [Task.children_withChildren] at hp
    rcases mem_replaceChild hp with ⟨-, hq⟩ | hq
    · rwa [hq]
    · exact hc p hq
  · intro task element next place _ h hf below _
    have hp := h.here.joining_of_moves.2 hf below
    obtain ⟨hdone, hc, he⟩ := h.here.joining hp
    have hnext := below.phase_ne_idle (he _ (List.mem_of_getElem? hf))
    refine tidy_of_joining (by rwa [Task.phase_withElements]) (by simpa [Task.isDone] using hdone)
      (by simpa using hc) fun e hmem => ?_
    rw [Task.elements_withElements] at hmem
    rcases List.mem_or_eq_of_mem_set hmem with hq | rfl
    · exact he e hq
    · exact hnext

/-- What is known of every task of a tree is kept by a move. -/
theorem Moves.sound {m : Machine σ κ} {c : Circumstances σ} {world : σ} {supply : Option Supply}
    {task next : Task κ} (moves : m.Moves c world supply task next)
    (attached : Attached supply task) (h : Sound m.document task) : Sound m.document next := by
  have hw := h.mono fun d hd => hd.1
  exact (moves.wired attached hw).and (moves.tidy attached hw (h.mono fun d hd => hd.2))

lemma sound_ready {document : Document} {task : Task κ} (params : Values)
    (h : task.Everywhere fun d => Wired document d ∧ New d) :
    Sound document (ready task params) :=
  (everywhere_ready (h.mono fun _ hd => hd.1) (h.here.1.ready params)).and
    (everywhere_tidy_ready (h.mono fun _ hd => hd.2) params)

/-- **Every tree of a run** of an accepted document is wired and tidy. -/
theorem sound_of_runs {m : Machine σ κ} {c : Circumstances σ} {root next : Task κ} {params : Values}
    (accepted : resolve m.document = .ok root) (run : m.Runs c (ready root params) next) :
    Sound m.document next :=
  Runs.keeps (P := Sound m.document) (fun _ moves h => moves.sound (attached_none _) h) run
    (sound_ready params (wired_of_resolve accepted))

end Machine

end WorkflowEngine.Scheduling
