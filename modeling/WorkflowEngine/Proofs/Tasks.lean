import WorkflowEngine.Proofs.Maps
import WorkflowEngine.Scheduling.Task

/-!
# Laws of tasks

A tree of tasks is reasoned about from below: `Task.inductionBelow` proves a property of a task from
the same property of the tasks directly below it.

**Parts.**  What each operation on a task changes, and what it leaves.

**Descendants.**  `Task.Everywhere` is a property of a task and all tasks below it;
`Task.everywhere_iff` takes it apart.

**Giving up.**  `Task.abandon` ends every task below (`everywhere_isDone_abandon`) and leaves alone
what has ended (`abandon_eq_self`).

**Facts.**  `Task.facts` is what is known about a task once the run is over, apart from its events and
its phase.
-/

namespace WorkflowEngine.Scheduling

/-! ## States -/

namespace TaskState

@[simp] lemma status_record (state : TaskState) (level : Level) (message : String) :
    (state.record level message).status = state.status := rfl

@[simp] lemma parameters_record (state : TaskState) (level : Level) (message : String) :
    (state.record level message).parameters = state.parameters := rfl

@[simp] lemma outputs_record (state : TaskState) (level : Level) (message : String) :
    (state.record level message).outputs = state.outputs := rfl

/-- A task ends once. -/
lemma finish_eq_self {state : TaskState} (h : state.status.isFinal = true) (id : String)
    (result : Outcome Values) : state.finish id result = state := by
  simp [finish, h]

@[simp] lemma isFinal_finish (state : TaskState) (id : String) (result : Outcome Values) :
    (state.finish id result).status.isFinal = true := by
  unfold finish
  split_ifs with h
  · exact h
  · cases result <;> rfl

@[simp] lemma parameters_finish (state : TaskState) (id : String) (result : Outcome Values) :
    (state.finish id result).parameters = state.parameters := by
  unfold finish
  split_ifs
  · rfl
  · cases result <;> rfl

lemma status_finish_error {state : TaskState} (h : state.status.isFinal = false) (id : String)
    (failure : Failure) :
    (state.finish id (.error failure)).status = .failed (failure.inTask id) := by
  simp [finish, h]

@[simp] lemma isFinal_markRunning (state : TaskState) :
    state.markRunning.status.isFinal = state.status.isFinal := by
  unfold markRunning
  split <;> simp_all [Status.isFinal]

end TaskState

namespace Task

variable {κ : Type}

/-! ## Parts -/

/-- The task with further events. -/
def withEvents (events : List Event) (task : Task κ) : Task κ :=
  task.mapState fun s => { s with events := s.events ++ events }

section Parts

variable (task : Task κ) (f : TaskState → TaskState) (ph : Phase κ) (cs : OrderedMap (Task κ))
  (es : List (Task κ)) (events : List Event) (params : Values) (reason : String)

@[simp] lemma info_mapState : (task.mapState f).info = task.info := by cases task; rfl
@[simp] lemma state_mapState : (task.mapState f).state = f task.state := by cases task; rfl
@[simp] lemma phase_mapState : (task.mapState f).phase = task.phase := by cases task; rfl
@[simp] lemma children_mapState : (task.mapState f).children = task.children := by cases task; rfl
@[simp] lemma elements_mapState : (task.mapState f).elements = task.elements := by cases task; rfl

@[simp] lemma info_withPhase : (task.withPhase ph).info = task.info := by cases task; rfl
@[simp] lemma state_withPhase : (task.withPhase ph).state = task.state := by cases task; rfl
@[simp] lemma phase_withPhase : (task.withPhase ph).phase = ph := by cases task; rfl
@[simp] lemma children_withPhase : (task.withPhase ph).children = task.children := by cases task; rfl
@[simp] lemma elements_withPhase : (task.withPhase ph).elements = task.elements := by cases task; rfl

@[simp] lemma info_withChildren : (task.withChildren cs).info = task.info := by cases task; rfl
@[simp] lemma state_withChildren : (task.withChildren cs).state = task.state := by cases task; rfl
@[simp] lemma phase_withChildren : (task.withChildren cs).phase = task.phase := by cases task; rfl
@[simp] lemma children_withChildren : (task.withChildren cs).children = cs := by cases task; rfl
@[simp] lemma elements_withChildren : (task.withChildren cs).elements = task.elements := by
  cases task; rfl

@[simp] lemma info_withElements : (task.withElements es).info = task.info := by cases task; rfl
@[simp] lemma state_withElements : (task.withElements es).state = task.state := by cases task; rfl
@[simp] lemma phase_withElements : (task.withElements es).phase = task.phase := by cases task; rfl
@[simp] lemma children_withElements : (task.withElements es).children = task.children := by
  cases task; rfl
@[simp] lemma elements_withElements : (task.withElements es).elements = es := by cases task; rfl

@[simp] lemma status_withPhase : (task.withPhase ph).status = task.status := by cases task; rfl
@[simp] lemma status_withChildren : (task.withChildren cs).status = task.status := by cases task; rfl
@[simp] lemma status_withElements : (task.withElements es).status = task.status := by cases task; rfl

@[simp] lemma info_setParameters : (task.setParameters params).info = task.info := by cases task; rfl
@[simp] lemma status_setParameters : (task.setParameters params).status = task.status := by
  cases task; rfl
@[simp] lemma parameters_setParameters : (task.setParameters params).state.parameters = params := by
  cases task; rfl
@[simp] lemma phase_setParameters : (task.setParameters params).phase = task.phase := by
  cases task; rfl
@[simp] lemma children_setParameters : (task.setParameters params).children = task.children := by
  cases task; rfl
@[simp] lemma elements_setParameters : (task.setParameters params).elements = task.elements := by
  cases task; rfl

@[simp] lemma record_eq_withEvents (level : Level) (message : String) :
    task.record level message = task.withEvents [⟨level, message⟩] := rfl

@[simp] lemma info_withEvents : (task.withEvents events).info = task.info := by cases task; rfl
@[simp] lemma status_withEvents : (task.withEvents events).status = task.status := by
  cases task; rfl
@[simp] lemma phase_withEvents : (task.withEvents events).phase = task.phase := by cases task; rfl
@[simp] lemma children_withEvents : (task.withEvents events).children = task.children := by
  cases task; rfl
@[simp] lemma elements_withEvents : (task.withEvents events).elements = task.elements := by
  cases task; rfl

lemma abandonChildren_eq (reason : String) (cs : List (String × Task κ)) :
    abandonChildren reason cs = cs.map fun p => (p.1, p.2.abandon reason) := by
  induction cs with
  | nil => rfl
  | cons p rest ih => simp [abandonChildren, ih]

lemma abandonElements_eq (reason : String) (es : List (Task κ)) :
    abandonElements reason es = es.map fun e => e.abandon reason := by
  induction es with
  | nil => rfl
  | cons e rest ih => simp [abandonElements, ih]

@[simp] lemma info_abandon : (task.abandon reason).info = task.info := by
  cases task; simp [abandon, info]

@[simp] lemma state_abandon :
    (task.abandon reason).state = task.state.finish task.info.id (.error (givenUp reason)) := by
  cases task; simp [abandon, info, state]

@[simp] lemma phase_abandon : (task.abandon reason).phase = task.phase := by
  cases task; simp [abandon, phase]

@[simp] lemma children_abandon :
    (task.abandon reason).children = task.children.map fun p => (p.1, p.2.abandon reason) := by
  cases task; simp [abandon, children, abandonChildren_eq]

@[simp] lemma elements_abandon :
    (task.abandon reason).elements = task.elements.map fun e => e.abandon reason := by
  cases task; simp [abandon, elements, abandonElements_eq]

end Parts

/-- Two tasks with the same parts are the same. -/
lemma ext {s t : Task κ} (hi : s.info = t.info) (hs : s.state = t.state) (hp : s.phase = t.phase)
    (hc : s.children = t.children) (he : s.elements = t.elements) : s = t := by
  cases s
  cases t
  simp_all [info, state, phase, children, elements]

/-! ## Descendants -/

/-- **Induction from below.**  A property holds of every task when it passes from the tasks directly
below a task to the task. -/
theorem inductionBelow {motive : Task κ → Prop}
    (step : ∀ task : Task κ, (∀ p ∈ task.children, motive p.2) → (∀ e ∈ task.elements, motive e) →
      motive task) : ∀ task, motive task
  | node info state phase children elements => by
      refine step _ (fun p hp => ?_) (fun e he => ?_)
      · have hlt := List.sizeOf_lt_of_mem (show p ∈ children from hp)
        have hsnd : sizeOf p.2 < sizeOf p := by
          obtain ⟨id, child⟩ := p
          simp only [Prod.mk.sizeOf_spec]
          omega
        exact inductionBelow step p.2
      · have hlt := List.sizeOf_lt_of_mem (show e ∈ elements from he)
        exact inductionBelow step e
termination_by task => sizeOf task
decreasing_by
  all_goals simp_wf
  all_goals omega

lemma descendants_eq (task : Task κ) :
    task.descendants = task :: (task.children.flatMap (fun p => p.2.descendants)
      ++ task.elements.flatMap descendants) := by
  have hc (cs : List (String × Task κ)) :
      childrenDescendants cs = cs.flatMap fun p => p.2.descendants := by
    induction cs with
    | nil => rfl
    | cons p rest ih => simp [childrenDescendants, ih]
  have he (es : List (Task κ)) : elementsDescendants es = es.flatMap descendants := by
    induction es with
    | nil => rfl
    | cons e rest ih => simp [elementsDescendants, ih]
  cases task
  rw [descendants, hc, he]
  rfl

lemma mem_descendants {d task : Task κ} :
    d ∈ task.descendants ↔ d = task ∨ (∃ p ∈ task.children, d ∈ p.2.descendants)
      ∨ ∃ e ∈ task.elements, d ∈ e.descendants := by
  rw [descendants_eq, List.mem_cons, List.mem_append, List.mem_flatMap, List.mem_flatMap]

/-- A property of a task and of all tasks below it. -/
def Everywhere (P : Task κ → Prop) (task : Task κ) : Prop := ∀ d ∈ task.descendants, P d

section Everywhere

variable {P Q : Task κ → Prop} {task : Task κ}

lemma everywhere_iff : Everywhere P task ↔
    P task ∧ (∀ p ∈ task.children, Everywhere P p.2) ∧ ∀ e ∈ task.elements, Everywhere P e := by
  constructor
  · intro h
    exact ⟨h task (mem_descendants.mpr (Or.inl rfl)),
      fun p hp d hd => h d (mem_descendants.mpr (Or.inr (Or.inl ⟨p, hp, hd⟩))),
      fun e he d hd => h d (mem_descendants.mpr (Or.inr (Or.inr ⟨e, he, hd⟩)))⟩
  · rintro ⟨h, hc, he⟩ d hd
    rcases mem_descendants.mp hd with rfl | ⟨p, hp, hd⟩ | ⟨e, hm, hd⟩
    · exact h
    · exact hc p hp d hd
    · exact he e hm d hd

lemma Everywhere.here (h : Everywhere P task) : P task := (everywhere_iff.mp h).1

lemma Everywhere.child (h : Everywhere P task) {p : String × Task κ} (hp : p ∈ task.children) :
    Everywhere P p.2 := (everywhere_iff.mp h).2.1 p hp

lemma Everywhere.element (h : Everywhere P task) {e : Task κ} (he : e ∈ task.elements) :
    Everywhere P e := (everywhere_iff.mp h).2.2 e he

lemma Everywhere.mono (h : Everywhere P task) (hPQ : ∀ d, P d → Q d) : Everywhere Q task :=
  fun d hd => hPQ d (h d hd)

lemma Everywhere.and (hP : Everywhere P task) (hQ : Everywhere Q task) :
    Everywhere (fun d => P d ∧ Q d) task :=
  fun d hd => ⟨hP d hd, hQ d hd⟩

/-- A property that holds of a task and all tasks below holds in the same way of each of these. -/
lemma Everywhere.everywhere (h : Everywhere P task) : Everywhere (Everywhere P) task := by
  induction task using inductionBelow with
  | step task ihc ihe =>
      exact everywhere_iff.mpr
        ⟨h, fun p hp => ihc p hp (h.child hp), fun e he => ihe e he (h.element he)⟩

end Everywhere

/-! ## Giving up -/

/-- A property that is kept when a task is given up is kept everywhere. -/
lemma Everywhere.abandon {P : Task κ → Prop} {task : Task κ} (h : Everywhere P task)
    (reason : String) (keep : ∀ d : Task κ, P d → P (d.abandon reason)) :
    Everywhere P (task.abandon reason) := by
  induction task using inductionBelow with
  | step task ihc ihe =>
      refine everywhere_iff.mpr ⟨keep task h.here, fun p hp => ?_, fun e he => ?_⟩
      · rw [children_abandon, List.mem_map] at hp
        obtain ⟨q, hq, rfl⟩ := hp
        exact ihc q hq (h.child hq)
      · rw [elements_abandon, List.mem_map] at he
        obtain ⟨e', he', rfl⟩ := he
        exact ihe e' he' (h.element he')

/-- **Giving up reaches every task below.** -/
theorem everywhere_isDone_abandon (task : Task κ) (reason : String) :
    Everywhere (fun d => d.isDone = true) (task.abandon reason) := by
  induction task using inductionBelow with
  | step task ihc ihe =>
      refine everywhere_iff.mpr ⟨?_, fun p hp => ?_, fun e he => ?_⟩
      · rw [isDone, status, state_abandon, TaskState.isFinal_finish]
      · rw [children_abandon, List.mem_map] at hp
        obtain ⟨q, hq, rfl⟩ := hp
        exact ihc q hq
      · rw [elements_abandon, List.mem_map] at he
        obtain ⟨e', he', rfl⟩ := he
        exact ihe e' he'

/-- **What has ended is left alone.** -/
theorem abandon_eq_self {task : Task κ} (h : Everywhere (fun d => d.isDone = true) task)
    (reason : String) : task.abandon reason = task := by
  induction task using inductionBelow with
  | step task ihc ihe =>
      have hc : task.children.map (fun p => (p.1, p.2.abandon reason)) = task.children.map id :=
        List.map_congr_left fun p hp => by rw [ihc p hp (h.child hp)]; rfl
      have he : task.elements.map (fun e => e.abandon reason) = task.elements.map id :=
        List.map_congr_left fun e he => by rw [ihe e he (h.element he)]; rfl
      refine ext (by simp) ?_ (by simp) ?_ ?_
      · rw [state_abandon, TaskState.finish_eq_self h.here]
      · rw [children_abandon, hc, List.map_id]
      · rw [elements_abandon, he, List.map_id]

/-! ## Facts -/

/-- What is known about a task once the run is over. -/
structure Facts where
  info : TaskInfo
  status : Status
  parameters : Values
  outputs : Values

/-- The facts of a task. -/
def facts (task : Task κ) : Facts :=
  ⟨task.info, task.status, task.state.parameters, task.state.outputs⟩

section Facts

variable (task : Task κ)

lemma facts_setParameters (params : Values) :
    (task.setParameters params).facts = { task.facts with parameters := params } := by
  cases task; rfl

lemma facts_withEvents (events : List Event) : (task.withEvents events).facts = task.facts := by
  cases task; rfl

lemma facts_withPhase (phase : Phase κ) : (task.withPhase phase).facts = task.facts := by
  cases task; rfl

lemma facts_withChildren (children : OrderedMap (Task κ)) :
    (task.withChildren children).facts = task.facts := by
  cases task; rfl

lemma facts_withElements (elements : List (Task κ)) :
    (task.withElements elements).facts = task.facts := by
  cases task; rfl

end Facts

/-- How a task ends is decided by its facts. -/
lemma facts_finish_congr {s t : Task κ} (h : s.facts = t.facts) (result : Outcome Values) :
    (s.finish result).facts = (t.finish result).facts := by
  simp only [facts, Facts.mk.injEq] at h
  obtain ⟨hi, hs, hp, ho⟩ := h
  rw [status] at hs
  simp only [facts, finish, info_mapState, status, state_mapState, TaskState.finish, hi, hs]
  rw [status] at hs
  split_ifs
  · simp [hs, hp, ho]
  · cases result <;> simp [hp, ho]

end Task

end WorkflowEngine.Scheduling
