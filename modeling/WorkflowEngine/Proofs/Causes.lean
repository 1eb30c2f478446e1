import WorkflowEngine.Proofs.Expansion
import WorkflowEngine.Proofs.Failures
import WorkflowEngine.Proofs.Likeness
import WorkflowEngine.Proofs.Precedence

/-!
# Why tasks fail

A workflow and a scattered step fail by themselves, or with the failure of a task directly below them.
Cancellations spread to every step that depends on a step that failed, and may be found before the
failure they come from; still they are never what is reported in a run that is not cancelled.

**Causes.**  `OwnFailure` and `FirstBelow` are the two causes for which such a task fails.

**Steps that were refused.**  A step that ended without having started has a producer that failed
(`Bereft`).  Going back from producer to producer the rank falls, so where a step failed there is one
that failed by itself: `exists_ownFailure`.

**What is kept.**  `Caused` is the invariant, and `real_failure_wins` the result.
-/

namespace WorkflowEngine.Scheduling

open Document (Process Step)

variable {σ κ : Type}

open Machine (ownFailure? failureBelow? ready tasksBelow mem_tasksBelow tasksBelow_withPhase Sound
  Tidy Orderly Attached BelowOver)

/-! ## Causes -/

/-- The task failed with the failure of the first task directly below it that failed with no
cancellation: the first in the order in which the steps are declared, or in which the runs of a
scattered step are counted. -/
inductive FirstBelow (task : Task κ) (failure : Failure) : Prop
  | step {before after : List Step} {step : Step} {child : Task κ}
      (steps : task.info.process.steps = before ++ step :: after)
      (found : task.children.find? step.id = some child) (failed : child.status = .failed failure)
      (earlier : ∀ s ∈ before, ∀ other f, task.children.find? s.id = some other →
        other.status = .failed f → f.isCancelled = true)
  | element {place : Nat} {element : Task κ} (scatter : task.info.isScatter = true)
      (found : task.elements[place]? = some element) (failed : element.status = .failed failure)
      (earlier : ∀ k < place, ∀ other f, task.elements[k]? = some other →
        other.status = .failed f → f.isCancelled = true)

/-- The first failure directly below a task that is no cancellation. -/
def firstFailure? (task : Task κ) : Option Failure := (tasksBelow task).findSome? ownFailure?

lemma ownFailure?_eq_some {task : Task κ} {failure : Failure} :
    ownFailure? task = some failure ↔
      task.status = .failed failure ∧ failure.isCancelled = false := by
  unfold ownFailure?
  rw [Option.filter_eq_some_iff]
  cases task.status <;> simp [Status.failure?]

lemma isSome_ownFailure? {task : Task κ} {failure : Failure} (h : task.status = .failed failure)
    (real : failure.isCancelled = false) : (ownFailure? task).isSome = true :=
  Option.isSome_iff_exists.mpr ⟨failure, ownFailure?_eq_some.mpr ⟨h, real⟩⟩

/-- A task that is given up fails by cancellation, or has failed before. -/
lemma ownFailure?_abandon (task : Task κ) (reason : String) :
    ownFailure? (task.abandon reason) = ownFailure? task := by
  unfold ownFailure?
  rw [Task.status, Task.state_abandon, Task.status]
  cases hfinal : task.state.status.isFinal with
  | true => rw [TaskState.finish_eq_self hfinal]
  | false =>
      rw [TaskState.status_finish_error hfinal]
      cases hs : task.state.status <;> simp_all [Status.failure?, Status.isFinal, Task.givenUp] <;> rfl

/-- **The first failure below, as the document has it.**  The children stand in the order of their
steps. -/
theorem firstBelow_of_firstFailure? {document : Document} {task : Task κ}
    (expanded : Expanded document task) (nodup : task.children.keys.Nodup) {failure : Failure}
    (h : firstFailure? task = some failure) : FirstBelow task failure := by
  have hearlier {other : Task κ} {f : Failure} (hnone : ownFailure? other = none)
      (hs : other.status = .failed f) : f.isCancelled = true := by
    by_contra hc
    have hown := ownFailure?_eq_some.mpr ⟨hs, by simpa using hc⟩
    simp [hnone] at hown
  unfold firstFailure? tasksBelow at h
  split_ifs at h with hscatter
  · obtain ⟨front, element, back, hsplit, hown, hfront⟩ := List.findSome?_eq_some_iff.mp h
    have hfound : task.elements[front.length]? = some element := by simp [hsplit]
    refine .element hscatter hfound (ownFailure?_eq_some.mp hown).1 fun k hk other f hother hs => ?_
    rw [hsplit, List.getElem?_append_left hk] at hother
    exact hearlier (hfront other (List.mem_of_getElem? hother)) hs
  · have hplain : task.info.isScatter = false := by simpa using hscatter
    rw [OrderedMap.values, List.findSome?_map] at h
    obtain ⟨front, ⟨id, child⟩, back, hsplit, hown, hfront⟩ := List.findSome?_eq_some_iff.mp h
    have hkeys := expanded.keys hplain
    rw [hsplit, OrderedMap.keys, List.map_append, List.map_cons] at hkeys
    obtain ⟨before, step, after, hsteps, rfl, hbefore⟩ :=
      OrderedMap.exists_split_of_firstKeys hkeys.symm
    have hmem : (step.id, child) ∈ task.children := by simp [hsplit]
    refine .step hsteps ((OrderedMap.find?_eq_some_iff nodup).mpr hmem)
      (ownFailure?_eq_some.mp hown).1 fun s hs other f hother hf => ?_
    -- The child of an earlier step stands in front.
    obtain ⟨⟨id, found⟩, hp, rfl⟩ := List.mem_map.mp (hbefore s hs)
    have hpmem : (s.id, found) ∈ task.children := by
      rw [hsplit]
      exact List.mem_append_left _ hp
    obtain rfl : found = other :=
      Option.some.inj (((OrderedMap.find?_eq_some_iff nodup).mpr hpmem).symm.trans hother)
    exact hearlier (hfront _ hp) hf

/-! ## Steps that were refused -/

/-- A step that the step takes values from has failed. -/
def Bereft (workflow : Task κ) (step : Step) : Prop :=
  ∃ source ∈ sourcesOf step, ∃ producer failed failure,
    (outputSteps workflow.info.process).find? source = some producer ∧
      workflow.children.find? producer = some failed ∧ failed.status = .failed failure

/-- What has failed stays so. -/
lemma Bereft.continues {workflow next : Task κ} {step : Step} (h : Bereft workflow step)
    (later : Continues workflow next) : Bereft next step := by
  obtain ⟨d, hd, hinfo, -⟩ := later [] workflow rfl
  obtain rfl : next = d := Option.some.inj hd
  obtain ⟨source, hsource, producer, failed, failure, hp, hc, hs⟩ := h
  obtain ⟨failed', hc', -, hkept⟩ := later [.child producer] failed (by simp [Task.at?, hc])
  refine ⟨source, hsource, producer, failed', failure, hinfo ▸ hp, ?_, ?_⟩
  · simpa [Task.at?, Option.bind_eq_some_iff] using hc'
  · rw [← hs]
    exact congrArg Task.Facts.status (hkept (Task.isDone_of_failed hs))

/-- **A failed step leads back to one that failed by itself.**  Where it did not start, a producer of it
failed, and producers have a lower rank. -/
theorem exists_ownFailure {workflow : Task κ} (ordered : Ordered workflow.info.process)
    (child : ∀ id child, workflow.children.find? id = some child →
      ∃ step, stepWith? workflow.info.process id = some step ∧ child.info.step = some step)
    (started : ∀ id child f, workflow.children.find? id = some child → HasStarted child →
      child.status = .failed f → f.isCancelled = false)
    (refused : ∀ id child step, workflow.children.find? id = some child →
      child.info.step = some step → ¬ HasStarted child → Bereft workflow step)
    {id : String} {failed : Task κ} {failure : Failure}
    (found : workflow.children.find? id = some failed) (h : failed.status = .failed failure) :
    ∃ task ∈ workflow.children.values, (ownFailure? task).isSome = true := by
  obtain ⟨rank, hrank⟩ := ordered
  induction hn : rank id using Nat.strong_induction_on generalizing id failed failure with
  | _ n ih =>
      by_cases hstarted : HasStarted failed
      · have hreal := started id failed failure found hstarted h
        have hmem : failed ∈ workflow.children.values :=
          List.mem_map_of_mem (f := Prod.snd) (OrderedMap.mem_of_find? found)
        exact ⟨failed, hmem, isSome_ownFailure? h hreal⟩
      · obtain ⟨step, hstep, hinfo⟩ := child id failed found
        obtain ⟨source, hsource, producer, other, cause, hp, hc, hs⟩ :=
          refused id failed step found hinfo hstarted
        have hlt := hrank id step hstep source hsource producer hp
        exact ih (rank producer) (hn ▸ hlt) hc hs rfl

/-! ## What is kept -/

/-- What is known of a task and a failure of it. -/
structure Explained (m : Machine σ κ) (task : Task κ) (failure : Failure) : Prop where
  named : failure.task.isSome = true
  real : task.phase = .returned → HasStarted task → failure.isCancelled = false
  origin : failure.isCancelled = false →
    task.info.isTool = true ∨ OwnFailure m task failure ∨ firstFailure? task = some failure

/-- What is known of a task and of those directly below it in a run that is not cancelled. -/
structure Caused (m : Machine σ κ) (task : Task κ) : Prop where
  taken : HasStarted task → task.phase ≠ .idle
  ended : task.phase = .returned → task.isDone = true
  working : ∀ tool, task.phase = .working tool → task.info.isTool = true
  explained : ∀ failure, task.status = .failed failure → Explained m task failure
  refused : ∀ id child step, task.children.find? id = some child → child.info.step = some step →
    child.phase = .returned → ¬ HasStarted child → Bereft task step
  elements : ∀ e ∈ task.elements, e.phase = .returned → HasStarted e

/-- Giving up the tasks directly below does not change which failure is the first. -/
lemma firstFailure?_of_abandoned {task next : Task κ} {reason : String} (info : next.info = task.info)
    (children : next.children = task.children.map fun p => (p.1, p.2.abandon reason))
    (elements : next.elements = task.elements.map fun e => e.abandon reason) :
    firstFailure? next = firstFailure? task := by
  have hown (tasks : List (Task κ)) :
      (tasks.map fun t => t.abandon reason).findSome? ownFailure? = tasks.findSome? ownFailure? := by
    rw [List.findSome?_map]
    congr 1
    funext t
    exact ownFailure?_abandon t reason
  unfold firstFailure? tasksBelow
  rw [info, children, elements]
  split_ifs
  · exact hown task.elements
  · rw [← hown task.children.values, OrderedMap.values, OrderedMap.values, List.map_map, List.map_map]
    rfl

lemma firstFailure?_abandon (task : Task κ) (reason : String) :
    firstFailure? (task.abandon reason) = firstFailure? task :=
  firstFailure?_of_abandoned (Task.info_abandon task reason) (Task.children_abandon task reason)
    (Task.elements_abandon task reason)

lemma Caused.abandon {m : Machine σ κ} {task : Task κ} (h : Caused m task) (reason : String) :
    Caused m (task.abandon reason) where
  taken started := by
    rw [Task.phase_abandon]
    exact h.taken ((hasStarted_abandon task reason).mp started)
  ended returned := (Task.everywhere_isDone_abandon task reason).here
  working tool busy := by
    rw [Task.phase_abandon] at busy
    rw [Task.info_abandon]
    exact h.working tool busy
  explained failure hf := by
    rcases Machine.status_of_abandon hf with hf | ⟨undone, rfl⟩
    · have hold := h.explained failure hf
      refine ⟨hold.named, fun returned started => ?_, fun real => ?_⟩
      · rw [Task.phase_abandon] at returned
        exact hold.real returned ((hasStarted_abandon task reason).mp started)
      · rw [Task.info_abandon, firstFailure?_abandon]
        exact (hold.origin real).imp_right
          (Or.imp_left fun own => own.congr (Task.info_abandon _ _) (by simp))
    · refine ⟨rfl, fun returned => ?_, fun real => by cases real⟩
      rw [Task.phase_abandon] at returned
      simp [h.ended returned] at undone
  refused id child step hf hs returned before := by
    rw [Task.children_abandon, OrderedMap.find?_mapValues, Option.map_eq_some_iff] at hf
    obtain ⟨old, hold, rfl⟩ := hf
    rw [Task.info_abandon] at hs
    rw [Task.phase_abandon] at returned
    rw [hasStarted_abandon] at before
    exact (h.refused id old step hold hs returned before).continues (continues_abandon task reason)
  elements e he returned := by
    rw [Task.elements_abandon, List.mem_map] at he
    obtain ⟨old, hold, rfl⟩ := he
    rw [Task.phase_abandon] at returned
    exact (hasStarted_abandon old reason).mpr (h.elements old hold returned)

lemma Caused.withPhase {m : Machine σ κ} {task : Task κ} (h : Caused m task) :
    Caused m (task.withPhase .waiting) where
  taken _ := by simp
  ended returned := by simp at returned
  working tool busy := by simp at busy
  explained failure hf := by
    rw [Task.status_withPhase] at hf
    have hold := h.explained failure hf
    refine ⟨hold.named, fun returned => by simp at returned, fun real => ?_⟩
    have hfirst : firstFailure? (task.withPhase .waiting) = firstFailure? task := by
      rw [firstFailure?, firstFailure?, tasksBelow_withPhase]
    rw [Task.info_withPhase, hfirst]
    exact (hold.origin real).imp_right
      (Or.imp_left fun own => own.congr (Task.info_withPhase _ _) (by simp))
  refused id child step hf hs returned before := by
    rw [Task.children_withPhase] at hf
    exact (h.refused id child step hf hs returned before).continues (continues_withPhase task _)
  elements e he := by
    rw [Task.elements_withPhase] at he
    exact h.elements e he

/-- Below a task on which no work has been done nothing has come to an end. -/
lemma caused_of_new {m : Machine σ κ} {task next : Task κ} (h : task.Everywhere New)
    (undone : next.isDone = false)
    (phase : next.phase = .idle ∧ ¬ HasStarted next ∨ next.phase = .waiting)
    (children : next.children = task.children) (elements : next.elements = task.elements) :
    Caused m next where
  taken started := by
    rcases phase with ⟨-, before⟩ | hp
    · exact absurd started before
    · simp [hp]
  ended returned := by
    rcases phase with ⟨hp, -⟩ | hp <;> simp [hp] at returned
  working tool busy := by
    rcases phase with ⟨hp, -⟩ | hp <;> simp [hp] at busy
  explained failure hf := absurd hf (Task.not_failed undone failure)
  refused id child step hf _ returned _ := by
    have hidle := (h.child (OrderedMap.mem_of_find? (children ▸ hf))).here.phase
    simp [hidle] at returned
  elements e he returned := by
    have hidle := (h.element (elements ▸ he)).here.phase
    simp [hidle] at returned

lemma everywhere_caused_ready {m : Machine σ κ} {task : Task κ} (h : task.Everywhere New)
    (params : Values) : (ready task params).Everywhere (Caused m) := by
  refine Machine.everywhere_ready (h.everywhere.mono fun d hd => ?_)
    (caused_of_new h ?_ (Or.inr (by simp [ready])) (by simp [ready]) (by simp [ready]))
  · have hevents : d.state.events = [] := by rw [hd.here.state]; rfl
    exact caused_of_new hd hd.here.isDone (Or.inl ⟨hd.here.phase, not_hasStarted_of_events hevents⟩)
      rfl rfl
  · simpa [ready, Task.isDone] using h.here.isDone

/-- What is known of every task of a run before it is asked why tasks fail. -/
structure Steady (m : Machine σ κ) (task : Task κ) : Prop where
  wired : Wired m.document task
  tidy : Tidy task
  orderly : Orderly task
  expanded : Expanded m.document task
  unbroken : task.phase ≠ .aborted

namespace Machine

/-- Every tree of a run in which no work breaks off is steady. -/
lemma steady_of_runs {m : Machine σ κ} {c : Circumstances σ} {root tree : Task κ} {params : Values}
    (accepted : resolve m.document = .ok root) (calm : ¬ c.breaksOff)
    (run : m.Runs c (ready root params) tree) : tree.Everywhere (Steady m) := by
  intro d hd
  have hsound := sound_of_runs accepted run d hd
  exact ⟨hsound.1, hsound.2, (orderly_of_runs accepted run).1 d hd, expanded_of_runs accepted run d hd,
    fun aborted => calm (breaksOff_of_runs accepted run d hd aborted)⟩

section Joins

variable {m : Machine σ κ} {task : Task κ}

/-- Where no work breaks off, what is over has returned. -/
lemma belowReturned_of_steady (steady : task.Everywhere (Steady m)) (rested : BelowOver task) :
    BelowReturned task := by
  have hreturned {d : Task κ} (h : Steady m d) (ended : d.phase.isOver = true) :
      d.phase = .returned ∧ d.isDone = true := by
    cases hp : d.phase with
    | returned => exact ⟨rfl, (h.tidy.returned hp).here.1⟩
    | aborted => exact absurd hp h.unbroken
    | _ => simp [hp, Phase.isOver] at ended
  exact ⟨fun p hp => hreturned (steady.child hp).here (rested.1 p hp),
    fun e he => hreturned (steady.element he).here (rested.2 e he)⟩

/-- Where a task below failed, one did so with no cancellation. -/
lemma exists_ownFailure_below (steady : Steady m task) (caused : task.Everywhere (Caused m))
    (returned : BelowReturned task) {failed : Task κ} {failure : Failure}
    (below : failed ∈ tasksBelow task) (h : failed.status = .failed failure) :
    ∃ d ∈ tasksBelow task, (ownFailure? d).isSome = true := by
  unfold tasksBelow at below ⊢
  split_ifs at below ⊢ with hscatter
  · have hphase := (returned.2 failed below).1
    have hreal := ((caused.element below).here.explained failure h).real hphase
      (caused.here.elements failed below hphase)
    exact ⟨failed, below, isSome_ownFailure? h hreal⟩
  · obtain ⟨⟨id, child⟩, hmem, rfl⟩ := List.mem_map.mp below
    have hfound := (OrderedMap.find?_eq_some_iff steady.wired.nodup).mpr hmem
    refine exists_ownFailure steady.wired.valid.ordered steady.wired.child
      (fun key other f hf started hs => ?_) (fun key other step hf hs before => ?_) hfound h
    · have hother := OrderedMap.mem_of_find? hf
      exact ((caused.child hother).here.explained f hs).real (returned.1 _ hother).1 started
    · exact caused.here.refused key other step hf hs (returned.1 _ (OrderedMap.mem_of_find? hf)).1
        before

/-- **Cancellations are never alone**: a task fails with the first failure below that is none. -/
theorem firstFailure?_of_failureBelow? (steady : Steady m task) (caused : task.Everywhere (Caused m))
    (returned : BelowReturned task) {unfinished failure : Failure}
    (h : failureBelow? (tasksBelow task) unfinished = some failure) :
    firstFailure? task = some failure := by
  cases hfirst : firstFailure? task with
  | some first =>
      rw [firstFailure?] at hfirst
      rwa [failureBelow?, hfirst, Option.some_or] at h
  | none =>
      have hnone : ∀ d ∈ tasksBelow task, ownFailure? d = none :=
        List.findSome?_eq_none_iff.mp hfirst
      rw [firstFailure?] at hfirst
      rw [failureBelow?, hfirst, Option.none_or] at h
      obtain ⟨failed, hmem, hfound⟩ := List.exists_of_findSome?_eq_some h
      have hdone : failed.isDone = true := by
        rcases mem_tasksBelow hmem with ⟨p, hp, rfl⟩ | he
        · exact (returned.1 p hp).2
        · exact (returned.2 failed he).2
      rw [Task.isDone] at hdone
      cases hs : failed.status with
      | failed cause =>
          obtain ⟨d, hd, hown⟩ := exists_ownFailure_below steady caused returned hmem hs
          simp [hnone d hd] at hown
      | succeeded => simp [hs] at hfound
      | pending => simp [hs, Status.isFinal] at hdone
      | running => simp [hs, Status.isFinal] at hdone

/-- A task that fails when the tasks below it are over fails with the first failure below. -/
lemma explained_of_below (steady : task.Everywhere (Steady m)) (caused : task.Everywhere (Caused m))
    (rested : BelowOver task) {unfinished failure : Failure}
    (found : failureBelow? (tasksBelow task) unfinished = some failure) :
    Explained m (conclude (.error failure) (settleBelow task)) (failure.inTask task.info.id) := by
  have hreturned := belowReturned_of_steady steady rested
  obtain ⟨hsc, hse, -⟩ := settleBelow_of_done hreturned
  have hfirst := firstFailure?_of_failureBelow? steady.here caused hreturned found
  have hsame : firstFailure? (conclude (.error failure) (settleBelow task)) = firstFailure? task :=
    firstFailure?_of_abandoned ((info_conclude _ _).trans (info_settleBelow task))
      ((children_conclude _ _).trans (by rw [hsc])) ((elements_conclude _ _).trans (by rw [hse]))
  obtain ⟨d, hd, hown⟩ := List.exists_of_findSome?_eq_some hfirst
  obtain ⟨hs, hreal⟩ := ownFailure?_eq_some.mp hown
  have hnamed := ((everywhere_tasksBelow caused hd).here.explained failure hs).named
  rw [Failure.inTask_of_named hnamed]
  exact ⟨hnamed, fun _ _ => hreal, fun _ => Or.inr (Or.inr (hsame.trans hfirst))⟩

end Joins

section Live

variable {m : Machine σ κ} {c : Circumstances σ} {world : σ} {supply : Option Supply}
  {task next : Task κ}

/-- A task that came to its end without having started did so before, or is refused. -/
lemma Moves.refuses (moves : m.Moves c world supply task next) (attached : Attached supply task)
    (order : Orderly task) (returned : next.phase = .returned) (before : ¬ HasStarted next) :
    (task.phase = .returned ∧ ¬ HasStarted task) ∨ ∃ failure, Refuses supply task failure := by
  cases moves with
  | here happens =>
      rcases happens.change.hasStarted attached order with started | ⟨failure, -, refuses, -⟩
      · exact absurd started before
      · exact Or.inr ⟨failure, refuses⟩
  | child _ _ => exact Or.inl ⟨by simpa using returned, (hasStarted_withChildren _ _).not.mp before⟩
  | element _ _ => exact Or.inl ⟨by simpa using returned, (hasStarted_withElements _ _).not.mp before⟩

/-- **A step is refused only when a producer of it failed.** -/
lemma bereft_of_refuses {child : Task κ} {step : Step} {failure : Failure}
    (wired : Wired m.document task) (plain : task.info.isScatter = false)
    (hs : child.info.step = some step)
    (h : Refuses (some (.ofTask false task)) child failure) : Bereft task step := by
  obtain ⟨s, step', hsupply, hs', hfeed | ⟨-, hcancelled, -⟩⟩ := h
  · obtain rfl := Option.some.inj hsupply
    obtain rfl : step' = step := Option.some.inj (hs'.symm.trans hs)
    obtain ⟨source, hsource, hv⟩ := exists_value_of_feed hfeed
    obtain ⟨producer, hp, hfailed⟩ := value_eq_error hv
    obtain ⟨failed, hc⟩ := Option.isSome_iff_exists.mp (wired.isSome_producer plain hp)
    obtain ⟨cause, hcause, -⟩ := hfailed failed hc
    exact ⟨source, hsource, producer, failed, cause, hp, hc, hcause⟩
  · obtain rfl := Option.some.inj hsupply
    cases hcancelled

/-- A step that comes to its end without having started has a producer that failed. -/
lemma Moves.bereft {child : Task κ} {id : String} {step : Step} (steady : task.Everywhere (Steady m))
    (caused : Caused m task) (found : task.children.find? id = some child)
    (below : m.Moves c world (some (.ofTask false task)) child next)
    (hs : next.info.step = some step) (returned : next.phase = .returned)
    (before : ¬ HasStarted next) : Bereft task step := by
  have hold : child.info.step = some step := below.info ▸ hs
  have horder := (steady.child (OrderedMap.mem_of_find? found)).here.orderly
  rcases below.refuses (steady.here.wired.attached found false) horder returned before with
    ⟨hreturned, hbefore⟩ | ⟨failure, refuses⟩
  · exact caused.refused id child step found hold hreturned hbefore
  · exact bereft_of_refuses steady.here.wired (steady.here.wired.plain_of_child found) hold refuses

/-- A task that takes no values from others is never refused. -/
lemma Moves.started_of_returned (moves : m.Moves c world none task next) (order : Orderly task)
    (started : task.phase = .returned → HasStarted task) (returned : next.phase = .returned) :
    HasStarted next := by
  by_contra before
  rcases moves.refuses (attached_none task) order returned before with
    ⟨hreturned, hbefore⟩ | ⟨failure, s, step, hsupply, -⟩
  · exact hbefore (started hreturned)
  · cases hsupply

variable (earnest : m.FailsAs c fun f => f.isCancelled = false) (admitted : c.admits world)
  (live : m.behavior.cancelled world = false)
  (evaluator : m.evaluator.FailsAs fun failure => failure.isCancelled = false)

include earnest admitted live evaluator

/-- What happens to a task explains its failure. -/
lemma Change.explained (change : m.Change c world supply task next)
    (attached : Attached supply task) (steady : task.Everywhere (Steady m))
    (caused : task.Everywhere (Caused m)) {failure : Failure} (h : next.status = .failed failure) :
    Explained m next failure := by
  have hinfo := change.outline.info
  cases change.failsFor admitted attached steady.here.wired steady.here.tidy
    steady.here.expanded.checked h with
  | cancelled hcancelled _ => simp [live] at hcancelled
  | @refused cause waiting refuses next_ recorded =>
      subst next_ recorded
      have hnot := not_hasStarted_refuse (steady.here.tidy.waiting waiting).2.1 cause
      exact ⟨rfl, fun _ started => absurd started hnot, fun real => by cases real⟩
  | own own =>
      have hnamed : failure.task.isSome = true := by
        obtain ⟨cause, rfl, -⟩ := own
        exact cause.isSome_inTask _
      exact ⟨hnamed, fun _ _ => own.isCancelled evaluator, fun _ => Or.inr (Or.inl own)⟩
  | @tool cause tool turn recorded =>
      have htool : task.info.isTool = true := by
        rcases tool with tool | ⟨tool, working⟩
        · exact tool
        · exact caused.here.working tool working
      subst recorded
      exact ⟨cause.isSome_inTask _, fun _ _ => turn _ earnest, fun _ => Or.inl (hinfo ▸ htool)⟩
  | below _ rested next_ _ found recorded =>
      subst next_ recorded
      exact explained_of_below steady caused rested found

/-- What happens to a task keeps what is known of the task itself. -/
lemma Change.caused (change : m.Change c world supply task next)
    (attached : Attached supply task) (steady : task.Everywhere (Steady m))
    (caused : task.Everywhere (Caused m)) (later : Continues task next) : Caused m next := by
  have houtline := change.outline
  have hexplained (failure : Failure) (hf : next.status = .failed failure) :=
    change.explained earnest admitted live evaluator attached steady caused hf
  refine ⟨fun _ => houtline.phase_ne_idle, fun returned => ?_, fun tool busy => ?_, hexplained,
    fun id child step hf hs returned before => ?_, fun e he returned => ?_⟩
  · cases houtline with
    | ended _ ends => exact ends.done
    | stray isSome none _ _ => exact absurd none (attached.isStep isSome)
    | scattered _ _ _ _ _ phase _ => simp [phase] at returned
    | opened _ _ _ _ phase _ _ => simp [phase] at returned
    | atWork _ _ _ phase _ _ => rcases phase with ⟨tool, hp⟩ | hp <;> simp [hp] at returned
  · rw [houtline.info]
    cases houtline with
    | ended _ ends => simp [ends.phase] at busy
    | stray isSome none _ _ => exact absurd none (attached.isStep isSome)
    | scattered _ _ _ _ _ phase _ => simp [phase] at busy
    | opened _ _ _ _ phase _ _ => simp [phase] at busy
    | atWork before _ _ _ _ _ =>
        rcases before with ⟨-, tool⟩ | ⟨tool, working⟩
        · exact tool
        · exact caused.here.working tool working
  · obtain ⟨old, hold, hinfo, hstarted, hphase | hphase⟩ := houtline.child_before attached hf
    · exact (caused.here.refused id old step hold (hinfo ▸ hs) (hphase ▸ returned)
        (hstarted.not.mp before)).continues later
    · simp [hphase] at returned
  · cases houtline with
    | ended _ ends =>
        obtain ⟨old, hold, reason, rfl⟩ := ends.below.mem_elements he
        rw [Task.phase_abandon] at returned
        exact (hasStarted_abandon old reason).mpr (caused.here.elements old hold returned)
    | stray isSome none _ _ => exact absurd none (attached.isStep isSome)
    | scattered _ _ planned _ _ _ _ =>
        obtain ⟨index, built, own, -, rfl⟩ := mem_elementsOf planned he
        simp [ready] at returned
    | opened _ _ _ _ _ _ elements => exact caused.here.elements e (elements ▸ he) returned
    | atWork _ _ _ _ _ elements => exact caused.here.elements e (elements ▸ he) returned

end Live

section Moves

variable {m : Machine σ κ} {c : Circumstances σ} {world : σ} {supply : Option Supply}
  {task next : Task κ}

/-- While the tasks below go on, a task awaits them and has not ended. -/
lemma caused_of_joining (joining : next.phase = .joining) (undone : next.isDone = false)
    (refused : ∀ id child step, next.children.find? id = some child →
      child.info.step = some step → child.phase = .returned → ¬ HasStarted child → Bereft next step)
    (elements : ∀ e ∈ next.elements, e.phase = .returned → HasStarted e) : Caused m next where
  taken _ := by simp [joining]
  ended returned := by simp [joining] at returned
  working tool busy := by simp [joining] at busy
  explained failure hf := absurd hf (Task.not_failed undone failure)
  refused
  elements

/-- **Every move keeps what is known.** -/
theorem Moves.caused (earnest : m.FailsAs c fun f => f.isCancelled = false)
    (admitted : c.admits world) (live : m.behavior.cancelled world = false)
    (evaluator : m.evaluator.FailsAs fun failure => failure.isCancelled = false)
    (moves : m.Moves c world supply task next)
    (attached : Attached supply task) (steady : task.Everywhere (Steady m))
    (h : task.Everywhere (Caused m)) : next.Everywhere (Caused m) := by
  have hsound {t : Task κ} (ht : t.Everywhere (Steady m)) : Sound m.document t :=
    ht.mono fun d hd => ⟨hd.wired, hd.tidy⟩
  refine Moves.everywhere (Q := Steady m) (fun hd hf => hd.wired.attached hf)
    ?_ ?_ ?_ moves attached steady h
  · intro supply task next attached happens steady h
    have hlater := (Moves.here happens).continues attached (hsound steady)
    exact happens.change.outline.everywhere attached steady.here.wired.valid h
      (happens.change.caused earnest admitted live evaluator attached steady h hlater)
      (fun d reason hd => hd.abandon reason) (fun d hd => hd.withPhase) fun built own hb =>
        everywhere_caused_ready (hb.mono fun d hd => hd.2) own
  · intro task child next id steady h hf below _
    have hlater := (Moves.child hf below : m.Moves c world none _ _).continues (attached_none task)
      (hsound steady)
    have hjoining := steady.here.tidy.joining_of_moves.1 hf below
    have hundone := (steady.here.tidy.joining hjoining).1
    refine caused_of_joining (by rwa [Task.phase_withChildren]) (by simpa [Task.isDone] using hundone)
      (fun key other step hf' hs returned before => ?_) (by simpa using h.here.elements)
    rw [Task.children_withChildren, find?_replaceChild, Option.map_eq_some_iff] at hf'
    obtain ⟨old, hold, hother⟩ := hf'
    split_ifs at hother with hk
    · subst hother
      rw [live] at below
      exact (below.bereft steady h.here hf hs returned before).continues hlater
    · subst hother
      exact (h.here.refused key old step hold hs returned before).continues hlater
  · intro task element next place steady h hf below _
    have hlater := (Moves.element hf below : m.Moves c world none _ _).continues (attached_none task)
      (hsound steady)
    have hjoining := steady.here.tidy.joining_of_moves.2 hf below
    have hundone := (steady.here.tidy.joining hjoining).1
    refine caused_of_joining (by rwa [Task.phase_withElements]) (by simpa [Task.isDone] using hundone)
      (fun key child step hf' hs returned before => ?_) fun e he returned => ?_
    · rw [Task.children_withElements] at hf'
      exact (h.here.refused key child step hf' hs returned before).continues hlater
    · rw [Task.elements_withElements] at he
      have hmem := List.mem_of_getElem? hf
      rcases List.mem_or_eq_of_mem_set he with he | rfl
      · exact h.here.elements e he returned
      · exact below.started_of_returned (steady.element hmem).here.orderly
          (h.here.elements element hmem) returned

end Moves

/-- What is known in every tree of a run that is not cancelled. -/
lemma caused_of_runs {m : Machine σ κ} {c : Circumstances σ} {root tree : Task κ} {params : Values}
    (accepted : resolve m.document = .ok root) (run : m.Runs c (ready root params) tree)
    (live : ∀ world, c.admits world → m.behavior.cancelled world = false) (calm : ¬ c.breaksOff)
    (earnest : m.FailsAs c fun f => f.isCancelled = false)
    (evaluator : m.evaluator.FailsAs fun failure => failure.isCancelled = false) :
    tree.Everywhere (Caused m) ∧ (tree.phase = .returned → HasStarted tree) := by
  have hnew := wired_of_resolve accepted
  refine Runs.keeps_within (P := fun task : Task κ => task.Everywhere (Caused m) ∧
    (task.phase = .returned → HasStarted task)) (fun before admitted moves h => ?_) run
    ⟨everywhere_caused_ready (hnew.mono fun d hd => hd.2) params, by simp [ready]⟩
  have hsteady := steady_of_runs accepted calm before
  exact ⟨moves.caused earnest admitted (live _ admitted) evaluator (attached_none _) hsteady h.1,
    moves.started_of_returned hsteady.here.orderly h.2⟩

/-! ## The cause of a failure -/

/-- **Real failure wins.**  In a run of an accepted document that is not cancelled, in which no work
breaks off and neither a tool nor an expression fails with a cancellation, every workflow and every
scattered step that started and failed did so with no cancellation: either by itself, or with the failure
of the first task directly below it that failed with no cancellation.  So when the main task has come to
its end, the run does not report a cancellation either. -/
theorem real_failure_wins {m : Machine σ κ} {c : Circumstances σ} {root tree : Task κ}
    {params : Values} (accepted : resolve m.document = .ok root)
    (run : m.Runs c (ready root params) tree)
    (live : ∀ world, c.admits world → m.behavior.cancelled world = false) (calm : ¬ c.breaksOff)
    (earnest : m.FailsAs c fun f => f.isCancelled = false)
    (evaluator : m.evaluator.FailsAs fun failure => failure.isCancelled = false) :
    (∀ d ∈ tree.descendants, d.info.isTool = false → HasStarted d →
      ∀ failure, d.status = .failed failure →
        failure.isCancelled = false ∧ (OwnFailure m d failure ∨ FirstBelow d failure)) ∧
    (tree.phase = .returned →
      ∀ failure, Engine.resultOf tree = .failed failure → failure.isCancelled = false) := by
  obtain ⟨hcaused, hroot⟩ := caused_of_runs accepted run live calm earnest evaluator
  have hsteady := steady_of_runs accepted calm run
  refine ⟨fun d hd group started failure hs => ?_, fun returned failure hresult => ?_⟩
  · have hknown := hcaused d hd
    have htidy := (hsteady d hd).tidy
    have hdone := Task.isDone_of_failed hs
    have hreturned : d.phase = .returned := by
      cases hp : d.phase with
      | returned => rfl
      | idle => exact absurd hp (hknown.taken started)
      | aborted => exact absurd hp (hsteady d hd).unbroken
      | waiting => simp [(htidy.waiting hp).1] at hdone
      | working tool => simp [(htidy.working tool hp).1] at hdone
      | joining => simp [(htidy.joining hp).1] at hdone
    have hreal := (hknown.explained failure hs).real hreturned started
    refine ⟨hreal, ?_⟩
    rcases (hknown.explained failure hs).origin hreal with tool | own | first
    · simp [group] at tool
    · exact Or.inl own
    · exact Or.inr (firstBelow_of_firstFailure? (hsteady d hd).expanded (hsteady d hd).wired.nodup
        first)
  · have hs := status_of_resultOf (hcaused.here.ended returned) hresult
    exact (hcaused.here.explained failure hs).real returned (hroot returned)

end Machine

/-! ## The setback -/

/-- A step that takes the output of the one declared after it. -/
def setbackAfter : Step := relayStep "#main/after" "#main/before/out"

/-- The step that the other one depends on. -/
def setbackBefore : Step := relayStep "#main/before" "#main/given"

/-- A workflow of the two steps. -/
def setbackMain : Process where
  id := "#main"
  body := .workflow [setbackAfter, setbackBefore]
  inputs := relayMain.inputs
  outputs := [⟨"out", .any, none, [], ["#main/after/out"]⟩]
  requirements := []
  hints := []

/-- What every tool of the setback fails with. -/
def diskFull : Failure := .dispatch "disk full"

/-- A machine for this workflow, with tools that wait once and fail. -/
def setbackMachine : Machine Unit Unit where
  document := ⟨"v1.2", [setbackMain, relayTool]⟩
  evaluator := Binding.evaluator evaluateJson
  behavior := {
    start := fun _ params world => (⟨params, [], .wait ()⟩, world)
    ready := fun _ _ => true
    resume := fun _ params _ world => (⟨params, [], .done (.error diskFull)⟩, world)
    cancelled := fun _ => false }

/-- The tree of the document. -/
def setbackRoot : Task Unit :=
  .node (mainInfo setbackMain) .fresh .idle
    [("#main/after",
      .node (childInfo (mainInfo setbackMain) setbackAfter relayTool) .fresh .idle [] []),
      ("#main/before",
        .node (childInfo (mainInfo setbackMain) setbackBefore relayTool) .fresh .idle [] [])]
    []

/-- The tree with which a run ends in which the step that is declared first is cancelled. -/
def setbackLast : Task Unit :=
  let start := ready setbackRoot [("given", .bool true)]
  (start :: setbackMachine.walk [[], [.child "#main/before"], [.child "#main/before"],
    [.child "#main/after"], []] start ()).getLast (List.cons_ne_nil _ _)

lemma setback_accepted : resolve setbackMachine.document = .ok setbackRoot := by
  cbv

lemma setback_earnest :
    setbackMachine.FailsAs ⟨fun _ => True, False⟩ fun f => f.isCancelled = false where
  start := by
    intro info params world failure _ h
    cases h
  resume := by
    intro info params tool world failure _ h
    obtain rfl := Except.error.inj (Next.done.inj h)
    rfl

/-- The run reports the failure of the second step, and not the cancellation of the first one. -/
theorem setback_reports_disk_full :
    setbackLast.status = .failed (diskFull.inTask "#main/before") ∧
      (OwnFailure setbackMachine setbackLast (diskFull.inTask "#main/before") ∨
        FirstBelow setbackLast (diskFull.inTask "#main/before")) := by
  have hrun : setbackMachine.Runs ⟨fun _ => True, False⟩
      (ready setbackRoot [("given", .bool true)]) setbackLast :=
    Machine.runs_walk (fun _ => trivial) _ _ ()
  have hstatus : setbackLast.status = .failed (diskFull.inTask "#main/before") := by cbv
  have hstarted : HasStarted setbackLast := by
    have hevent : setbackLast.state.events[0]? = some ⟨.info, setbackLast.info.startMessage⟩ := by cbv
    exact List.mem_of_getElem? hevent
  have hself : setbackLast ∈ setbackLast.descendants := Task.mem_descendants.mpr (Or.inl rfl)
  have hevaluator : setbackMachine.evaluator.FailsAs fun failure => failure.isCancelled = false :=
    (Binding.evaluator_failsAs_fresh evaluateJson).imp fun _ fresh => fresh.1
  obtain ⟨hall, -⟩ := Machine.real_failure_wins setback_accepted hrun (fun _ _ => rfl) not_false
    setback_earnest hevaluator
  exact ⟨hstatus, (hall setbackLast hself (by cbv) hstarted _ hstatus).2⟩

end WorkflowEngine.Scheduling
