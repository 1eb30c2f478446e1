import WorkflowEngine.Proofs.Failures
import WorkflowEngine.Proofs.ScatteredRuns
import WorkflowEngine.Proofs.SourceValues

/-!
# Gathering

A scattered step deals its plan out to its runs, one entry to each, and gathers their outputs in
arrays.

**Dealing out.**  `Dealt` says that every run has its entry, by its place; it stays so, whatever the runs
do and in whatever order they end.

**Gathering.**  `Gathered` says what the step comes to once all its runs have ended (`gathered_conclude`).

**Runs of the machine.**  `Scattering` holds of a scattered step at every moment (`scattering_of_runs`):
before its plan is dealt out, while its runs go on, and when they have ended.

**Outputs.**  What the runs have published stands in the gathered arrays by their places: `Collected`.
`Gathers` says all this of a scattered step, and `gathered_in_order` that it holds in every run of the
engine.
-/

namespace WorkflowEngine.Scheduling

open Document (Process Step)
open Machine (ready)

variable {σ κ : Type} {task next : Task κ}

namespace Machine

variable {m : Machine σ κ} {c : Circumstances σ} {world : σ}

/-! ## Dealing out -/

/-- The plan of a scattered step has been dealt out to its runs, which are counted from one. -/
structure Dealt (m : Machine σ κ) (c : Circumstances σ) (step : Step) (all : List Values)
    (task : Task κ) : Prop where
  isStep : task.info.step = some step
  planned : combinations step task.state.parameters = .ok all
  length : task.elements.length = all.length
  info : ∀ (place : Nat) element, task.elements[place]? = some element →
    element.info = { task.info with index := some (place + 1) }
  runs : ∀ (place : Nat) entry element, all[place]? = some entry →
    task.elements[place]? = some element → m.Undertakes c step entry element

/-- The elements of a scattered step take up the entries of its plan one by one. -/
lemma dealt_of_elementsOf {elements : List (Task κ)} (checked : Checked m.document task.info.process)
    (planned : m.elementsOf task.info task.state.parameters = .ok elements) :
    ∃ step all, m.Dealt c step all (task.withElements elements) := by
  obtain ⟨step, all, isStep, hall, built⟩ := forall₂_elementsOf planned
  have hlength : elements.length = all.length := by
    simpa using built.length_eq.symm
  have hbuilt (place : Nat) (element : Task κ) (he : elements[place]? = some element) :
      ∃ entry, all[place]? = some entry ∧ ∃ first : Task κ,
        elementTask m.document task.info (place + 1) = .ok first ∧ element = ready first entry := by
    obtain ⟨hlt, rfl⟩ := List.getElem?_eq_some_iff.mp he
    have hlt' : place < all.length := hlength ▸ hlt
    obtain ⟨first, hfirst, hready⟩ := built.get (by simpa using hlt') hlt
    rw [List.get_eq_getElem, List.getElem_zipIdx] at hfirst
    rw [List.get_eq_getElem, List.get_eq_getElem, List.getElem_zipIdx] at hready
    exact ⟨_, List.getElem?_eq_getElem hlt', first, by simpa [Nat.add_comm] using hfirst, hready⟩
  refine ⟨step, all, by simpa using isStep, by simpa using hall, by simpa using hlength, ?_, ?_⟩
  · intro place element he
    rw [Task.elements_withElements] at he
    obtain ⟨entry, -, first, hfirst, rfl⟩ := hbuilt place element he
    simpa [ready] using (expanded_of_elementTask checked hfirst).1
  · intro place entry element hentry he
    rw [Task.elements_withElements] at he
    obtain ⟨own, hown, first, -, rfl⟩ := hbuilt place element he
    obtain rfl := Option.some.inj (hown.symm.trans hentry)
    exact .waiting (by simp [ready]) (by simp [ready])

/-- What has been dealt out stays so when each run keeps its entry. -/
lemma Dealt.carry {step : Step} {all : List Values} (h : m.Dealt c step all task)
    (info : next.info = task.info) (parameters : next.state.parameters = task.state.parameters)
    (length : next.elements.length = task.elements.length)
    (runs : ∀ (place : Nat) later, next.elements[place]? = some later → ∃ element,
      task.elements[place]? = some element ∧ later.info = element.info ∧
        ∀ entry, m.Undertakes c step entry element → m.Undertakes c step entry later) :
    m.Dealt c step all next where
  isStep := info ▸ h.isStep
  planned := parameters ▸ h.planned
  length := length.trans h.length
  info place later hl := by
    obtain ⟨element, he, hinfo, -⟩ := runs place later hl
    rw [hinfo, info]
    exact h.info place element he
  runs place entry later hentry hl := by
    obtain ⟨element, he, -, keeps⟩ := runs place later hl
    exact keeps entry (h.runs place entry element hentry he)

/-- Runs that are given up keep their entries. -/
lemma Dealt.abandoned {step : Step} {all : List Values} (h : m.Dealt c step all task)
    (info : next.info = task.info) (parameters : next.state.parameters = task.state.parameters)
    (below : List.Forall₂ (fun e d => ∃ reason, d = e.abandon reason) task.elements next.elements) :
    m.Dealt c step all next := by
  refine h.carry info parameters below.length_eq.symm fun place later hl => ?_
  obtain ⟨hlt, rfl⟩ := List.getElem?_eq_some_iff.mp hl
  have hlt' : place < task.elements.length := below.length_eq ▸ hlt
  obtain ⟨reason, hreason⟩ := below.get hlt' hlt
  rw [List.get_eq_getElem, List.get_eq_getElem] at hreason
  refine ⟨_, List.getElem?_eq_getElem hlt', ?_, fun entry hu => ?_⟩
  · rw [hreason, Task.info_abandon]
  · rw [hreason]
    exact hu.abandon reason

lemma Dealt.abandon {step : Step} {all : List Values} (h : m.Dealt c step all task) (reason : String) :
    m.Dealt c step all (task.abandon reason) :=
  h.abandoned (Task.info_abandon _ _) (by rw [Task.state_abandon, TaskState.parameters_finish])
    (GivenUpBelow.abandon task reason).elements

lemma Dealt.concluded {step : Step} {all : List Values} {result : Outcome Values}
    (h : m.Dealt c step all task) : m.Dealt c step all (conclude result (settleBelow task)) := by
  have hparams : (settleBelow task).state.parameters = task.state.parameters :=
    congrArg Task.Facts.parameters (facts_settleBelow task)
  exact h.abandoned (by simp) (by rw [parameters_conclude, hparams])
    (ends_conclude_settleBelow result task).below.elements

/-- A run that goes on keeps its entry, and the others theirs. -/
lemma Dealt.element {step : Step} {all : List Values} {element later : Task κ} {place : Nat}
    (h : m.Dealt c step all task) (at_ : task.elements[place]? = some element)
    (info : later.info = element.info)
    (runs : ∀ entry, m.Undertakes c step entry element → m.Undertakes c step entry later) :
    m.Dealt c step all (task.withElements (task.elements.set place later)) := by
  refine h.carry (by simp) (by simp) (by simp) fun other next hn => ?_
  rw [Task.elements_withElements] at hn
  by_cases hsame : place = other
  · subst hsame
    rw [List.getElem?_set_self (List.getElem?_eq_some_iff.mp at_).1] at hn
    obtain rfl := Option.some.inj hn
    exact ⟨element, at_, info, runs⟩
  · rw [List.getElem?_set_ne hsame] at hn
    exact ⟨next, hn, rfl, fun _ hu => hu⟩

/-! ## Gathering -/

/-- A scattered step has come to the end of its runs: all of them have succeeded and their outputs have
been gathered, or it has failed and has no outputs. -/
structure Gathered (task : Task κ) : Prop where
  done : ∀ e ∈ task.elements, e.isDone = true
  succeeded : (∀ e ∈ task.elements, e.status = .succeeded) →
    task.status = .succeeded ∧ task.state.outputs = gatherElements task
  failed : ∀ e ∈ task.elements, e.status ≠ .succeeded →
    (∃ failure, task.status = .failed failure) ∧ task.state.outputs = []

lemma gatherElements_congr (info : next.info = task.info)
    (outputs : next.elements.map (fun e => e.state.outputs) =
      task.elements.map fun e => e.state.outputs) :
    gatherElements next = gatherElements task := by
  have hread (id : String) :
      next.elements.map (fun e => (e.state.outputs.find? id).getD .null) =
        task.elements.map fun e => (e.state.outputs.find? id).getD .null := by
    have hmap := congrArg (List.map fun own : Values => (own.find? id).getD .null) outputs
    simpa [Function.comp_def] using hmap
  simp only [gatherElements, info, hread]

lemma scatterResult_of_succeeded (h : ∀ e ∈ task.elements, e.status = .succeeded) :
    scatterResult task = .ok (gatherElements (settleBelow task)) := by
  have hnone : failureBelow? task.elements
      (.cancelled .scatterEngine "subtask did not finish") = none := by
    rw [failureBelow?, Option.or_eq_none_iff, List.findSome?_eq_none_iff, List.findSome?_eq_none_iff]
    refine ⟨fun e he => ?_, fun e he => ?_⟩
    · rw [ownFailure?, h e he]
      rfl
    · rw [h e he]
  rw [scatterResult, hnone]

lemma scatterResult_of_open {e : Task κ} (he : e ∈ task.elements) (hopen : e.status ≠ .succeeded) :
    ∃ failure, scatterResult task = .error failure := by
  rw [scatterResult]
  cases hfailure : failureBelow? task.elements (.cancelled .scatterEngine "subtask did not finish") with
  | none => exact absurd (failureBelow?_eq_none hfailure e he) hopen
  | some failure => exact ⟨failure, rfl⟩

/-- **The end of a scattered step** whose runs are over. -/
theorem gathered_conclude (unended : Unended task) :
    Gathered (conclude (scatterResult task) (settleBelow task)) := by
  have hended := endedWith_conclude (unended.congr (facts_settleBelow task)) (scatterResult task)
  have below := (ends_conclude_settleBelow (scatterResult task) task).below
  -- Giving a run up is no success: the step and its end agree on which runs have succeeded.
  refine ⟨fun d hd => ?_, fun h => ?_, fun d hd hopen => ?_⟩
  · obtain ⟨e, -, reason, rfl⟩ := below.mem_elements hd
    exact (Task.everywhere_isDone_abandon e reason).here
  · have hsucceeded (e : Task κ) (he : e ∈ task.elements) : e.status = .succeeded := by
      obtain ⟨d, hd, reason, rfl⟩ := forall₂_mem_left below.elements he
      exact status_abandon_eq_succeeded.mp (h _ hd)
    rw [scatterResult_of_succeeded hsucceeded] at hended ⊢
    refine ⟨hended.1, hended.2.trans (gatherElements_congr (by simp) ?_).symm⟩
    rw [elements_conclude, List.map_map]
    exact List.map_congr_left fun e _ => outputs_abandon e _
  · obtain ⟨e, he, reason, rfl⟩ := below.mem_elements hd
    obtain ⟨failure, hfailure⟩ :=
      scatterResult_of_open he fun succeeded => hopen (status_abandon_eq_succeeded.mpr succeeded)
    rw [hfailure] at hended ⊢
    exact ⟨⟨_, hended.1⟩, hended.2⟩

lemma Gathered.isDone (h : Gathered task) : task.isDone = true := by
  by_cases hall : ∀ e ∈ task.elements, e.status = .succeeded
  · rw [Task.isDone, (h.succeeded hall).1]
    rfl
  · obtain ⟨e, he, hopen⟩ := by simpa using hall
    obtain ⟨⟨failure, hfailed⟩, -⟩ := h.failed e he hopen
    exact Task.isDone_of_failed hfailed

lemma Gathered.abandon (h : Gathered task) (reason : String) : Gathered (task.abandon reason) := by
  have hstate := state_abandon_of_isDone h.isDone reason
  have hstatus : (task.abandon reason).status = task.status := congrArg TaskState.status hstate
  have hgather : gatherElements (task.abandon reason) = gatherElements task := by
    refine gatherElements_congr (Task.info_abandon _ _) ?_
    rw [Task.elements_abandon, List.map_map]
    exact List.map_congr_left fun e _ => outputs_abandon e _
  refine ⟨fun d hd => ?_, fun hall => ?_, fun d hd hopen => ?_⟩
  · rw [Task.elements_abandon, List.mem_map] at hd
    obtain ⟨e, -, rfl⟩ := hd
    exact (Task.everywhere_isDone_abandon e reason).here
  · rw [hstatus, hstate, hgather]
    refine h.succeeded fun e he => status_abandon_eq_succeeded.mp (hall (e.abandon reason) ?_)
    rw [Task.elements_abandon]
    exact List.mem_map_of_mem he
  · rw [Task.elements_abandon, List.mem_map] at hd
    obtain ⟨e, he, rfl⟩ := hd
    rw [hstatus, hstate]
    exact h.failed e he fun succeeded => hopen (status_abandon_eq_succeeded.mpr succeeded)

/-! ## Scattered steps -/

/-- A scattered step has ended before its plan was dealt out: there is none, or the step was cancelled. -/
structure Undealt (task : Task κ) : Prop where
  elements : task.elements = []
  outputs : task.state.outputs = []
  failed : ∃ failure, task.status = .failed failure ∧ (failure.isCancelled = true ∨
    ∃ step own, task.info.step = some step ∧ combinations step task.state.parameters = .error own ∧
      failure = own.inTask task.info.id)

/-- What a scattered step has come to at every moment of a run. -/
structure Scattering (m : Machine σ κ) (c : Circumstances σ) (task : Task κ) : Prop where
  working : ∀ tool, task.phase ≠ .working tool
  aborted : task.phase ≠ .aborted
  joining : task.phase = .joining → ∃ step all, m.Dealt c step all task
  returned : task.phase = .returned →
    Undealt task ∨ ∃ step all, m.Dealt c step all task ∧ Gathered task

lemma scattering_of_waiting (waiting : task.phase = .waiting) : m.Scattering c task := by
  constructor <;> simp [waiting]

lemma scattering_of_idle (idle : task.phase = .idle) : m.Scattering c task := by
  constructor <;> simp [idle]

lemma scattering_of_joining (joining : task.phase = .joining)
    (dealt : ∃ step all, m.Dealt c step all task) : m.Scattering c task :=
  ⟨by simp [joining], by simp [joining], fun _ => dealt, by simp [joining]⟩

lemma scattering_of_returned (returned : task.phase = .returned)
    (ended : Undealt task ∨ ∃ step all, m.Dealt c step all task ∧ Gathered task) :
    m.Scattering c task :=
  ⟨by simp [returned], by simp [returned], by simp [returned], fun _ => ended⟩

lemma Undealt.abandon (h : Undealt task) (reason : String) : Undealt (task.abandon reason) := by
  obtain ⟨failure, hfailed, hwhy⟩ := h.failed
  have hstate := state_abandon_of_isDone (Task.isDone_of_failed hfailed) reason
  refine ⟨by simp [h.elements], (outputs_abandon _ _).trans h.outputs, failure, ?_, ?_⟩
  · exact (congrArg TaskState.status hstate).trans hfailed
  · rwa [hstate, Task.info_abandon]

lemma Scattering.abandon (h : m.Scattering c task) (reason : String) :
    m.Scattering c (task.abandon reason) := by
  refine ⟨fun tool => ?_, ?_, fun joining => ?_, fun returned => ?_⟩
  · rw [Task.phase_abandon]
    exact h.working tool
  · rw [Task.phase_abandon]
    exact h.aborted
  · rw [Task.phase_abandon] at joining
    obtain ⟨step, all, dealt⟩ := h.joining joining
    exact ⟨step, all, dealt.abandon reason⟩
  · rw [Task.phase_abandon] at returned
    rcases h.returned returned with undealt | ⟨step, all, dealt, gathered⟩
    · exact Or.inl (undealt.abandon reason)
    · exact Or.inr ⟨step, all, dealt.abandon reason, gathered.abandon reason⟩

lemma exists_step_of_isScatter {info : TaskInfo} (scatter : info.isScatter = true) :
    ∃ step, info.step = some step := by
  cases hstep : info.step with
  | none => simp [TaskInfo.isScatter, hstep] at scatter
  | some step => exact ⟨step, rfl⟩

lemma undealt_conclude {failure : Failure} (unended : Unended task) (elements : task.elements = [])
    (why : failure.isCancelled = true ∨ ∃ step, task.info.step = some step ∧
      combinations step task.state.parameters = .error failure) :
    Undealt (conclude (.error failure) task) := by
  obtain ⟨hstatus, houtputs⟩ := endedWith_conclude unended (.error failure)
  refine ⟨by simp [elements_conclude, elements], houtputs, _, hstatus, ?_⟩
  rw [info_conclude, parameters_conclude]
  refine why.imp id ?_
  rintro ⟨step, isStep, unplanned⟩
  exact ⟨step, failure, isStep, unplanned, rfl⟩

/-- **The start of a scattered step** deals its plan out, or ends the step. -/
lemma Begun.scattering (begun : m.Begun world task next) (scatter : task.info.isScatter = true)
    (checked : Checked m.document task.info.process) (unended : Unended task)
    (elements : task.elements = []) : m.Scattering c next := by
  have hup : Unended (takeUp task) := unended_takeUp unended
  have helements : (takeUp task).elements = [] := (elements_takeUp task).trans elements
  cases begun with
  | unevaluated _ plain _ => simp [scatter] at plain
  | incomplete _ plain _ _ _ => simp [scatter] at plain
  | opened _ plain _ _ _ => simp [scatter] at plain
  | turned _ plain _ _ => simp [scatter] at plain
  | cancelled _ =>
      exact scattering_of_returned (phase_conclude _ _)
        (Or.inl (undealt_conclude hup helements (Or.inl rfl)))
  | @unscattered failure _ _ planned =>
      obtain ⟨step, isStep⟩ := exists_step_of_isScatter scatter
      have hplan : combinations step task.state.parameters = .error failure :=
        elementsOf_eq_error checked isStep planned
      exact scattering_of_returned (phase_conclude _ _) (Or.inl (undealt_conclude hup helements
        (Or.inr ⟨step, by simpa using isStep, by simpa using hplan⟩)))
  | @scattered elements _ _ planned =>
      obtain ⟨step, all, dealt⟩ := dealt_of_elementsOf checked planned
      refine scattering_of_joining (Task.phase_withPhase _ _) ⟨step, all, ?_⟩
      exact dealt.carry (by simp) (by simp [Task.withEvents]) (by simp) fun place later hl =>
        ⟨later, by simpa using hl, rfl, fun _ hu => hu⟩

lemma undealt_refuse {failure : Failure} (cancelled : failure.isCancelled = true)
    (unended : Unended task) (elements : task.elements = []) : Undealt (refuse failure task) := by
  refine ⟨?_, (outputs_refuse _ _).trans unended.empty, _, status_refuse cancelled unended.undone,
    Or.inl rfl⟩
  simpa [elements] using (ends_refuse failure task).below.elements

/-- A scattered step that joins can only end as its runs have. -/
lemma Happens.of_joining {supply : Option Supply} (happens : m.Happens c world supply task next)
    (scatter : task.info.isScatter = true) (joining : task.phase = .joining) :
    BelowOver task ∧ next = conclude (scatterResult task) (settleBelow task) := by
  cases happens with
  | wakeWaiting waiting _ _ _ _ => simp [joining] at waiting
  | wakeJoining _ plain _ _ _ _ => simp [scatter] at plain
  | breakStart _ _ waiting _ => simp [joining] at waiting
  | breakWork _ working => simp [joining] at working
  | step h =>
      simp only [stepHere, joining, Option.map_eq_some_iff] at h
      obtain ⟨joined, hj, h⟩ := h
      obtain ⟨rfl, -⟩ := Prod.mk.inj h
      obtain ⟨rested, result, hresult, rfl⟩ := join_eq_some_iff.mp hj
      rw [joinResult, if_pos scatter] at hresult
      exact ⟨rested, by rw [Option.some.inj hresult]⟩

/-- **What happens to a scattered step** deals its plan out or ends it as its runs have ended. -/
theorem Happens.scattering {supply : Option Supply} (happens : m.Happens c world supply task next)
    (attached : Attached supply task) (scatter : task.info.isScatter = true)
    (checked : Checked m.document task.info.process) (tidy : Tidy task) (silent : Silent task)
    (h : m.Scattering c task) : m.Scattering c next := by
  have change := happens.change
  have unended : Unended task := silent.unended (tidy.isDone change)
  cases hphase : task.phase with
  | idle => exact absurd (Or.inl hphase) change.not_resting
  | returned => exact absurd (Or.inr (by rw [hphase]; rfl)) change.not_resting
  | working tool => exact absurd hphase (h.working tool)
  | aborted => exact absurd hphase h.aborted
  | joining =>
      obtain ⟨step, all, dealt⟩ := h.joining hphase
      obtain ⟨-, rfl⟩ := happens.of_joining scatter hphase
      exact scattering_of_returned (phase_conclude _ _)
        (Or.inr ⟨step, all, dealt.concluded, gathered_conclude unended⟩)
  | waiting =>
      have elements : task.elements = [] := (tidy.waiting hphase).2.2.1
      cases change with
      | stray _ hs none => exact absurd none (attached.isStep (by simp [hs]))
      | turned working => simp [hphase] at working
      | joined joining _ _ => simp [hphase] at joining
      | woken joining _ _ => simp [hphase] at joining
      | brokenWork _ working => simp [hphase] at working
      | brokenStart _ tool _ _ => simp [TaskInfo.isTool, scatter] at tool
      | refused _ refuses =>
          exact scattering_of_returned (ends_refuse _ task).phase (Or.inl (undealt_refuse
            (isCancelled_of_refuses refuses attached) unended elements))
      | begun _ _ =>
          exact (begun_begin m _ world).scattering (by simpa using scatter) (by simpa using checked)
            (unended.setParameters _) (by simpa using elements)

/-! ## Runs of the machine -/

/-- What is known of every task when the runs of scattered steps are followed. -/
def Known (document : Document) (task : Task κ) : Prop :=
  (Wired document task ∧ Tidy task) ∧ Expanded document task ∧ Silent task

lemma known_of_runs {root tree : Task κ} {params : Values} (accepted : resolve m.document = .ok root)
    (run : m.Runs c (ready root params) tree) : tree.Everywhere (Known m.document) :=
  (sound_of_runs accepted run).and
    ((expanded_of_runs accepted run).and (silent_of_runs accepted run))

/-- **Scattered steps keep their plans**, whatever happens anywhere in a tree. -/
theorem Moves.scattering {supply : Option Supply} (moves : m.Moves c world supply task next)
    (admitted : c.admits world) (attached : Attached supply task)
    (known : task.Everywhere (Known m.document))
    (h : task.Everywhere fun d => d.info.isScatter = true → m.Scattering c d) :
    next.Everywhere fun d => d.info.isScatter = true → m.Scattering c d := by
  refine Moves.everywhere (Q := Known m.document) (fun hd hf => hd.1.1.attached hf)
    ?_ ?_ ?_ moves attached known h
  · intro supply task next attached happens known h
    have outline := happens.change.outline
    obtain ⟨⟨wired, tidy⟩, expanded, silent⟩ := known.here
    refine outline.everywhere attached wired.valid h (fun scatter => ?_) (fun d reason hd scatter => ?_)
      (fun d _ _ => scattering_of_waiting (Task.phase_withPhase _ _)) fun built own hb => ?_
    · rw [outline.info] at scatter
      exact happens.scattering attached scatter expanded.checked tidy silent (h.here scatter)
    · exact (hd (by rwa [Task.info_abandon] at scatter)).abandon reason
    · refine everywhere_ready (hb.mono fun d hd _ => scattering_of_idle hd.2.phase) fun _ => ?_
      exact scattering_of_waiting (Task.phase_withPhase _ _)
  · intro task child next id known _ hf _ _ scatter
    rw [Task.info_withChildren] at scatter
    simp [known.here.1.1.scattered scatter] at hf
  · intro task element next place known h hf below _ scatter
    rw [Task.info_withElements] at scatter
    have joining := known.here.1.2.joining_of_moves.2 hf below
    obtain ⟨step, all, dealt⟩ := (h.here scatter).joining joining
    obtain ⟨⟨-, tidy⟩, -, silent⟩ := (known.element (List.mem_of_getElem? hf)).here
    have hinfo := dealt.info place element hf
    have isStep : element.info.step = some step := by rw [hinfo]; exact dealt.isStep
    have plain : element.info.isScatter = false := by rw [hinfo]; rfl
    exact scattering_of_joining (by rwa [Task.phase_withElements]) ⟨step, all, dealt.element hf
      below.info fun entry => below.undertakes admitted isStep plain tidy silent⟩

/-- **In every tree of a run** every scattered step keeps its plan. -/
theorem scattering_of_runs {root tree : Task κ} {params : Values}
    (accepted : resolve m.document = .ok root) (run : m.Runs c (ready root params) tree) :
    tree.Everywhere fun d => d.info.isScatter = true → m.Scattering c d := by
  have hnew := wired_of_resolve accepted
  refine Runs.keeps_within (fun before admitted moves h =>
    moves.scattering admitted (attached_none _) (known_of_runs accepted before) h) run ?_
  refine everywhere_ready (hnew.mono fun d hd _ => scattering_of_idle hd.2.phase) fun _ => ?_
  exact scattering_of_waiting (Task.phase_withPhase _ _)

/-! ## Outputs -/

lemma find?_gatherElements (task : Task κ) {output : Document.Output}
    (declared : output ∈ task.info.process.outputs) :
    (gatherElements task).find? output.id = some (.array (task.elements.map fun element =>
      (element.state.outputs.find? output.id).getD .null)) := by
  let entry (output : Document.Output) : String × Value :=
    (output.id, .array (task.elements.map fun element =>
      (element.state.outputs.find? output.id).getD .null))
  have hgather : gatherElements task = OrderedMap.ofList (task.info.process.outputs.map entry) := by
    rw [gatherElements, OrderedMap.ofList, List.foldl_map]
  have hmem : entry output ∈ task.info.process.outputs.map entry := List.mem_map_of_mem declared
  have hsome : (OrderedMap.lastWith Prod.fst (task.info.process.outputs.map entry) output.id).isSome :=
    OrderedMap.lastWith_isSome hmem
  obtain ⟨last, hlast⟩ := Option.isSome_iff_exists.mp hsome
  obtain ⟨hin, hid⟩ := OrderedMap.mem_of_lastWith hlast
  obtain ⟨other, -, rfl⟩ := List.mem_map.mp hin
  have hid : other.id = output.id := hid
  rw [hgather, OrderedMap.find?_ofList, hlast]
  simp [entry, hid]

/-- A scattered step has come to its end: it has gathered, for each of its outputs and in the order of its
runs, the values that these have published, or it has failed and has no outputs. -/
structure Collected (task : Task κ) : Prop where
  done : ∀ e ∈ task.elements, e.isDone = true
  succeeded : (∀ e ∈ task.elements, e.status = .succeeded) → task.status = .succeeded ∧
    ∀ output ∈ task.info.process.outputs, ∃ values,
      task.state.outputs.find? output.id = some (.array values) ∧
        List.Forall₂ (fun element value => element.state.outputs.find? output.id = some value)
          task.elements values
  failed : ∀ e ∈ task.elements, e.status ≠ .succeeded →
    (∃ failure, task.status = .failed failure) ∧ task.state.outputs = []

lemma Gathered.collected (h : Gathered task) (complete : ∀ e ∈ task.elements, Complete e)
    (process : ∀ e ∈ task.elements, e.info.process = task.info.process) : Collected task := by
  refine ⟨h.done, fun succeeded => ?_, h.failed⟩
  obtain ⟨hstatus, houtputs⟩ := h.succeeded succeeded
  refine ⟨hstatus, fun output declared => ?_⟩
  have hfind := find?_gatherElements task declared
  rw [← houtputs] at hfind
  refine ⟨_, hfind, ?_⟩
  rw [List.forall₂_map_right_iff, List.forall₂_same]
  intro e he
  have published := (complete e he (succeeded e he)).isSome_find? (process e he ▸ declared)
  obtain ⟨value, hvalue⟩ := Option.isSome_iff_exists.mp published
  rw [hvalue, Option.getD_some]

lemma stepHere_of_feeds {supply : Option Supply} {fed : Values} (waiting : task.phase = .waiting)
    (feeds : Feeds supply task fed) (world : σ) :
    m.stepHere supply task world = some (m.begin (task.setParameters fed) world) := by
  cases supply with
  | none =>
      obtain rfl : fed = task.state.parameters := feeds
      rw [setParameters_self, stepHere, waiting]
  | some s =>
      obtain ⟨step, isStep, hfeed⟩ := feeds
      rw [stepHere, waiting]
      show m.beginStep s task world = _
      rw [beginStep, isStep]
      dsimp only
      rw [hfeed]

/-- **A scattered step that is fed deals its plan out**, unless the run is cancelled. -/
lemma dealt_of_feeds {supply : Option Supply} {fed : Values} {step : Step} {all : List Values}
    (known : Known m.document task) (scatter : task.info.isScatter = true)
    (waiting : task.phase = .waiting) (isStep : task.info.step = some step)
    (feeds : Feeds supply task fed) (planned : combinations step fed = .ok all)
    (live : m.behavior.cancelled world = false) :
    ∃ next world', m.stepHere supply task world = some (next, world') ∧ next.phase = .joining ∧
      m.Dealt c step all next := by
  obtain ⟨⟨-, tidy⟩, expanded, silent⟩ := known
  obtain ⟨undone, -, elements, -⟩ := tidy.waiting waiting
  have hstep := stepHere_of_feeds (m := m) waiting feeds world
  have begun := begun_begin m (task.setParameters fed) world
  have hnext := begun.scattering (c := c) (by simpa using scatter) (by simpa using expanded.checked)
    ((silent.unended undone).setParameters fed) (by simpa using elements)
  generalize m.begin (task.setParameters fed) world = after at hstep begun hnext
  obtain ⟨next, world'⟩ := after
  dsimp only at begun hnext
  have joining : next.phase = .joining ∧ next.info = task.info ∧ next.state.parameters = fed := by
    cases begun with
    | cancelled cancelled => simp [live] at cancelled
    | unevaluated _ plain _ => simp [scatter] at plain
    | incomplete _ plain _ _ _ => simp [scatter] at plain
    | opened _ plain _ _ _ => simp [scatter] at plain
    | turned _ plain _ _ => simp [scatter] at plain
    | unscattered _ _ failed =>
        rw [Task.info_setParameters, Task.parameters_setParameters] at failed
        have hfailed := elementsOf_eq_error expanded.checked isStep failed
        rw [planned] at hfailed
        cases hfailed
    | scattered _ _ _ => exact ⟨by simp, by simp, by simp [Task.withEvents]⟩
  obtain ⟨hphase, hinfo, hparams⟩ := joining
  obtain ⟨step', all', dealt⟩ := hnext.joining hphase
  obtain rfl : step = step' := Option.some.inj (isStep.symm.trans (hinfo ▸ dealt.isStep))
  obtain rfl : all = all' := Except.ok.inj (planned.symm.trans (hparams ▸ dealt.planned))
  exact ⟨next, world', hstep, hphase, dealt⟩

/-- **A scattered step whose runs are over gathers their outputs.** -/
lemma collected_of_belowOver {step : Step} {all : List Values} {supply : Option Supply}
    (known : Known m.document task) (complete : ∀ e ∈ task.elements, Complete e)
    (scatter : task.info.isScatter = true) (joining : task.phase = .joining)
    (dealt : m.Dealt c step all task) (rested : BelowOver task) :
    ∃ next world', m.stepHere supply task world = some (next, world') ∧ next.phase = .returned ∧
      m.Dealt c step all next ∧ Collected next := by
  obtain ⟨⟨-, tidy⟩, expanded, silent⟩ := known
  have unended : Unended task := silent.unended (tidy.joining joining).1
  have hjoin : join (m.behavior.cancelled world) task =
      some (conclude (scatterResult task) (settleBelow task)) :=
    join_eq_some_iff.mpr ⟨rested, _, by rw [joinResult, if_pos scatter], rfl⟩
  have hstep : m.stepHere supply task world =
      some (conclude (scatterResult task) (settleBelow task), world) := by
    simp [stepHere, joining, hjoin]
  have below := (ends_conclude_settleBelow (scatterResult task) task).below
  refine ⟨_, world, hstep, phase_conclude _ _, dealt.concluded, ?_⟩
  refine (gathered_conclude unended).collected (fun d hd => ?_) fun d hd => ?_
  · obtain ⟨e, he, reason, rfl⟩ := below.mem_elements hd
    exact (complete e he).abandon reason
  · obtain ⟨e, he, reason, rfl⟩ := below.mem_elements hd
    obtain ⟨place, hplace⟩ := List.getElem?_of_mem he
    rw [info_conclude, info_settleBelow, Task.info_abandon, expanded.element place e hplace]

/-- What a scattered step does, from its plan to its end. -/
structure Gathers (m : Machine σ κ) (c : Circumstances σ) (task : Task κ) : Prop where
  /-- Once it is fed it gives each of its runs an entry of the plan. -/
  deals : ∀ supply step fed all world, task.phase = .waiting → task.info.step = some step →
    Feeds supply task fed → combinations step fed = .ok all → m.behavior.cancelled world = false →
      ∃ next world', m.stepHere supply task world = some (next, world') ∧ next.phase = .joining ∧
        m.Dealt c step all next
  /-- While it joins they have their entries, and once they are over it gathers their outputs. -/
  joins : task.phase = .joining → ∃ step all, m.Dealt c step all task ∧
    ∀ supply world, BelowOver task →
      ∃ next world', m.stepHere supply task world = some (next, world') ∧ next.phase = .returned ∧
        m.Dealt c step all next ∧ Collected next
  /-- When it has ended they have had their entries, and it has gathered their outputs. -/
  ends : task.phase = .returned →
    Undealt task ∨ ∃ step all, m.Dealt c step all task ∧ Collected task

/-- **In every tree of a run** every scattered step deals its plan out and gathers what comes of it. -/
theorem gathers_of_runs {root tree : Task κ} {params : Values} (delivers : Delivers m.behavior)
    (accepted : resolve m.document = .ok root) (run : m.Runs c (ready root params) tree) :
    tree.Everywhere fun task => task.info.isScatter = true → m.Gathers c task := by
  intro task mem scatter
  have known := known_of_runs accepted run task mem
  have complete (e : Task κ) (he : e ∈ task.elements) : Complete e :=
    ((complete_of_runs delivers accepted run).everywhere task mem).element he |>.here
  have scattering := scattering_of_runs accepted run task mem scatter
  refine ⟨fun supply step fed all world waiting isStep feeds planned live => ?_, fun joining => ?_,
    fun returned => ?_⟩
  · exact dealt_of_feeds known scatter waiting isStep feeds planned live
  · obtain ⟨step, all, dealt⟩ := scattering.joining joining
    exact ⟨step, all, dealt, fun supply world rested =>
      collected_of_belowOver known complete scatter joining dealt rested⟩
  · refine (scattering.returned returned).imp id ?_
    rintro ⟨step, all, dealt, gathered⟩
    refine ⟨step, all, dealt, gathered.collected complete fun e he => ?_⟩
    obtain ⟨place, hplace⟩ := List.getElem?_of_mem he
    rw [dealt.info place e hplace]

end Machine

/-- **A scattered step deals its plan out and gathers what comes of it in order**, in every run of an
accepted document: in whatever order its runs go on and end, whatever process they run and whatever the
tools do. -/
theorem gathered_in_order {ε : Type} {engine : Engine ε} {directory : RunDirectory}
    {c : Circumstances (Tool.World ε)} {document : Document} {root tree : RunTask} {params : Values}
    (accepted : resolve document = .ok root)
    (run : (engine.machine document directory).Runs c (ready root params) tree) :
    ∀ task ∈ tree.descendants, task.info.isScatter = true →
      (engine.machine document directory).Gathers c task :=
  Machine.gathers_of_runs (m := engine.machine document directory) (delivers_behavior _) accepted run

/-! ## A step with two runs -/

/-- An expression tool that gives back its input. -/
def labelTool : Process where
  id := "#label"
  body := .expressionTool "$(inputs)"
  inputs := [⟨"in", .any, none, none, [], false⟩]
  outputs := [⟨"in", .any, none, [], []⟩]
  requirements := []
  hints := []

/-- A step that runs it for every element of an array, with a label. -/
def labelStep : Step where
  id := "#main/each"
  run := "#label"
  inputs := [⟨"in", ["#main/in"], some "item $(self)", none⟩]
  outputs := ["in"]
  scatter := ["in"]
  scatterMethod := none
  requirements := []
  hints := []

def labels : Document := ⟨"v1.2", [relayWorkflow "#main" "#main/each/in" [labelStep], labelTool]⟩

def labelMachine : Machine (Tool.World Unit) Tool.Running :=
  idleEngine.machine labels (.below "/" "run")

def labelRoot : RunTask :=
  let main := mainInfo (relayWorkflow "#main" "#main/each/in" [labelStep])
  .node main .fresh .idle
    [("#main/each", .node (childInfo main labelStep labelTool) .fresh .idle [] [])] []

def labelStart : RunTask := ready labelRoot [("in", .array [.str "a", .str "b"])]

/-- The tree once the second run has ended before the first, and then the step. -/
def labelLast : RunTask :=
  (labelStart :: labelMachine.walk [[], [.child "#main/each"], [.child "#main/each", .element 1],
    [.child "#main/each", .element 0], [.child "#main/each"]] labelStart
    ⟨default, 0, none, ()⟩).getLast (List.cons_ne_nil _ _)

/-- The arrays are in the order of the runs, and each run had its entry with its label. -/
theorem labels_gathered : ∃ task ∈ labelLast.descendants, task.info.path = "#main/each" ∧
    task.phase.isOver = true ∧
    task.elements.map (fun e => (e.info.path, e.state.parameters.toJson.text)) =
      [("#main/each-scatter-1", "\x7b\"in\":\"item a\"\x7d"),
        ("#main/each-scatter-2", "\x7b\"in\":\"item b\"\x7d")] ∧
    task.state.outputs.toJson.text = "\x7b\"in\":[\"item a\",\"item b\"]\x7d" ∧
    labelMachine.Gathers (.any (Tool.World Unit)) task := by
  have accepted : resolve labels = .ok labelRoot := by with_unfolding_all rfl
  have run : labelMachine.Runs (.any (Tool.World Unit)) labelStart labelLast :=
    Machine.runs_walk (fun _ => trivial) _ _ _
  have ended : (labelLast.at? [.child "#main/each"]).map (fun task =>
      (task.info.path, task.info.isScatter, task.phase.isOver)) = some ("#main/each", true, true) := by
    decide +kernel
  have values : (labelLast.at? [.child "#main/each"]).map (fun task =>
      (task.elements.map (fun e => (e.info.path, e.state.parameters.toJson.text)),
        task.state.outputs.toJson.text)) =
      some ([("#main/each-scatter-1", "\x7b\"in\":\"item a\"\x7d"),
        ("#main/each-scatter-2", "\x7b\"in\":\"item b\"\x7d")],
        "\x7b\"in\":[\"item a\",\"item b\"]\x7d") := by decide +kernel
  obtain ⟨task, at_, hended⟩ := Option.map_eq_some_iff.mp ended
  rw [at_, Option.map_some, Option.some.injEq] at values
  obtain ⟨path, hended⟩ := Prod.mk.inj hended
  obtain ⟨scatter, isOver⟩ := Prod.mk.inj hended
  obtain ⟨entries, outputs⟩ := Prod.mk.inj values
  have mem := Task.mem_descendants_of_at? at_
  exact ⟨task, mem, path, isOver, entries, outputs, gathered_in_order accepted run task mem scatter⟩

end WorkflowEngine.Scheduling
