import WorkflowEngine.Proofs.Outcomes
import WorkflowEngine.Proofs.Tasks
import WorkflowEngine.Scheduling.Graph

/-!
# What the checks of a document establish

**Circles.**  `visit` lists the steps that depend on no circle so that every step stands in front of its
producers: `Topological`.  The place in this list is a rank that falls from each step to its producers,
`Topological.rank_lt`, and so the steps of an accepted workflow can be put in an order:
`ordered_of_validateSources`.

**Validity.**  `Valid` is what `validate` establishes of a process and of all that it runs.

**Trees.**  `Wired` ties the children of a task to the steps of its process; every task of a tree that
was built from a valid process is wired and new (`wired_of_buildIn`).  Of several steps with one id the
last one counts, for the dependencies and for the children alike: `stepWith?`.
-/

namespace WorkflowEngine.Scheduling

open Document (Process Step)

variable {κ : Type}

/-- The step of a workflow with an id; of several, the last one. -/
def stepWith? (process : Process) (id : String) : Option Step :=
  OrderedMap.lastWith Step.id process.steps id

/-- The sources of a step. -/
def sourcesOf (step : Step) : List String := step.inputs.flatMap (·.sources)

/-! ## Circles -/

/-- A list of steps in which all producers of a step stand behind it. -/
inductive Topological (deps : OrderedMap (List String)) : List String → Prop
  | nil : Topological deps []
  | cons {step : String} {done : List String}
      (producers : ∀ p ∈ (deps.find? step).getD [], p ∈ done) (rest : Topological deps done) :
      Topological deps (step :: done)

/-- What a visit does to the list of steps that depend on no circle. -/
structure Visited (deps : OrderedMap (List String)) (steps done done' : List String) : Prop where
  topological : Topological deps done'
  reached : ∀ step ∈ steps, step ∈ done'
  kept : ∀ step ∈ done, step ∈ done'

/-- Visits one after the other do what each of them does. -/
lemma visited_of_foldlM {deps : OrderedMap (List String)}
    {go : List String → String → Except String (List String)}
    (one : ∀ {done done' : List String} {step : String}, go done step = .ok done' →
      Topological deps done → Visited deps [step] done done') :
    ∀ {steps done done' : List String}, steps.foldlM go done = .ok done' →
      Topological deps done → Visited deps steps done done'
  | [], done, done', h, hd => by
      obtain rfl : done = done' := by simpa [pure, Except.pure] using h
      exact ⟨hd, by simp, fun _ h => h⟩
  | step :: rest, done, done', h, hd => by
      rw [List.foldlM_cons, bind_eq_ok] at h
      obtain ⟨between, h₁, h₂⟩ := h
      have first := one h₁ hd
      have others := visited_of_foldlM one h₂ first.topological
      refine ⟨others.topological, fun s hs => ?_, fun s hs => others.kept s (first.kept s hs)⟩
      rcases List.mem_cons.mp hs with rfl | hs
      · exact others.kept s (first.reached s (List.mem_singleton_self s))
      · exact others.reached s hs

/-- **A visit that meets no circle** puts the step in front of its producers. -/
theorem visited_of_visit {deps : OrderedMap (List String)} :
    ∀ {fuel : Nat} {stack done done' : List String} {step : String},
      visit deps fuel stack done step = .ok done' → Topological deps done →
      Visited deps [step] done done'
  | 0, stack, done, done', step, h, hd => by simp [visit] at h
  | fuel + 1, stack, done, done', step, h, hd => by
      rw [visit] at h
      split_ifs at h with hdone hstack
      · obtain rfl : done = done' := by simpa using h
        exact ⟨hd, by simpa using hdone, fun _ h => h⟩
      · obtain ⟨between, h₁, h₂⟩ := bind_eq_ok.mp h
        obtain rfl : step :: between = done' := by simpa [pure, Except.pure] using h₂
        have below := visited_of_foldlM (fun hv ht => visited_of_visit hv ht) h₁ hd
        exact ⟨.cons below.reached below.topological, by simp,
          fun s hs => List.mem_cons_of_mem _ (below.kept s hs)⟩

lemma Topological.mem_of_producer {deps : OrderedMap (List String)} {done : List String}
    (h : Topological deps done) {step producer : String} (hs : step ∈ done)
    (hp : producer ∈ (deps.find? step).getD []) : producer ∈ done := by
  induction h with
  | nil => simp at hs
  | cons producers _ ih =>
      rcases List.mem_cons.mp hs with rfl | hs
      · exact List.mem_cons_of_mem _ (producers producer hp)
      · exact List.mem_cons_of_mem _ (ih hs)

/-- The place of a step, counted from the one that was done first. -/
def rank (done : List String) (step : String) : Nat := done.reverse.idxOf step

/-- **Producers have a lower rank.** -/
theorem Topological.rank_lt {deps : OrderedMap (List String)} {done : List String}
    (h : Topological deps done) {step producer : String} (hs : step ∈ done)
    (hp : producer ∈ (deps.find? step).getD []) : rank done producer < rank done step := by
  induction h with
  | nil => simp at hs
  | @cons head rest producers topological ih =>
      have hrank {s : String} (h : s ∈ rest) : rank (head :: rest) s = rank rest s := by
        rw [rank, rank, List.reverse_cons, List.idxOf_append_of_mem (List.mem_reverse.mpr h)]
      by_cases hrest : step ∈ rest
      · rw [hrank hrest, hrank (topological.mem_of_producer hrest hp)]
        exact ih hrest
      · obtain rfl : step = head := (List.mem_cons.mp hs).resolve_right hrest
        have hmem := producers producer hp
        have hlt : rank rest producer < rest.reverse.length :=
          List.idxOf_lt_length_of_mem (List.mem_reverse.mpr hmem)
        have hhead : rest.reverse.length ≤ rank (step :: rest) step := by
          rw [rank, List.reverse_cons, List.idxOf_append_of_notMem (by simpa using hrest)]
          exact Nat.le_add_right ..
        rw [hrank hmem]
        exact Nat.lt_of_lt_of_le hlt hhead

lemma topological_of_checkAcyclic {deps : OrderedMap (List String)}
    (h : checkAcyclic deps = .ok ()) :
    ∃ done, Topological deps done ∧ ∀ step ∈ deps.keys, step ∈ done := by
  unfold checkAcyclic at h
  dsimp only at h
  split at h
  · next done hd =>
      have hv := visited_of_foldlM (fun h ht => visited_of_visit h ht) hd .nil
      exact ⟨done, hv.topological, fun s hs => hv.reached s (by simpa using hs)⟩
  · simp [unresolved] at h

/-! ## Sources -/

/-- The steps of a workflow can be put in an order in which each comes after its producers. -/
def Ordered (process : Process) : Prop :=
  ∃ rank : String → Nat, ∀ id step, stepWith? process id = some step →
    ∀ source ∈ sourcesOf step, ∀ producer, (outputSteps process).find? source = some producer →
      rank producer < rank id

/-- The outputs of the steps of a workflow, each with the id of its step, in the order of the steps. -/
def outputPairs (process : Process) : List (String × String) :=
  process.steps.flatMap fun step => step.outputs.map fun name => (step.outputId name, step.id)

lemma outputSteps_eq (process : Process) :
    outputSteps process = OrderedMap.ofList (outputPairs process) := by
  simp only [outputSteps, outputPairs, OrderedMap.ofList, List.foldl_flatMap, List.foldl_map]

/-- The producer of a source is a step with this source among its outputs. -/
lemma exists_step_of_outputSteps {process : Process} {source producer : String}
    (h : (outputSteps process).find? source = some producer) :
    ∃ step ∈ process.steps, step.id = producer ∧
      ∃ name ∈ step.outputs, source = step.outputId name := by
  rw [outputSteps_eq, OrderedMap.find?_ofList] at h
  obtain ⟨⟨_, _⟩, hpair, rfl⟩ := Option.map_eq_some_iff.mp h
  obtain ⟨hmem, hsource⟩ := OrderedMap.mem_of_lastWith hpair
  obtain ⟨step, hs, hmem⟩ := List.mem_flatMap.mp hmem
  obtain ⟨name, hname, hpair⟩ := List.mem_map.mp hmem
  obtain ⟨rfl, rfl⟩ := Prod.mk.inj hpair
  exact ⟨step, hs, rfl, name, hname, hsource.symm⟩

/-- The producer of an output is one of the steps. -/
lemma stepWith?_of_outputSteps {process : Process} {source producer : String}
    (h : (outputSteps process).find? source = some producer) :
    (stepWith? process producer).isSome = true := by
  obtain ⟨step, hs, rfl, -⟩ := exists_step_of_outputSteps h
  exact OrderedMap.lastWith_isSome hs

/-- The producer of each source of a step is one of the step's producers. -/
lemma mem_producersOf {process : Process} {step : Step} {producers : List String}
    (h : producersOf process step = .ok producers) {source producer : String}
    (hs : source ∈ sourcesOf step)
    (hp : (outputSteps process).find? source = some producer) : producer ∈ producers := by
  rw [producersOf, bind_eq_ok] at h
  obtain ⟨checked, hc, h⟩ := h
  obtain rfl : checked.filterMap id = producers := by simpa [pure, Except.pure] using h
  obtain ⟨y, hy, hcheck⟩ := forall₂_mem_left (mapM_eq_ok_iff.mp hc) hs
  obtain rfl : some producer = y := by simpa [checkSource, hp] using hcheck
  exact List.mem_filterMap.mpr ⟨some producer, hy, rfl⟩

/-- **The steps of a checked workflow can be put in an order.** -/
theorem ordered_of_validateSources {process : Process} (h : validateSources process = .ok ()) :
    Ordered process := by
  rw [validateSources, bind_eq_ok] at h
  obtain ⟨deps, hdeps, h⟩ := h
  obtain ⟨_, -, h⟩ := bind_eq_ok.mp h
  obtain ⟨done, topological, covered⟩ := topological_of_checkAcyclic h
  refine ⟨rank done, fun id step hstep source hsource producer hp => ?_⟩
  have hentry := OrderedMap.find?_of_collect Step.id (producersOf process) hdeps id
  rw [show OrderedMap.lastWith Step.id process.steps id = some step from hstep] at hentry
  obtain ⟨producers, hproducers, hfind⟩ := hentry
  refine topological.rank_lt (covered id ?_) ?_
  · exact OrderedMap.mem_keys_of_mem (OrderedMap.mem_of_find? hfind)
  · rw [hfind]
    exact mem_producersOf hproducers hsource hp

/-! ## Validity -/

/-- What the checks establish of a process and of all that it runs. -/
inductive Valid (document : Document) : Process → Prop
  | tool {process : Process} (tool : process.isWorkflow = false) : Valid document process
  | workflow {process : Process} (sources : validateSources process = .ok ())
      (found : ∀ step ∈ process.steps, ∃ target, runTarget document step = .ok target)
      (targets : ∀ step ∈ process.steps, ∀ target, runTarget document step = .ok target →
        Valid document target) : Valid document process

lemma steps_eq_nil {process : Process} (h : process.isWorkflow = false) : process.steps = [] := by
  unfold Document.Process.isWorkflow at h
  unfold Document.Process.steps
  split <;> simp_all

/-- What the checks find of a process: a tool, or a workflow with checked sources all of whose steps run
checked processes. -/
lemma validateIn_eq_ok {document : Document} {fuel : Nat} {stack : List String} {process : Process}
    (h : validateIn document (fuel + 1) stack process = .ok ()) :
    (process.isWorkflow = false ∨ validateSources process = .ok ()) ∧
      ∀ step ∈ process.steps, ∃ target, runTarget document step = .ok target ∧
        validateIn document fuel (process.id :: stack) target = .ok () := by
  rw [validateIn] at h
  split_ifs at h with hstack htool
  · simp [unresolved] at h
  · have hw : process.isWorkflow = false := by simpa using htool
    exact ⟨Or.inl hw, by simp [steps_eq_nil hw]⟩
  · obtain ⟨_, hsources, h⟩ := bind_eq_ok.mp h
    refine ⟨Or.inr hsources, fun step hs => ?_⟩
    exact bind_eq_ok.mp (forM_eq_ok h step hs)

theorem valid_of_validateIn {document : Document} :
    ∀ {fuel : Nat} {stack : List String} {process : Process},
      validateIn document fuel stack process = .ok () → Valid document process
  | 0, _, _, h => by simp [validateIn, unresolved] at h
  | fuel + 1, stack, process, h => by
      obtain ⟨htool | hsources, hsteps⟩ := validateIn_eq_ok h
      · exact .tool htool
      · refine .workflow hsources (fun step hs => ?_) (fun step hs target ht => ?_)
        · obtain ⟨target, ht, -⟩ := hsteps step hs
          exact ⟨target, ht⟩
        · obtain ⟨t, ht', hv⟩ := hsteps step hs
          rw [ht] at ht'
          exact Except.ok.inj ht' ▸ valid_of_validateIn hv

lemma Valid.ordered {document : Document} {process : Process} (h : Valid document process) :
    Ordered process := by
  cases h with
  | tool tool =>
      refine ⟨fun _ => 0, fun id step hstep => ?_⟩
      simp [stepWith?, OrderedMap.lastWith, steps_eq_nil tool] at hstep
  | workflow sources _ _ => exact ordered_of_validateSources sources

lemma Valid.target {document : Document} {process : Process} (h : Valid document process)
    {step : Step} (hs : step ∈ process.steps) {target : Process}
    (ht : runTarget document step = .ok target) : Valid document target := by
  cases h with
  | tool tool => simp [steps_eq_nil tool] at hs
  | workflow _ _ targets => exact targets step hs target ht

/-! ## Trees -/

/-- The tasks below a task are those of the steps of its process. -/
structure Wired (document : Document) (task : Task κ) : Prop where
  valid : Valid document task.info.process
  scattered : task.info.isScatter = true → task.children = []
  nodup : task.children.keys.Nodup
  child : ∀ id child, task.children.find? id = some child →
    ∃ step, stepWith? task.info.process id = some step ∧ child.info.step = some step
  present : task.info.isScatter = false → ∀ id,
    (stepWith? task.info.process id).isSome = true → (task.children.find? id).isSome = true

/-- No work has been done on the task. -/
structure New (task : Task κ) : Prop where
  phase : task.phase = .idle
  state : task.state = .fresh
  elements : task.elements = []

/-- What the tasks below a task are. -/
def infosBelow (task : Task κ) : OrderedMap TaskInfo := task.children.map fun p => (p.1, p.2.info)

lemma find?_infosBelow (task : Task κ) (id : String) :
    (infosBelow task).find? id = (task.children.find? id).map Task.info :=
  OrderedMap.find?_mapValues (fun p : String × Task κ => p.2.info) task.children id

/-- How a task is wired depends only on what it and the tasks below it are. -/
lemma Wired.congr {document : Document} {task next : Task κ} (h : Wired document task)
    (hi : next.info = task.info) (hb : infosBelow next = infosBelow task) :
    Wired document next := by
  have hfind (id : String) :
      (next.children.find? id).map Task.info = (task.children.find? id).map Task.info := by
    rw [← find?_infosBelow, ← find?_infosBelow, hb]
  have hkeys : next.children.keys = task.children.keys := by
    have hk := congrArg OrderedMap.keys hb
    simpa [infosBelow, OrderedMap.keys_mapValues] using hk
  refine ⟨hi ▸ h.valid, fun hs => ?_, hkeys ▸ h.nodup, fun id child hc => ?_, fun hs id hid => ?_⟩
  · have hnil := h.scattered (hi ▸ hs)
    rw [hnil] at hkeys
    simpa [OrderedMap.keys] using hkeys
  · have hf := hfind id
    rw [hc, Option.map_some] at hf
    obtain ⟨old, hold, hinfo⟩ := Option.map_eq_some_iff.mp hf.symm
    obtain ⟨step, hstep, hs⟩ := h.child id old hold
    exact ⟨step, hi ▸ hstep, hinfo ▸ hs⟩
  · have hp := h.present (hi ▸ hs) id (hi ▸ hid)
    rw [← Option.isSome_map, hfind id, Option.isSome_map]
    exact hp

/-- The task of a step of a workflow. -/
def childInfo (info : TaskInfo) (step : Step) (target : Process) : TaskInfo where
  id := info.path ++ "/" ++ step.name
  process := target
  step := some step
  index := none
  requirements := Document.Requirement.merge target.requirements
    (Document.Requirement.merge step.requirements info.requirements)
  hints := Document.Requirement.merge target.hints (Document.Requirement.merge step.hints info.hints)

/-- Builds the task of a step. -/
def buildChild (document : Document) (fuel : Nat) (info : TaskInfo) (step : Step) :
    Outcome (Task κ) := do
  buildIn document fuel (childInfo info step (← runTarget document step))

/-- The tasks of the steps below a task; a scattered step has none before it is started. -/
def buildChildren (document : Document) (fuel : Nat) (info : TaskInfo) :
    Outcome (OrderedMap (Task κ)) :=
  if info.isScatter then .ok []
  else info.process.steps.foldlM (fun map step => do
    return map.insert step.id (← buildChild document fuel info step)) []

lemma buildIn_succ (document : Document) (fuel : Nat) (info : TaskInfo) :
    buildIn document (fuel + 1) info =
      (buildChildren document fuel info).map fun children : OrderedMap (Task κ) =>
        .node info .fresh .idle children [] := by
  have hstep (map : OrderedMap (Task κ)) (step : Step) :
      (do let target ← runTarget document step
          let child ← buildIn document fuel (childInfo info step target)
          return map.insert step.id child) =
      (do return map.insert step.id (← buildChild document fuel info step) :
        Outcome (OrderedMap (Task κ))) := by
    simp only [buildChild, bind_assoc]
  rw [buildIn, buildChildren]
  split_ifs with hs
  · rfl
  · have hfold : info.process.steps.foldlM (fun (map : OrderedMap (Task κ)) step => do
        let target ← runTarget document step
        let child ← buildIn document fuel (childInfo info step target)
        return map.insert step.id child) [] =
      info.process.steps.foldlM (fun (map : OrderedMap (Task κ)) step => do
        return map.insert step.id (← buildChild document fuel info step)) [] := by
      congr 1
      funext map step
      exact hstep map step
    rw [← hfold]
    rfl

lemma buildIn_eq_ok {document : Document} {fuel : Nat} {info : TaskInfo} {task : Task κ}
    (h : buildIn document (fuel + 1) info = .ok task) : ∃ children : OrderedMap (Task κ),
      task = .node info .fresh .idle children [] ∧
      (if info.isScatter then children = [] else
        info.process.steps.foldlM (fun (map : OrderedMap (Task κ)) step => do
          return map.insert step.id (← buildChild document fuel info step)) [] = .ok children) := by
  rw [buildIn_succ] at h
  obtain ⟨children, hc, rfl⟩ := map_eq_ok_iff.mp h
  refine ⟨children, rfl, ?_⟩
  rw [buildChildren] at hc
  split_ifs at hc ⊢
  · exact (Except.ok.inj hc).symm
  · exact hc

/-- **Every task of a tree is wired and new** when the tree is built from a valid process. -/
theorem wired_of_buildIn {document : Document} :
    ∀ {fuel : Nat} {info : TaskInfo} {task : Task κ}, Valid document info.process →
      buildIn document fuel info = .ok task →
      task.info = info ∧ task.Everywhere (fun d => Wired document d ∧ New d)
  | 0, _, _, _, h => by simp [buildIn, unresolved] at h
  | fuel + 1, info, task, hv, h => by
      obtain ⟨children, rfl, hc⟩ := buildIn_eq_ok h
      refine ⟨rfl, ?_⟩
      split_ifs at hc with hs
      · subst hc
        refine Task.everywhere_iff.mpr ⟨⟨⟨hv, fun _ => rfl, by simp [Task.children], ?_, ?_⟩, rfl, rfl, rfl⟩,
          by simp [Task.children], by simp [Task.elements]⟩
        · simp [Task.children]
        · simp [Task.info, hs]
      · have hnodup : children.keys.Nodup := OrderedMap.nodup_keys_of_collect _ _ (by simp) hc
        have hchild (id : String) (child : Task κ) (hf : children.find? id = some child) :
            ∃ step, stepWith? info.process id = some step ∧ child.info.step = some step ∧
              child.Everywhere (fun d => Wired document d ∧ New d) := by
          have hentry := OrderedMap.find?_of_collect Step.id (buildChild document fuel info) hc id
          rw [show OrderedMap.lastWith Step.id info.process.steps id = stepWith? info.process id
            from rfl] at hentry
          cases hstep : stepWith? info.process id with
          | none => simp [hstep, hf] at hentry
          | some step =>
              rw [hstep] at hentry
              obtain ⟨built, hbuilt, hfind⟩ := hentry
              obtain rfl : built = child := Option.some.inj (hfind.symm.trans hf)
              obtain ⟨target, htarget, hbuild⟩ := bind_eq_ok.mp hbuilt
              have hmem := (OrderedMap.mem_of_lastWith hstep).1
              obtain ⟨hinfo, hbelow⟩ := wired_of_buildIn (hv.target hmem htarget) hbuild
              exact ⟨step, rfl, by rw [hinfo]; rfl, hbelow⟩
        refine Task.everywhere_iff.mpr ⟨⟨⟨hv, ?_, hnodup, ?_, ?_⟩, rfl, rfl, rfl⟩, ?_, ?_⟩
        · simp [Task.info, hs]
        · intro id child hf
          obtain ⟨step, hstep, hinfo, -⟩ := hchild id child hf
          exact ⟨step, hstep, hinfo⟩
        · intro _ id hid
          have hentry := OrderedMap.find?_of_collect Step.id (buildChild document fuel info) hc id
          obtain ⟨step, hstep⟩ := Option.isSome_iff_exists.mp hid
          rw [show OrderedMap.lastWith Step.id info.process.steps id = some step from hstep] at hentry
          obtain ⟨built, -, hfind⟩ := hentry
          exact Option.isSome_iff_exists.mpr ⟨built, hfind⟩
        · intro p hp
          obtain ⟨step, -, -, hbelow⟩ :=
            hchild p.1 p.2 ((OrderedMap.find?_eq_some_iff hnodup).mpr hp)
          exact hbelow
        · simp [Task.elements]

/-- **The tree of an accepted document** is wired and new. -/
theorem wired_of_resolve {document : Document} {root : Task κ} (h : resolve document = .ok root) :
    root.Everywhere (fun d => Wired document d ∧ New d) := by
  obtain ⟨main, -, h⟩ := bind_eq_ok.mp h
  obtain ⟨_, hvalid, h⟩ := bind_eq_ok.mp h
  have hmain : Valid document (mainInfo main).process := valid_of_validateIn hvalid
  exact (wired_of_buildIn hmain h).2

/-- So is the tree of a run of a scattered step. -/
theorem wired_of_elementTask {document : Document} {info : TaskInfo} {index : Nat} {task : Task κ}
    (hv : Valid document info.process) (h : elementTask document info index = .ok task) :
    task.Everywhere (fun d => Wired document d ∧ New d) := by
  have hrun : Valid document ({ info with index := some index } : TaskInfo).process := hv
  exact (wired_of_buildIn hrun h).2

end WorkflowEngine.Scheduling
