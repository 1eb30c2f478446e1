import Mathlib.Data.List.Nodup
import WorkflowEngine.Proofs.Acyclicity
import WorkflowEngine.Proofs.Completion
import WorkflowEngine.Proofs.Expansion
import WorkflowEngine.Proofs.LocalNames

/-!
# Which documents are accepted

The checks search a document in two ways: along the processes that run each other, and in each workflow
along the steps that take values from each other.  What they decide can be said without a search.

**Sources.**  A source of a workflow is known when it is an output of one of its steps or one of its
inputs.  Look-up by text finds exactly these (`checkSource_eq_ok_iff`), since a reference can be taken
apart in one way only.

**Workflows.**  `validateSources` passes if and only if all sources are known and no step depends on itself
(`validateSources_eq_ok_iff`).

**Documents.**  A document is accepted if and only if every workflow that its main process reaches is well
formed: `accepted_iff`.  The processes on the way form a path, so the depth limit rejects nothing that does
not run itself (`validateIn_of_wellFormed`).
-/

namespace WorkflowEngine.Scheduling

open Document (Process Step)
open Relation (ReflTransGen TransGen)

variable {κ : Type}

/-! ## Sources -/

/-- A source names an output that a step declares. -/
def IsOutputOf (step : Step) (source : String) : Prop :=
  ∃ name ∈ step.outputs, source = step.outputId name

/-- A source names an input that a process declares. -/
def IsInputOf (process : Process) (source : String) : Prop :=
  ∃ i ∈ process.inputs, source = process.id ++ "/" ++ i.id

/-- A source that a workflow can take values from. -/
def Known (process : Process) (source : String) : Prop :=
  (∃ step ∈ process.steps, IsOutputOf step source) ∨ IsInputOf process source

lemma isOwnInput_iff {process : Process} {source : String} :
    isOwnInput process source = true ↔ IsInputOf process source := by
  simp only [isOwnInput, Bool.and_eq_true, List.any_eq_true, decide_eq_true_eq, IsInputOf,
    List.isPrefixOf_iff_prefix]
  constructor
  · rintro ⟨⟨rest, hrest⟩, i, hi, hid⟩
    refine ⟨i, hi, ?_⟩
    rw [hid, ← hrest, List.drop_left, ← String.toList_inj]
    simp [← hrest]
  · rintro ⟨i, hi, rfl⟩
    exact ⟨⟨i.id.toList, by simp⟩, i, hi, by simp⟩

/-- The producer of a source is the step that declares it. -/
lemma find?_outputSteps_iff {process : Process} (named : WellNamed process) {source id : String} :
    (outputSteps process).find? source = some id ↔
      ∃ step ∈ process.steps, step.id = id ∧ IsOutputOf step source := by
  refine ⟨exists_step_of_outputSteps, ?_⟩
  rintro ⟨step, hs, rfl, name, hname, rfl⟩
  have hpair : (step.outputId name, step.id) ∈ outputPairs process :=
    List.mem_flatMap.mpr ⟨step, hs, List.mem_map.mpr ⟨name, hname, rfl⟩⟩
  have hfound : ((outputSteps process).find? (step.outputId name)).isSome = true := by
    rw [outputSteps_eq, OrderedMap.find?_ofList, Option.isSome_map]
    exact OrderedMap.lastWith_isSome hpair
  obtain ⟨id, hid⟩ := Option.isSome_iff_exists.mp hfound
  obtain ⟨other, hother, rfl, name', hname', heq⟩ := exists_step_of_outputSteps hid
  have hsame := Ident.append_slash_inj (named.stepOutput step hs name hname)
    (named.stepOutput other hother name' hname') heq
  rw [hid, hsame.1]

/-- **Look-up finds exactly the known sources.** -/
theorem checkSource_eq_ok_iff {process : Process} (named : WellNamed process)
    {owner source : String} :
    (∃ producer, checkSource process owner source = .ok producer) ↔ Known process source := by
  have hinput : isOwnInput process source = true ↔ IsInputOf process source := isOwnInput_iff
  have hsteps : (∃ step ∈ process.steps, IsOutputOf step source) ↔
      ∃ id, (outputSteps process).find? source = some id := by
    simp [find?_outputSteps_iff named]
  rw [Known, hsteps, ← hinput]
  unfold checkSource
  cases (outputSteps process).find? source with
  | some id => simp
  | none => cases isOwnInput process source <;> simp [unresolved]

/-! ## Workflows -/

/-- A step of a workflow takes a value from another one. -/
def TakesFrom (process : Process) (step producer : Step) : Prop :=
  step ∈ process.steps ∧ producer ∈ process.steps ∧
    ∃ source ∈ sourcesOf step, IsOutputOf producer source

lemma producersOf_eq_ok_iff {process : Process} (named : WellNamed process) {step : Step} :
    (∃ producers, producersOf process step = .ok producers) ↔
      ∀ source ∈ sourcesOf step, Known process source := by
  simp only [producersOf, bind_eq_ok]
  constructor
  · rintro ⟨_, checked, hchecked, -⟩ source hsource
    obtain ⟨producer, -, h⟩ := forall₂_mem_left (mapM_eq_ok_iff.mp hchecked) hsource
    exact (checkSource_eq_ok_iff named).mp ⟨producer, h⟩
  · intro known
    have hcheck (source : String) (hsource : source ∈ sourcesOf step) :
        ∃ producer, checkSource process step.id source = .ok producer :=
      (checkSource_eq_ok_iff named).mpr (known source hsource)
    obtain ⟨checked, hchecked⟩ := exists_mapM hcheck
    exact ⟨_, checked, hchecked, rfl⟩

lemma mem_producersOf_iff {process : Process} {step : Step} {producers : List String}
    (h : producersOf process step = .ok producers) {producer : String} :
    producer ∈ producers ↔
      ∃ source ∈ sourcesOf step, (outputSteps process).find? source = some producer := by
  refine ⟨fun hp => ?_, fun ⟨source, hs, hp⟩ => mem_producersOf h hs hp⟩
  obtain ⟨checked, hchecked, h⟩ := bind_eq_ok.mp h
  obtain rfl := Except.ok.inj h
  obtain ⟨_, hmem, rfl⟩ := List.mem_filterMap.mp hp
  obtain ⟨source, hsource, hcheck⟩ := forall₂_mem_right (mapM_eq_ok_iff.mp hchecked) hmem
  refine ⟨source, hsource, ?_⟩
  unfold checkSource at hcheck
  split at hcheck
  · next id hfind => rw [hfind, Option.some.inj (Except.ok.inj hcheck)]
  · split_ifs at hcheck <;> cases hcheck

/-- In a workflow whose steps have different ids an id stands for one step. -/
lemma stepWith?_eq_some_iff {process : Process} (distinct : (process.steps.map Step.id).Nodup)
    {id : String} {step : Step} :
    stepWith? process id = some step ↔ step ∈ process.steps ∧ step.id = id := by
  refine ⟨OrderedMap.mem_of_lastWith, ?_⟩
  rintro ⟨hs, rfl⟩
  have hsome : (stepWith? process step.id).isSome = true := OrderedMap.lastWith_isSome hs
  obtain ⟨other, hother⟩ := Option.isSome_iff_exists.mp hsome
  obtain ⟨hmem, hid⟩ := OrderedMap.mem_of_lastWith hother
  rw [hother, List.inj_on_of_nodup_map distinct hmem hs hid]

section Dependencies

variable {process : Process} {deps : OrderedMap (List String)}

lemma dependsOn_iff (named : WellNamed process) (distinct : (process.steps.map Step.id).Nodup)
    (h : dependencies process = .ok deps) {id producer : String} :
    DependsOn deps id producer ↔ ∃ step other, step.id = id ∧ other.id = producer ∧
      TakesFrom process step other := by
  have hentry := OrderedMap.find?_of_collect Step.id (producersOf process) h id
  rw [show OrderedMap.lastWith Step.id process.steps id = stepWith? process id from rfl] at hentry
  rw [DependsOn]
  cases hstep : stepWith? process id with
  | none =>
      rw [hstep] at hentry
      simp only [hentry, OrderedMap.find?_nil, Option.getD_none, List.not_mem_nil, false_iff]
      rintro ⟨step, _, hid, -, hs, -⟩
      rw [(stepWith?_eq_some_iff distinct).mpr ⟨hs, hid⟩] at hstep
      cases hstep
  | some step =>
      rw [hstep] at hentry
      obtain ⟨producers, hproducers, hfind⟩ := hentry
      obtain ⟨hs, hid⟩ := (stepWith?_eq_some_iff distinct).mp hstep
      rw [hfind, Option.getD_some, mem_producersOf_iff hproducers]
      constructor
      · rintro ⟨source, hsource, hp⟩
        obtain ⟨other, hother, hid', hout⟩ := (find?_outputSteps_iff named).mp hp
        exact ⟨step, other, hid, hid', hs, hother, source, hsource, hout⟩
      · rintro ⟨step', other, hstep', hid', hs', hother, source, hsource, hout⟩
        obtain rfl := List.inj_on_of_nodup_map distinct hs' hs (hstep'.trans hid.symm)
        exact ⟨source, hsource, (find?_outputSteps_iff named).mpr ⟨other, hother, hid', hout⟩⟩

/-- The circles among the ids of steps are those among the steps. -/
lemma transGen_dependsOn_iff (named : WellNamed process)
    (distinct : (process.steps.map Step.id).Nodup) (h : dependencies process = .ok deps)
    {id producer : String} :
    TransGen (DependsOn deps) id producer ↔ ∃ step other, step.id = id ∧ other.id = producer ∧
      TransGen (TakesFrom process) step other := by
  constructor
  · intro path
    induction path with
    | single hd =>
        obtain ⟨step, other, hid, hid', htakes⟩ := (dependsOn_iff named distinct h).mp hd
        exact ⟨step, other, hid, hid', .single htakes⟩
    | tail _ hd ih =>
        obtain ⟨step, other, hid, hother, hpath⟩ := ih
        obtain ⟨other', last, hother', hlast, htakes⟩ := (dependsOn_iff named distinct h).mp hd
        have hmem : other ∈ process.steps := by
          cases hpath with
          | single htakes => exact htakes.2.1
          | tail _ htakes => exact htakes.2.1
        obtain rfl := List.inj_on_of_nodup_map distinct hmem htakes.1 (hother.trans hother'.symm)
        exact ⟨step, last, hid, hlast, hpath.tail htakes⟩
  · rintro ⟨step, other, rfl, rfl, path⟩
    exact path.lift Step.id fun _ _ htakes =>
      (dependsOn_iff named distinct h).mpr ⟨_, _, rfl, rfl, htakes⟩

/-- **The check for circles** among the dependencies of a workflow decides whether a step takes values
from itself. -/
theorem checkAcyclic_dependencies_iff (named : WellNamed process)
    (distinct : (process.steps.map Step.id).Nodup) (h : dependencies process = .ok deps) :
    checkAcyclic deps = .ok () ↔ ∀ step, ¬ TransGen (TakesFrom process) step step := by
  have hkeys : deps.keys = OrderedMap.firstKeys Step.id process.steps :=
    OrderedMap.keys_of_collect Step.id (producersOf process) h
  have closed (id producer : String) (hd : DependsOn deps id producer) : producer ∈ deps.keys := by
    obtain ⟨_, other, -, rfl, htakes⟩ := (dependsOn_iff named distinct h).mp hd
    exact hkeys ▸ OrderedMap.mem_firstKeys.mpr ⟨other, htakes.2.1, rfl⟩
  rw [checkAcyclic_eq_ok_iff closed]
  constructor
  · intro acyclic step circle
    exact acyclic step.id ((transGen_dependsOn_iff named distinct h).mpr ⟨step, step, rfl, rfl, circle⟩)
  · intro acyclic id circle
    obtain ⟨step, other, hid, hother, path⟩ := (transGen_dependsOn_iff named distinct h).mp circle
    have hmem : step ∈ process.steps ∧ other ∈ process.steps := by
      refine ⟨?_, ?_⟩
      · obtain ⟨_, htakes, -⟩ := TransGen.head'_iff.mp path
        exact htakes.1
      · obtain ⟨_, -, htakes⟩ := TransGen.tail'_iff.mp path
        exact htakes.2.1
    obtain rfl := List.inj_on_of_nodup_map distinct hmem.1 hmem.2 (hid.trans hother.symm)
    exact acyclic step path

end Dependencies

lemma exists_dependencies_iff {process : Process} (named : WellNamed process) :
    (∃ deps, dependencies process = .ok deps) ↔
      ∀ step ∈ process.steps, ∀ source ∈ sourcesOf step, Known process source := by
  constructor
  · rintro ⟨deps, h⟩ step hs
    obtain ⟨producers, hproducers⟩ := OrderedMap.exists_entry_of_collect h step hs
    exact (producersOf_eq_ok_iff named).mp ⟨producers, hproducers⟩
  · intro known
    exact OrderedMap.exists_collect Step.id (producersOf process) [] fun step hs =>
      (producersOf_eq_ok_iff named).mpr (known step hs)

/-- A checked workflow has known sources, and dependencies without a circle. -/
lemma validateSources_eq_ok {process : Process} (named : WellNamed process) :
    validateSources process = .ok () ↔
      (∃ deps, dependencies process = .ok deps ∧ checkAcyclic deps = .ok ()) ∧
      ∀ output ∈ process.outputs, ∀ source ∈ output.sources, Known process source := by
  have houtputs (u : Unit) : (forIn process.outputs PUnit.unit fun (output : Document.Output) _ => do
      forIn output.sources PUnit.unit fun source _ => do
        let _ ← checkSource process ("output '" ++ output.id ++ "'") source
        pure (ForInStep.yield PUnit.unit)
      pure (ForInStep.yield PUnit.unit)) = .ok u ↔
      ∀ output ∈ process.outputs, ∀ source ∈ output.sources, Known process source := by
    rw [forIn_eq_ok_iff]
    refine forall₂_congr fun output _ => ?_
    have hone : (∃ u, (forIn output.sources PUnit.unit fun source _ => do
        let _ ← checkSource process ("output '" ++ output.id ++ "'") source
        pure (ForInStep.yield PUnit.unit)) = .ok u) ↔ ∀ source ∈ output.sources,
          ∃ producer, checkSource process ("output '" ++ output.id ++ "'") source = .ok producer := by
      rw [← forIn_eq_ok_iff]
      exact ⟨fun ⟨_, h⟩ => h, fun h => ⟨_, h⟩⟩
    rw [hone]
    exact forall₂_congr fun source _ => checkSource_eq_ok_iff named
  rw [validateSources]
  simp only [bind_eq_ok, houtputs]
  constructor
  · rintro ⟨deps, hdeps, _, hout, hacyclic⟩
    exact ⟨⟨deps, hdeps, hacyclic⟩, hout⟩
  · rintro ⟨⟨deps, hdeps, hacyclic⟩, hout⟩
    exact ⟨deps, hdeps, ⟨⟩, hout, hacyclic⟩

/-- **The check of a workflow is exact.** -/
theorem validateSources_eq_ok_iff {process : Process} (named : WellNamed process)
    (distinct : (process.steps.map Step.id).Nodup) :
    validateSources process = .ok () ↔
      (∀ step ∈ process.steps, ∀ source ∈ sourcesOf step, Known process source) ∧
      (∀ output ∈ process.outputs, ∀ source ∈ output.sources, Known process source) ∧
      ∀ step, ¬ TransGen (TakesFrom process) step step := by
  rw [validateSources_eq_ok named, ← exists_dependencies_iff named]
  constructor
  · rintro ⟨⟨deps, hdeps, hacyclic⟩, hout⟩
    exact ⟨⟨deps, hdeps⟩, hout, (checkAcyclic_dependencies_iff named distinct hdeps).mp hacyclic⟩
  · rintro ⟨⟨deps, hdeps⟩, hout, acyclic⟩
    exact ⟨⟨deps, hdeps, (checkAcyclic_dependencies_iff named distinct hdeps).mpr acyclic⟩, hout⟩

/-! ## Documents -/

/-- A process runs another one in one of its steps. -/
def Calls (document : Document) (process target : Process) : Prop :=
  ∃ step ∈ process.steps, document.process? step.run = some target

/-- A process that look-up gives. -/
def Found (document : Document) (process : Process) : Prop :=
  ∃ id, document.process? id = some process

/-- What is asked of a workflow. -/
structure WellFormed (document : Document) (process : Process) : Prop where
  /-- Every step runs a process of the document. -/
  target : ∀ step ∈ process.steps, ∃ target, document.process? step.run = some target
  /-- The workflow does not run itself, directly or through other workflows. -/
  once : ¬ TransGen (Calls document) process process
  stepSource : ∀ step ∈ process.steps, ∀ source ∈ sourcesOf step, Known process source
  outputSource : ∀ output ∈ process.outputs, ∀ source ∈ output.sources, Known process source
  /-- No step takes a value from itself, directly or through other steps. -/
  acyclic : ∀ step, ¬ TransGen (TakesFrom process) step step

section Documents

variable {document : Document}

lemma runTarget_eq_ok_iff {step : Step} {target : Process} :
    runTarget document step = .ok target ↔ document.process? step.run = some target := by
  rw [runTarget]
  cases document.process? step.run <;> simp [unresolved]

lemma mem_of_process? {id : String} {process : Process} (h : document.process? id = some process) :
    process ∈ document.processes ∧ process.id = Ident.normalize id :=
  ⟨List.mem_of_find?_eq_some h, by simpa using List.find?_some h⟩

lemma mainProcess_eq_ok_iff {main : Process} :
    document.mainProcess = .ok main ↔ document.process? "#main" = some main := by
  rw [Document.mainProcess]
  cases document.process? "#main" <;> simp

/-- A process that look-up gives is determined by its id. -/
lemma Found.eq_of_id {process process' : Process} (h : Found document process)
    (h' : Found document process') (same : process.id = process'.id) : process = process' := by
  obtain ⟨id, h⟩ := h
  obtain ⟨id', h'⟩ := h'
  rw [(mem_of_process? h).2, (mem_of_process? h').2] at same
  rw [Document.process?, same] at h
  exact Option.some.inj (h.symm.trans h')

/-- What a process reaches that look-up gives is given by look-up too. -/
lemma Found.reaches {process target : Process} (h : Found document process)
    (path : ReflTransGen (Calls document) process target) : Found document target := by
  rcases path.cases_tail with rfl | ⟨_, -, step, -, htarget⟩
  · exact h
  · exact ⟨step.run, htarget⟩

lemma Found.mem {process : Process} (h : Found document process) : process ∈ document.processes := by
  obtain ⟨_, h⟩ := h
  exact (mem_of_process? h).1

/-- A process that a checked process reaches has been checked. -/
lemma Valid.reaches {process target : Process} (h : Valid document process)
    (path : ReflTransGen (Calls document) process target) : Valid document target := by
  induction path with
  | refl => exact h
  | tail _ hcall ih =>
      obtain ⟨step, hs, htarget⟩ := hcall
      exact ih.target hs (runTarget_eq_ok_iff.mpr htarget)

lemma not_calls_of_tool {process target : Process} (tool : process.isWorkflow = false) :
    ¬ Calls document process target := by
  rintro ⟨step, hs, -⟩
  simp [steps_eq_nil tool] at hs

/-- A checked process does not run itself, since what it runs was checked before it. -/
lemma Valid.once {process : Process} (h : Valid document process) :
    ¬ TransGen (Calls document) process process := by
  refine not_transGen_self_of_acc ?_
  induction h with
  | tool tool => exact ⟨_, fun _ hcall => absurd hcall (not_calls_of_tool tool)⟩
  | workflow _ _ _ ih =>
      refine ⟨_, fun target ⟨step, hs, htarget⟩ => ?_⟩
      exact ih step hs target (runTarget_eq_ok_iff.mpr htarget)

lemma Valid.wellFormed {process : Process} (h : Valid document process) (named : WellNamed process)
    (distinct : (process.steps.map Step.id).Nodup) (workflow : process.isWorkflow = true) :
    WellFormed document process := by
  have once := h.once
  cases h with
  | tool tool => simp [tool] at workflow
  | workflow sources found _ =>
      obtain ⟨hsteps, houtputs, hacyclic⟩ := (validateSources_eq_ok_iff named distinct).mp sources
      refine ⟨fun step hs => ?_, once, hsteps, houtputs, hacyclic⟩
      obtain ⟨target, htarget⟩ := found step hs
      exact ⟨target, runTarget_eq_ok_iff.mp htarget⟩

/-- No process runs itself when the workflows are well formed. -/
lemma once_of_wellFormed {process : Process}
    (wellFormed : process.isWorkflow = true → WellFormed document process) :
    ¬ TransGen (Calls document) process process := by
  cases hw : process.isWorkflow with
  | true => exact (wellFormed hw).once
  | false =>
      intro circle
      obtain ⟨_, hcall, -⟩ := TransGen.head'_iff.mp circle
      exact not_calls_of_tool hw hcall

/-- **Well-formed workflows pass the checks**, which the number of processes never stops. -/
theorem validateIn_of_wellFormed {main : Process}
    (named : ∀ p ∈ document.processes, WellNamed p)
    (distinct : ∀ p ∈ document.processes, (p.steps.map Step.id).Nodup)
    (hmain : Found document main)
    (wellFormed : ∀ p, ReflTransGen (Calls document) main p → p.isWorkflow = true →
      WellFormed document p) :
    ∀ {fuel : Nat} {stack : List Process} {process : Process},
      (process :: stack).IsChain (fun target process => Calls document process target) →
      (∀ p ∈ process :: stack, ReflTransGen (Calls document) main p) →
      document.processes.length < fuel + stack.length →
      validateIn document fuel (stack.map (·.id)) process = .ok () := by
  have found (p : Process) (hp : ReflTransGen (Calls document) main p) : Found document p :=
    hmain.reaches hp
  have once (p : Process) (hp : ReflTransGen (Calls document) main p) :
      ¬ TransGen (fun target process => Calls document process target) p p :=
    not_transGen_swap_self (once_of_wellFormed (wellFormed p hp))
  intro fuel
  induction fuel with
  | zero =>
      intro stack process path reached enough
      have inside : process :: stack ⊆ document.processes := fun p hp => (found p (reached p hp)).mem
      have hlength := length_le_of_isChain path (fun p hp => once p (reached p hp)) inside
      rw [List.length_cons] at hlength
      omega
  | succ fuel ih =>
      intro stack process path reached enough
      have hnodup := nodup_of_isChain path fun p hp => once p (reached p hp)
      have hprocess := reached process List.mem_cons_self
      -- A process of the stack with the same id would be the same process.
      have hnew : ¬ (stack.map (·.id)).contains process.id = true := by
        rw [List.contains_iff_mem, List.mem_map]
        rintro ⟨other, hother, hsame⟩
        have hfound := found other (reached other (List.mem_cons_of_mem _ hother))
        obtain rfl := hfound.eq_of_id (found process hprocess) hsame
        exact (List.nodup_cons.mp hnodup).1 hother
      rw [validateIn]
      split_ifs with htool
      · rfl
      · have hworkflow : process.isWorkflow = true := by simpa using htool
        have hwf := wellFormed process hprocess hworkflow
        have hmem := (found process hprocess).mem
        have hsources := (validateSources_eq_ok_iff (named process hmem) (distinct process hmem)).mpr
          ⟨hwf.stepSource, hwf.outputSource, hwf.acyclic⟩
        refine bind_eq_ok.mpr ⟨(), hsources, forM_eq_ok_of_forall fun step hs => ?_⟩
        obtain ⟨target, htarget⟩ := hwf.target step hs
        have hcall : Calls document process target := ⟨step, hs, htarget⟩
        refine bind_eq_ok.mpr ⟨target, runTarget_eq_ok_iff.mpr htarget, ?_⟩
        have enough' : document.processes.length < fuel + (process :: stack).length := by
          rw [List.length_cons]
          omega
        exact ih (List.isChain_cons_cons.mpr ⟨hcall, path⟩)
          (List.forall_mem_cons.mpr ⟨hprocess.tail hcall, reached⟩) enough'

end Documents

/-! ## Acceptance -/

/-- **Acceptance is exact**: a document that is read, and in which no workflow has two steps with one id,
is accepted if and only if its main process is there and every workflow that it reaches is well formed. -/
theorem accepted_iff {json : Json} {document : Document} (read : Document.ofJson json = .ok document)
    (distinct : ∀ p ∈ document.processes, (p.steps.map Step.id).Nodup) :
    (∃ root : Task κ, resolve document = .ok root) ↔
      ∃ main, document.process? "#main" = some main ∧
        ∀ process, ReflTransGen (Calls document) main process → process.isWorkflow = true →
          WellFormed document process := by
  have named := Document.wellNamed_of_ofJson read
  constructor
  · rintro ⟨root, h⟩
    obtain ⟨main, hmain, h⟩ := bind_eq_ok.mp h
    obtain ⟨_, hvalid, -⟩ := bind_eq_ok.mp h
    have hfound : document.process? "#main" = some main := mainProcess_eq_ok_iff.mp hmain
    refine ⟨main, hfound, fun process path workflow => ?_⟩
    have hmem : process ∈ document.processes := (Found.reaches ⟨_, hfound⟩ path).mem
    exact ((valid_of_validateIn hvalid).reaches path).wellFormed (named process hmem)
      (distinct process hmem) workflow
  · rintro ⟨main, hmain, wellFormed⟩
    have hvalid : validateIn document (depthLimit document) [] main = .ok () := by
      have reached : ∀ p ∈ [main], ReflTransGen (Calls document) main p := by
        simpa using ReflTransGen.refl
      exact validateIn_of_wellFormed named distinct ⟨_, hmain⟩ wellFormed (List.isChain_singleton main)
        reached (by simp [depthLimit])
    obtain ⟨root, hroot⟩ : ∃ root : Task κ, buildTask document (mainInfo main) = .ok root :=
      exists_buildIn hvalid le_rfl
    exact ⟨root, bind_eq_ok.mpr ⟨main, mainProcess_eq_ok_iff.mpr hmain,
      bind_eq_ok.mpr ⟨(), hvalid, hroot⟩⟩⟩

/-! ## A nested workflow -/

/-- A step with one input and one output as it is written in a document. -/
def stepJson (id run source : String) : Json :=
  .obj [("id", .str id), ("run", .str run), ("in", .obj [("in", .str source)]),
    ("out", .arr [.str "out"])]

/-- A workflow with one input and one output as it is written in a document. -/
def workflowJson (id source : String) (steps : List Json) : Json :=
  .obj [("id", .str id), ("class", .str "Workflow"), ("inputs", .arr [.str "in"]),
    ("outputs", .arr [.obj [("id", .str "out"), ("outputSource", .str source)]]), ("steps", .arr steps)]

def toolJson : Json :=
  .obj [("id", .str "#pass"), ("class", .str "ExpressionTool"), ("expression", .str ""),
    ("outputs", .arr [.str "out"])]

def documentJson (processes : List Json) : Json :=
  .obj [("cwlVersion", .str "v1.2"), ("$graph", .arr processes)]

/-- What is read of such a workflow. -/
def relayWorkflow (id source : String) (steps : List Step) : Process where
  id
  body := .workflow steps
  inputs := [⟨"in", .any, none, none, [], false⟩]
  outputs := [⟨"out", .any, none, [], [source]⟩]
  requirements := []
  hints := []

/-- A workflow that runs another one, which runs a tool. -/
def nestedRelayJson : Json :=
  documentJson [workflowJson "#main" "only/out" [stepJson "only" "#inner" "in"],
    workflowJson "#inner" "leaf/out" [stepJson "leaf" "#pass" "in"], toolJson]

def nestedRelay : Document where
  version := "v1.2"
  processes := [
    relayWorkflow "#main" "#main/only/out" [{ relayStep "#main/only" "#main/in" with run := "#inner" }],
    relayWorkflow "#inner" "#inner/leaf/out" [relayStep "#inner/leaf" "#inner/in"], relayTool]

lemma nestedRelay_read : Document.ofJson nestedRelayJson = .ok nestedRelay := by
  rfl

lemma nestedRelay_distinct : ∀ p ∈ nestedRelay.processes, (p.steps.map Step.id).Nodup := by
  decide

theorem nestedRelay_wellFormed :
    ∃ main, nestedRelay.process? "#main" = some main ∧
      ∀ process, ReflTransGen (Calls nestedRelay) main process → process.isWorkflow = true →
        WellFormed nestedRelay process := by
  have accepted : (resolve nestedRelay : Outcome (Task Unit)).toOption.isSome = true := by
    with_unfolding_all rfl
  refine (accepted_iff (κ := Unit) nestedRelay_read nestedRelay_distinct).mp ?_
  cases h : (resolve nestedRelay : Outcome (Task Unit)) with
  | error e => rw [h] at accepted; cases accepted
  | ok root => exact ⟨root, rfl⟩

end WorkflowEngine.Scheduling
