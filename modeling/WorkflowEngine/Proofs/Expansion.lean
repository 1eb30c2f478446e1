import WorkflowEngine.Proofs.Trees

/-!
# How a tree expands a document

A task stands for a process, and the tasks below it for the steps of this process or for the runs of a
scattered step.

**Checks.**  What the checks of a document have passed can be built: `exists_buildIn`.  So a run of a
scattered step can always be built, and only the combination of its arrays can fail
(`elementsOf_eq_error`).

**Expansion.**  `Expanded` says what the tasks directly below a task are, and in which order they stand.
It holds of every task of a tree that is built from a checked process (`expanded_of_buildIn`) and in every
tree of a run (`expanded_of_runs`).
-/

namespace WorkflowEngine.Scheduling

open Document (Process Step)

variable {σ κ : Type}

/-! ## Checks -/

/-- A process that passed the checks, no deeper than a document can be. -/
def Checked (document : Document) (process : Process) : Prop :=
  ∃ fuel stack, fuel ≤ depthLimit document ∧ validateIn document fuel stack process = .ok ()

/-- The steps of a checked process run checked processes. -/
lemma Checked.step {document : Document} {process : Process} (h : Checked document process)
    {step : Step} (hs : step ∈ process.steps) :
    ∃ target, runTarget document step = .ok target ∧ Checked document target := by
  obtain ⟨fuel, stack, hle, h⟩ := h
  cases fuel with
  | zero => simp [validateIn, unresolved] at h
  | succ fuel =>
      obtain ⟨target, ht, hv⟩ := (validateIn_eq_ok h).2 step hs
      exact ⟨target, ht, fuel, process.id :: stack, by omega, hv⟩

lemma Checked.valid {document : Document} {process : Process} (h : Checked document process) :
    Valid document process := by
  obtain ⟨_, _, -, h⟩ := h
  exact valid_of_validateIn h

/-- **What has been checked can be built**, with as many levels as the checks needed, or more. -/
theorem exists_buildIn {document : Document} :
    ∀ {fuel more : Nat} {stack : List String} {info : TaskInfo},
      validateIn document fuel stack info.process = .ok () → fuel ≤ more →
      ∃ task : Task κ, buildIn document more info = .ok task
  | 0, _, _, _, h, _ => by simp [validateIn, unresolved] at h
  | fuel + 1, 0, _, _, _, hle => by omega
  | fuel + 1, more + 1, stack, info, h, hle => by
      have hstep (step : Step) (hs : step ∈ info.process.steps) :
          ∃ child : Task κ, buildChild document more info step = .ok child := by
        obtain ⟨target, ht, hv⟩ := (validateIn_eq_ok h).2 step hs
        have hchild : validateIn document fuel (info.process.id :: stack)
            (childInfo info step target).process = .ok () := hv
        obtain ⟨child, hc⟩ := exists_buildIn hchild (Nat.le_of_succ_le_succ hle)
        exact ⟨child, by rw [buildChild, ht]; exact hc⟩
      rw [buildIn_succ, buildChildren]
      split_ifs
      · exact ⟨_, rfl⟩
      · obtain ⟨children, hc⟩ := OrderedMap.exists_collect Step.id (buildChild document more info) []
          hstep
        exact ⟨.node info .fresh .idle children [], by rw [hc]; rfl⟩

/-- A run of a scattered step can always be built. -/
lemma exists_elementTask {document : Document} {info : TaskInfo} (h : Checked document info.process)
    (index : Nat) : ∃ task : Task κ, elementTask document info index = .ok task := by
  obtain ⟨fuel, stack, hle, h⟩ := h
  have hrun : validateIn document fuel stack ({ info with index := some index } : TaskInfo).process =
      .ok () := h
  exact exists_buildIn hrun hle

namespace Machine

/-- **The start of a scattered step fails only with the combination of its arrays.** -/
theorem elementsOf_eq_error {m : Machine σ κ} {info : TaskInfo} {params : Values} {failure : Failure}
    {step : Step} (checked : Checked m.document info.process) (hs : info.step = some step)
    (h : m.elementsOf info params = .error failure) : combinations step params = .error failure := by
  cases hall : combinations step params with
  | error other =>
      simp only [elementsOf, hs, hall, bind, Except.bind] at h
      exact congrArg Except.error (Except.error.inj h)
  | ok all =>
      have hrun (run : Values × Nat) (_ : run ∈ all.zipIdx 1) : ∃ e : Task κ,
          (do let task ← elementTask m.document info run.2
              return ready task run.1 : Outcome (Task κ)) = .ok e := by
        obtain ⟨built, hb⟩ := exists_elementTask (κ := κ) checked run.2
        exact ⟨ready built run.1, by rw [hb]; rfl⟩
      obtain ⟨elements, he⟩ := exists_mapM hrun
      have hok : m.elementsOf info params = .ok elements := by
        simp only [elementsOf, hs, hall]
        exact he
      rw [hok] at h
      cases h

end Machine

/-! ## Expansion -/

/-- What the tasks directly below a task are. -/
structure Expanded (document : Document) (task : Task κ) : Prop where
  checked : Checked document task.info.process
  /-- The children stand in the order in which their steps are declared. -/
  keys : task.info.isScatter = false →
    task.children.keys = OrderedMap.firstKeys Step.id task.info.process.steps
  child : ∀ id child, task.children.find? id = some child → ∃ step target,
    stepWith? task.info.process id = some step ∧ runTarget document step = .ok target ∧
      child.info = childInfo task.info step target
  /-- The elements are counted from one. -/
  element : ∀ (place : Nat) e, task.elements[place]? = some e →
    e.info = { task.info with index := some (place + 1) }
  plain : task.info.isScatter = false → task.elements = []

/-- How a task is expanded depends only on what it and the tasks directly below it are. -/
lemma Expanded.congr {document : Document} {task next : Task κ} (h : Expanded document task)
    (info : next.info = task.info) (below : infosBelow next = infosBelow task)
    (elements : next.elements.map Task.info = task.elements.map Task.info) :
    Expanded document next := by
  have hkeys : next.children.keys = task.children.keys := by
    have hk := congrArg OrderedMap.keys below
    simpa [infosBelow, OrderedMap.keys_mapValues] using hk
  refine ⟨info ▸ h.checked, fun hs => ?_, fun id child hc => ?_, fun place e he => ?_, fun hs => ?_⟩
  · rw [hkeys, info]
    exact h.keys (info ▸ hs)
  · have hf : (next.children.find? id).map Task.info = (task.children.find? id).map Task.info := by
      rw [← find?_infosBelow, ← find?_infosBelow, below]
    rw [hc, Option.map_some] at hf
    obtain ⟨old, hold, hinfo⟩ := Option.map_eq_some_iff.mp hf.symm
    rw [← hinfo, info]
    exact h.child id old hold
  · have hmap := congrArg (fun infos => infos[place]?) elements
    simp only [List.getElem?_map, he, Option.map_some] at hmap
    obtain ⟨old, hold, hinfo⟩ := Option.map_eq_some_iff.mp hmap.symm
    rw [← hinfo, info]
    exact h.element place old hold
  · rw [h.plain (info ▸ hs), List.map_nil, List.map_eq_nil_iff] at elements
    exact elements

/-- **A tree that is built expands its document.** -/
theorem expanded_of_buildIn {document : Document} :
    ∀ {fuel : Nat} {info : TaskInfo} {task : Task κ}, Checked document info.process →
      buildIn document fuel info = .ok task → task.Everywhere (Expanded document)
  | 0, _, _, _, h => by simp [buildIn, unresolved] at h
  | fuel + 1, info, task, checked, h => by
      obtain ⟨children, rfl, hc⟩ := buildIn_eq_ok h
      split_ifs at hc with hs
      · subst hc
        refine Task.everywhere_iff.mpr ⟨⟨checked, fun h => ?_, ?_, ?_, fun _ => rfl⟩, ?_, ?_⟩
        · simp [Task.info, hs] at h
        all_goals simp [Task.children, Task.elements]
      · have hchild (id : String) (child : Task κ) (hf : children.find? id = some child) :
            ∃ step target, stepWith? info.process id = some step ∧
              runTarget document step = .ok target ∧ child.info = childInfo info step target ∧
              child.Everywhere (Expanded document) := by
          have hentry := OrderedMap.find?_of_collect Step.id (buildChild document fuel info) hc id
          rw [show OrderedMap.lastWith Step.id info.process.steps id = stepWith? info.process id
            from rfl] at hentry
          cases hstep : stepWith? info.process id with
          | none => simp [hstep, hf] at hentry
          | some step =>
              rw [hstep] at hentry
              obtain ⟨built, hbuilt, hfind⟩ := hentry
              obtain rfl : built = child := Option.some.inj (hfind.symm.trans hf)
              obtain ⟨target, ht, hbuild⟩ := bind_eq_ok.mp hbuilt
              obtain ⟨_, ht', hnext⟩ := checked.step (OrderedMap.mem_of_lastWith hstep).1
              obtain rfl := Except.ok.inj (ht.symm.trans ht')
              exact ⟨step, target, rfl, ht, (wired_of_buildIn hnext.valid hbuild).1,
                expanded_of_buildIn hnext hbuild⟩
        refine Task.everywhere_iff.mpr ⟨⟨checked, fun _ => ?_, fun id child hf => ?_, ?_, fun _ => rfl⟩,
          fun p hp => ?_, ?_⟩
        · exact OrderedMap.keys_of_collect Step.id (buildChild document fuel info) hc
        · obtain ⟨step, target, hstep, ht, hinfo, -⟩ := hchild id child hf
          exact ⟨step, target, hstep, ht, hinfo⟩
        · simp [Task.elements]
        · have hnodup : children.keys.Nodup := OrderedMap.nodup_keys_of_collect _ _ (by simp) hc
          obtain ⟨_, _, -, -, -, hbelow⟩ :=
            hchild p.1 p.2 ((OrderedMap.find?_eq_some_iff hnodup).mpr hp)
          exact hbelow
        · simp [Task.elements]

lemma expanded_of_elementTask {document : Document} {info : TaskInfo} {index : Nat} {task : Task κ}
    (checked : Checked document info.process) (h : elementTask document info index = .ok task) :
    task.info = { info with index := some index } ∧ task.Everywhere (Expanded document) := by
  have hrun : Checked document ({ info with index := some index } : TaskInfo).process := checked
  exact ⟨(wired_of_buildIn hrun.valid h).1, expanded_of_buildIn hrun h⟩

/-- The tree of an accepted document is that of its main process. -/
lemma expanded_of_resolve {document : Document} {root : Task κ} (h : resolve document = .ok root) :
    (∃ main, document.mainProcess = .ok main ∧ root.info = mainInfo main) ∧
      root.Everywhere (Expanded document) := by
  obtain ⟨main, hmain, h⟩ := bind_eq_ok.mp h
  obtain ⟨_, hvalid, h⟩ := bind_eq_ok.mp h
  have hchecked : Checked document (mainInfo main).process := ⟨_, _, le_refl _, hvalid⟩
  exact ⟨⟨main, hmain, (wired_of_buildIn hchecked.valid h).1⟩, expanded_of_buildIn hchecked h⟩

lemma Expanded.abandon {document : Document} {task : Task κ} (h : Expanded document task)
    (reason : String) : Expanded document (task.abandon reason) :=
  h.congr (Task.info_abandon task reason) (infosBelow_abandon task reason) (by simp [Function.comp_def])

lemma Expanded.withPhase {document : Document} {task : Task κ} (h : Expanded document task)
    (phase : Phase κ) : Expanded document (task.withPhase phase) :=
  h.congr (Task.info_withPhase task phase) (by rw [infosBelow, Task.children_withPhase, infosBelow])
    (by rw [Task.elements_withPhase])

lemma Expanded.ready {document : Document} {task : Task κ} (h : Expanded document task)
    (params : Values) : Expanded document (Machine.ready task params) :=
  h.congr (by simp [Machine.ready]) (by simp [infosBelow, Machine.ready]) (by simp [Machine.ready])

namespace Machine

/-- What happens to a task leaves it expanded: its elements are built when the plan of its runs is. -/
lemma Outline.expanded {m : Machine σ κ} {supply : Option Supply} {task next : Task κ}
    (h : m.Outline supply task next) (attached : Attached supply task)
    (expanded : Expanded m.document task) : Expanded m.document next := by
  have hbelow := h.infosBelow attached
  cases h with
  | ended _ ends =>
      refine expanded.congr ends.info hbelow (map_eq_of_forall₂ (ends.below.elements.imp ?_))
      rintro e d ⟨reason, rfl⟩
      exact Task.info_abandon e reason
  | stray isSome none _ _ => exact absurd none (attached.isStep isSome)
  | opened _ _ info _ _ _ elements => exact expanded.congr info hbelow (by rw [elements])
  | atWork _ info _ _ _ elements => exact expanded.congr info hbelow (by rw [elements])
  | scattered _ scatter planned info _ _ children =>
      have hscatter : next.info.isScatter = true := info ▸ scatter
      refine ⟨info ▸ expanded.checked, by simp [hscatter], fun id child hc => ?_, fun place e he => ?_,
        by simp [hscatter]⟩
      · rw [info]
        exact expanded.child id child (children ▸ hc)
      · obtain ⟨_, all, -, -, hall⟩ := forall₂_elementsOf planned
        obtain ⟨hlt, rfl⟩ := List.getElem?_eq_some_iff.mp he
        have hlen := hall.length_eq
        obtain ⟨built, hb, hready⟩ := hall.get (hlen ▸ hlt) hlt
        rw [List.get_eq_getElem, List.get_eq_getElem, List.getElem_zipIdx] at hready
        rw [List.get_eq_getElem, List.getElem_zipIdx] at hb
        rw [hready, info]
        have hinfo := (expanded_of_elementTask expanded.checked hb).1
        simpa [Machine.ready, Nat.add_comm] using hinfo

/-- **Every tree that comes from a move is expanded.** -/
theorem Moves.expanded {m : Machine σ κ} {c : Circumstances σ} {world : σ} {supply : Option Supply}
    {task next : Task κ} (moves : m.Moves c world supply task next)
    (attached : Attached supply task) (hw : task.Everywhere (Wired m.document))
    (h : task.Everywhere (Expanded m.document)) : next.Everywhere (Expanded m.document) := by
  refine Moves.everywhere (Q := Wired m.document) (fun hw hf => hw.attached hf)
    ?_ ?_ ?_ moves attached hw h
  · intro supply task next attached happens _ h
    have houtline := happens.change.outline
    refine houtline.everywhere_built attached h (houtline.expanded attached h.here)
      (fun d reason hd => hd.abandon reason) (fun d hd => hd.withPhase _) fun index built own hb => ?_
    have hbuilt := (expanded_of_elementTask h.here.checked hb).2
    exact everywhere_ready hbuilt (hbuilt.here.ready own)
  · intro task child next id hw h hf below _
    refine h.here.congr (Task.info_withChildren _ _) ?_ (by rw [Task.elements_withChildren])
    exact infosBelow_replaceChild hw.here.nodup hf below.info
  · intro task element next place _ h hf below _
    refine h.here.congr (Task.info_withElements _ _)
      (by rw [infosBelow, Task.children_withElements, infosBelow]) ?_
    obtain ⟨hlt, hold⟩ := List.getElem?_eq_some_iff.mp hf
    have hlt' : place < (task.elements.map Task.info).length := by simpa using hlt
    have hsame : (task.elements.map Task.info)[place] = element.info := by
      rw [List.getElem_map, hold]
    rw [Task.elements_withElements, List.map_set, below.info, ← hsame, List.set_getElem_self]

/-- **Every tree of a run expands its document.** -/
theorem expanded_of_runs {m : Machine σ κ} {c : Circumstances σ} {root tree : Task κ}
    {params : Values} (accepted : resolve m.document = .ok root)
    (run : m.Runs c (ready root params) tree) : tree.Everywhere (Expanded m.document) := by
  have hroot := (expanded_of_resolve accepted).2
  exact Runs.keeps_within (fun before _ moves h =>
    moves.expanded (attached_none _) ((sound_of_runs accepted before).mono fun d hd => hd.1) h) run
    (everywhere_ready hroot (hroot.here.ready params))

end Machine

end WorkflowEngine.Scheduling
