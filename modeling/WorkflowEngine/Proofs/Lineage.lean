import WorkflowEngine.Proofs.Acceptance

/-!
# Trees without loss and without repetition

The tree of a document is built after the checks, without a check of its own, and the trees of scattered
steps are built while the document runs.

**Levels.**  A tree that can be built is the same tree with more levels (`buildIn_mono`), and what has
passed the checks can be built: `exists_built`.

**Full trees.**  `FullyExpanded` says that a task has exactly one child for each step of its process.  It
takes different ids of the steps; of several steps with one id only one has a child (`children_of_steps`).

**Lineages.**  Each task of a chain stands for a process that the one before it runs, or for the same
process if it is a run of a scattered step.  No chain comes back to a process: `wellExpanded`.

Together these give `expansion_never_fails`.
-/

namespace WorkflowEngine.Scheduling

open Document (Process Step)
open Machine (ready)
open Relation (TransGen)

variable {σ κ : Type} {document : Document}

/-! ## Levels -/

/-- **More levels build the same tree.** -/
theorem buildIn_mono : ∀ {fuel more : Nat} {info : TaskInfo} {task : Task κ},
    buildIn document fuel info = .ok task → fuel ≤ more → buildIn document more info = .ok task := by
  intro fuel
  induction fuel with
  | zero =>
      intro more info task h _
      simp [buildIn, unresolved] at h
  | succ fuel ih =>
      intro more info task h hle
      obtain ⟨more, rfl⟩ : ∃ rest, more = rest + 1 := ⟨more - 1, by omega⟩
      have hchild (step : Step) (child : Task κ) (hc : buildChild document fuel info step = .ok child) :
          buildChild document more info step = .ok child := by
        obtain ⟨target, htarget, hbuild⟩ := bind_eq_ok.mp hc
        exact bind_eq_ok.mpr ⟨target, htarget, ih hbuild (Nat.le_of_succ_le_succ hle)⟩
      rw [buildIn_succ] at h ⊢
      obtain ⟨children, hc, rfl⟩ := map_eq_ok_iff.mp h
      refine map_eq_ok_iff.mpr ⟨children, ?_, rfl⟩
      rw [buildChildren] at hc ⊢
      split_ifs at hc ⊢
      · exact hc
      · exact OrderedMap.collect_congr (fun step _ => hchild step) hc

/-- What has been checked is built, and the limit on the levels plays no part in it. -/
lemma exists_built {info : TaskInfo} (checked : Checked document info.process) :
    ∃ task : Task κ, ∀ fuel, depthLimit document ≤ fuel → buildIn document fuel info = .ok task := by
  obtain ⟨fuel, stack, hle, h⟩ := checked
  obtain ⟨task, htask⟩ := exists_buildIn (κ := κ) h hle
  exact ⟨task, fun more hmore => buildIn_mono htask hmore⟩

/-! ## Full trees -/

/-- A task of a workflow has one child for each step, and a scattered step has none. -/
structure FullyExpanded (document : Document) (task : Task κ) : Prop where
  scattered : task.info.isScatter = true → task.children = []
  keys : task.info.isScatter = false →
    task.children.keys = task.info.process.steps.map Step.id ∧ task.children.keys.Nodup
  /-- The child of a step runs what the step runs. -/
  child : task.info.isScatter = false → ∀ step ∈ task.info.process.steps, ∃ child target,
    task.children.find? step.id = some child ∧ document.process? step.run = some target ∧
      child.info = childInfo task.info step target

lemma FullyExpanded.of_distinct {task : Task κ} (wired : Wired document task)
    (expanded : Expanded document task) (distinct : (task.info.process.steps.map Step.id).Nodup) :
    FullyExpanded document task := by
  refine ⟨wired.scattered, fun hs => ⟨?_, wired.nodup⟩, fun hs step hstep => ?_⟩
  · rw [expanded.keys hs, OrderedMap.firstKeys_eq_map distinct]
  · have hid := (stepWith?_eq_some_iff distinct).mpr ⟨hstep, rfl⟩
    obtain ⟨child, hchild⟩ := Option.isSome_iff_exists.mp
      (wired.present hs step.id (by rw [hid]; rfl))
    obtain ⟨step', target, hstep', htarget, hinfo⟩ := expanded.child step.id child hchild
    obtain rfl := Option.some.inj (hid.symm.trans hstep')
    exact ⟨child, target, hchild, runTarget_eq_ok_iff.mp htarget, hinfo⟩

/-- **A step is lost exactly where two steps have one id.** -/
theorem children_of_steps {root : Task κ} (accepted : resolve document = .ok root) :
    ∀ task ∈ root.descendants, task.info.isScatter = false →
      (task.children.length = task.info.process.steps.length ↔
        (task.info.process.steps.map Step.id).Nodup) ∧
      ((task.info.process.steps.map Step.id).Nodup → ∀ step ∈ task.info.process.steps,
        ∃! entry, entry ∈ task.children ∧ entry.2.info.step = some step) := by
  intro task htask hs
  obtain ⟨wired, -⟩ := wired_of_resolve accepted task htask
  have expanded := (expanded_of_resolve accepted).2 task htask
  refine ⟨?_, fun distinct step hstep => ?_⟩
  · rw [← OrderedMap.length_firstKeys_eq_iff, ← expanded.keys hs, OrderedMap.keys, List.length_map]
  · obtain ⟨child, target, hchild, -, hinfo⟩ :=
      (FullyExpanded.of_distinct wired expanded distinct).child hs step hstep
    refine ⟨(step.id, child), ⟨OrderedMap.mem_of_find? hchild, by rw [hinfo]; rfl⟩, ?_⟩
    rintro ⟨id, other⟩ ⟨hmem, hstep'⟩
    have hother := (OrderedMap.find?_eq_some_iff wired.nodup).mpr hmem
    obtain ⟨step', hid, hinfo'⟩ := wired.child id other hother
    obtain rfl := Option.some.inj (hinfo'.symm.trans hstep')
    obtain rfl := (OrderedMap.mem_of_lastWith hid).2
    rw [Option.some.inj (hother.symm.trans hchild)]

theorem relay_keeps_steps : relayRoot.children.length = relayMain.steps.length ∧
    ∀ step ∈ relayMain.steps,
      ∃! entry, entry ∈ relayRoot.children ∧ entry.2.info.step = some step := by
  have hroot : relayRoot ∈ relayRoot.descendants := Task.mem_descendants.mpr (.inl rfl)
  have distinct : (relayMain.steps.map Step.id).Nodup := by decide
  have h := children_of_steps relay_accepted relayRoot hroot rfl
  exact ⟨h.1.mpr distinct, h.2 distinct⟩

/-- Two steps with one id as they are written in a document: one runs a tool, the other a workflow. -/
def doubledJson : Json :=
  documentJson [workflowJson "#main" "a/out" [stepJson "a" "#pass" "in", stepJson "a" "#inner" "in"],
    workflowJson "#inner" "leaf/out" [stepJson "leaf" "#pass" "in"], toolJson]

def doubledStep : Step := { relayStep "#main/a" "#main/in" with run := "#inner" }

def doubledMain : Process :=
  relayWorkflow "#main" "#main/a/out" [relayStep "#main/a" "#main/in", doubledStep]

def doubledInner : Process :=
  relayWorkflow "#inner" "#inner/leaf/out" [relayStep "#inner/leaf" "#inner/in"]

def doubled : Document := ⟨"v1.2", [doubledMain, doubledInner, relayTool]⟩

def doubledRoot : Task Unit :=
  let second := childInfo (mainInfo doubledMain) doubledStep doubledInner
  let leaf := childInfo second (relayStep "#inner/leaf" "#inner/in") relayTool
  .node (mainInfo doubledMain) .fresh .idle
    [("#main/a", .node second .fresh .idle [("#inner/leaf", .node leaf .fresh .idle [] [])] [])] []

/-- **The first of two steps with one id is lost**, though the document is read and accepted. -/
theorem doubled_loses_step :
    Document.ofJson doubledJson = .ok doubled ∧ resolve doubled = .ok doubledRoot ∧
    doubledRoot.info.isScatter = false ∧ doubledRoot.info.process.steps.length = 2 ∧
    doubledRoot.children.length = 1 ∧
    ∀ entry ∈ doubledRoot.children, entry.2.info.step ≠ some (relayStep "#main/a" "#main/in") := by
  refine ⟨by rfl, by with_unfolding_all rfl, rfl, rfl, rfl, fun entry hentry hstep => ?_⟩
  obtain rfl := List.mem_singleton.mp hentry
  exact absurd (congrArg (Option.map Step.run) hstep) (by decide)

/-! ## Lineages -/

/-- A task and the task of one of its steps. -/
def HasChild (task child : Task κ) : Prop := ∃ id, task.children.find? id = some child

/-- A task and a task directly below it. -/
def HasBelow (task below : Task κ) : Prop := HasChild task below ∨ below ∈ task.elements

/-- A task and a run of it. -/
def IsRunOf (task run : Task κ) : Prop :=
  task.info.isScatter = true ∧ ∃ index, run.info = { task.info with index := some index }

/-- A tree in which no step is lost and no process comes back. -/
structure WellExpanded (document : Document) (tree : Task κ) : Prop where
  full : tree.Everywhere (FullyExpanded document)
  /-- Tasks of nested steps run different processes. -/
  once : ∀ chain : List (Task κ), chain.IsChain HasChild → chain ⊆ tree.descendants →
    (chain.map fun d => d.info.process.id).Nodup
  /-- So do any tasks that stand below each other, but for a scattered step and its runs. -/
  apart : ∀ chain : List (Task κ), chain.IsChain HasBelow → chain ⊆ tree.descendants →
    chain.Pairwise fun d e => d.info.process.id = e.info.process.id → IsRunOf d e

lemma Expanded.calls {task child : Task κ} (h : Expanded document task) (hc : HasChild task child) :
    Calls document task.info.process child.info.process := by
  obtain ⟨id, hc⟩ := hc
  obtain ⟨step, target, hstep, htarget, hinfo⟩ := h.child id child hc
  refine ⟨step, (OrderedMap.mem_of_lastWith hstep).1, ?_⟩
  rw [hinfo]
  exact runTarget_eq_ok_iff.mp htarget

lemma Expanded.isRunOf {task element : Task κ} (h : Expanded document task)
    (he : element ∈ task.elements) : IsRunOf task element := by
  obtain ⟨place, hplace⟩ := List.getElem?_of_mem he
  refine ⟨?_, place + 1, h.element place element hplace⟩
  by_contra hs
  rw [h.plain (by simpa using hs)] at he
  exact List.not_mem_nil he

/-- Every task of a tree stands for a process that look-up gives. -/
lemma everywhere_found {tree : Task κ} (expanded : tree.Everywhere (Expanded document))
    (wired : tree.Everywhere (Wired document)) (here : Found document tree.info.process) :
    tree.Everywhere fun d => Found document d.info.process := by
  induction tree using Task.inductionBelow with
  | step task ihc ihe =>
      refine Task.everywhere_iff.mpr ⟨here, fun p hp => ?_, fun e he => ?_⟩
      · refine ihc p hp (expanded.child hp) (wired.child hp) ?_
        have hfind := (OrderedMap.find?_eq_some_iff wired.here.nodup).mpr hp
        obtain ⟨step, -, hcall⟩ := expanded.here.calls ⟨p.1, hfind⟩
        exact ⟨step.run, hcall⟩
      · refine ihe e he (expanded.element he) (wired.element he) ?_
        obtain ⟨-, _, hinfo⟩ := expanded.here.isRunOf he
        rw [hinfo]
        exact here

/-- So does every task of a run. -/
lemma found_of_runs {m : Machine σ κ} {c : Circumstances σ} {root tree : Task κ} {params : Values}
    (accepted : resolve m.document = .ok root) (run : m.Runs c (ready root params) tree) :
    tree.Everywhere fun d => Found m.document d.info.process := by
  obtain ⟨⟨main, named, hroot⟩, -⟩ := expanded_of_resolve accepted
  have hinfo : tree.info = mainInfo main := by
    refine run.keeps (P := fun task => task.info = mainInfo main)
      (fun _ moves h => moves.info.trans h) ?_
    simpa [ready] using hroot
  refine everywhere_found (Machine.expanded_of_runs accepted run)
    ((Machine.sound_of_runs accepted run).mono fun d hd => hd.1) ?_
  rw [hinfo]
  exact ⟨_, mainProcess_eq_ok_iff.mp named⟩

/-- What stands further down a chain runs a process that the one above reaches, or is a run of it. -/
def Under (document : Document) (task below : Task κ) : Prop :=
  TransGen (Calls document) task.info.process below.info.process ∨ IsRunOf task below

lemma Under.trans {d e f : Task κ} (h : Under document d e) (h' : Under document e f) :
    Under document d f := by
  rcases h with h | ⟨hs, index, hinfo⟩
  · rcases h' with h' | ⟨-, _, hinfo'⟩
    · exact .inl (h.trans h')
    · exact .inl (by rw [hinfo']; exact h)
  · rcases h' with h' | ⟨hs', -⟩
    · rw [hinfo] at h'
      exact .inl h'
    · -- A run of a scattered step is not scattered again.
      rw [hinfo] at hs'
      simp [TaskInfo.isScatter] at hs'

/-- **Nothing is lost and nothing comes back** in a tree that expands a checked document. -/
theorem wellExpanded {tree : Task κ} (wired : tree.Everywhere (Wired document))
    (expanded : tree.Everywhere (Expanded document)) (here : Found document tree.info.process)
    (distinct : ∀ p ∈ document.processes, (p.steps.map Step.id).Nodup) :
    WellExpanded document tree := by
  have found := everywhere_found expanded wired here
  have same {d e : Task κ} (hd : d ∈ tree.descendants) (he : e ∈ tree.descendants)
      (hid : d.info.process.id = e.info.process.id) : d.info.process = e.info.process :=
    (found d hd).eq_of_id (found e he) hid
  have once {d : Task κ} (hd : d ∈ tree.descendants) :
      ¬ TransGen (Calls document) d.info.process d.info.process := (wired d hd).valid.once
  refine ⟨fun d hd => ?_, fun chain path inside => ?_, fun chain path inside => ?_⟩
  · exact .of_distinct (wired d hd) (expanded d hd) (distinct _ (found d hd).mem)
  · have hcalls : (chain.map fun d => d.info.process).IsChain (Calls document) := by
      rw [List.isChain_map]
      exact path.imp_of_mem_imp fun d _ hd _ hchild => (expanded d (inside hd)).calls hchild
    have hnodup : (chain.map fun d => d.info.process).Nodup := by
      refine nodup_of_isChain hcalls fun p hp => ?_
      obtain ⟨d, hd, rfl⟩ := List.mem_map.mp hp
      exact once (inside hd)
    have hids : ((chain.map fun d => d.info.process).map Process.id).Nodup := by
      refine hnodup.map_on fun p hp q hq hid => ?_
      obtain ⟨d, hd, rfl⟩ := List.mem_map.mp hp
      obtain ⟨e, he, rfl⟩ := List.mem_map.mp hq
      exact same (inside hd) (inside he) hid
    rwa [List.map_map] at hids
  · have htrans : IsTrans (Task κ) (Under document) := ⟨fun _ _ _ h h' => h.trans h'⟩
    have hunder : chain.IsChain (Under document) := by
      refine path.imp_of_mem_imp fun d e hd _ hbelow => ?_
      rcases hbelow with hchild | helement
      · exact .inl (.single ((expanded d (inside hd)).calls hchild))
      · exact .inr ((expanded d (inside hd)).isRunOf helement)
    refine (List.isChain_iff_pairwise.mp hunder).imp_of_mem fun {d e} hd he h hid => ?_
    rcases h with h | h
    · rw [← same (inside hd) (inside he) hid] at h
      exact absurd h (once (inside hd))
    · exact h

/-! ## Expansion -/

/-- A task is built into a tree in which nothing is lost and nothing comes back; the limit on the levels
plays no part in it. -/
structure Builds (document : Document) (info : TaskInfo) (tree : Task κ) : Prop where
  built : ∀ fuel, depthLimit document ≤ fuel → buildIn document fuel info = .ok tree
  wellExpanded : WellExpanded document tree

lemma exists_builds {info : TaskInfo} (checked : Checked document info.process)
    (found : Found document info.process)
    (distinct : ∀ p ∈ document.processes, (p.steps.map Step.id).Nodup) :
    ∃ tree : Task κ, Builds document info tree := by
  obtain ⟨tree, built⟩ := exists_built (κ := κ) checked
  obtain ⟨hinfo, wired⟩ := wired_of_buildIn checked.valid (built _ le_rfl)
  refine ⟨tree, built, ?_⟩
  exact Scheduling.wellExpanded (wired.mono fun d hd => hd.1) (expanded_of_buildIn checked (built _ le_rfl))
    (hinfo ▸ found) distinct

/-- **Expansion never fails after the checks.**  The main process is built into a tree; and in every tree
of a run, for every scattered step wherever it stands, so is each of its runs. -/
theorem expansion_never_fails {m : Machine σ κ} {c : Circumstances σ} {main : Process}
    (named : m.document.mainProcess = .ok main) (checked : validate m.document main = .ok ())
    (distinct : ∀ p ∈ m.document.processes, (p.steps.map Step.id).Nodup) :
    ∃ root : Task κ, resolve m.document = .ok root ∧ Builds m.document (mainInfo main) root ∧
      ∀ params tree, m.Runs c (ready root params) tree → WellExpanded m.document tree ∧
        ∀ d ∈ tree.descendants, d.info.isScatter = true → ∀ index, ∃ element : Task κ,
          elementTask m.document d.info index = .ok element ∧
            Builds m.document { d.info with index := some index } element := by
  have hmain : Checked m.document (mainInfo main).process := ⟨_, _, le_rfl, checked⟩
  have hfound : Found m.document main := ⟨_, mainProcess_eq_ok_iff.mp named⟩
  obtain ⟨root, hroot⟩ := exists_builds (κ := κ) hmain hfound distinct
  have accepted : resolve m.document = .ok root :=
    bind_eq_ok.mpr ⟨main, named, bind_eq_ok.mpr ⟨(), checked, hroot.built _ le_rfl⟩⟩
  refine ⟨root, accepted, hroot, fun params tree run => ?_⟩
  have expanded := Machine.expanded_of_runs accepted run
  have wired : tree.Everywhere (Wired m.document) :=
    (Machine.sound_of_runs accepted run).mono fun d hd => hd.1
  have found := found_of_runs accepted run
  refine ⟨wellExpanded wired expanded found.here distinct, fun d hd _ index => ?_⟩
  have helement : Checked m.document ({ d.info with index := some index } : TaskInfo).process :=
    (expanded d hd).checked
  obtain ⟨element, h⟩ := exists_builds (κ := κ) helement (found d hd) distinct
  exact ⟨element, h.built _ le_rfl, h⟩

/-! ## A scattered workflow in a scattered workflow -/

/-- A workflow whose only step is scattered. -/
def gridRow : Process :=
  relayWorkflow "#row" "#row/cells/out" [{ relayStep "#row/cells" "#row/in" with scatter := ["in"] }]

def gridRows : Step := { relayStep "#main/rows" "#main/in" with run := "#row", scatter := ["in"] }

def gridMain : Process := relayWorkflow "#main" "#main/rows/out" [gridRows]

def gridMachine : Machine Unit Unit :=
  { relayMachine with document := ⟨"v1.2", [gridMain, gridRow, relayTool]⟩ }

def gridRoot : Task Unit :=
  .node (mainInfo gridMain) .fresh .idle
    [("#main/rows", .node (childInfo (mainInfo gridMain) gridRows gridRow) .fresh .idle [] [])] []

def gridParams : Values := [("in", .array [.array [.bool true], .array []])]

/-- The tree once the first cell has been started. -/
def gridLast : Task Unit :=
  (ready gridRoot gridParams :: gridMachine.walk
    [[], [.child "#main/rows"], [.child "#main/rows", .element 0],
      [.child "#main/rows", .element 0, .child "#row/cells"]] (ready gridRoot gridParams) ()).getLast
    (List.cons_ne_nil _ _)

lemma grid_accepted : resolve gridMachine.document = .ok gridRoot := by
  with_unfolding_all rfl

lemma grid_runs : gridMachine.Runs (.any Unit) (ready gridRoot gridParams) gridLast :=
  Machine.runs_walk (fun _ => trivial) _ _ ()

/-- The cells of a row are a scattered step in a run of a scattered step. -/
theorem grid_cells_expand : ∃ d ∈ gridLast.descendants,
    (d.info.isScatter, d.info.path) = (true, "#main/rows-scatter-1/cells") ∧
    WellExpanded gridMachine.document gridLast ∧
    ∀ index, ∃ element : Task Unit, elementTask gridMachine.document d.info index = .ok element ∧
      Builds gridMachine.document { d.info with index := some index } element := by
  obtain ⟨main, named, h⟩ := bind_eq_ok.mp grid_accepted
  obtain ⟨_, checked, -⟩ := bind_eq_ok.mp h
  have distinct : ∀ p ∈ gridMachine.document.processes, (p.steps.map Step.id).Nodup := by decide
  obtain ⟨root, accepted, -, hruns⟩ :=
    expansion_never_fails (m := gridMachine) (c := .any Unit) named checked distinct
  obtain rfl := Except.ok.inj (accepted.symm.trans grid_accepted)
  obtain ⟨hwell, hcells⟩ := hruns gridParams gridLast grid_runs
  have hlook : (gridLast.at? [.child "#main/rows", .element 0, .child "#row/cells"]).map
      (fun d => (d.info.isScatter, d.info.path)) = some (true, "#main/rows-scatter-1/cells") := by rfl
  obtain ⟨d, hd, hinfo⟩ := Option.map_eq_some_iff.mp hlook
  have hmem := Task.mem_descendants_of_at? hd
  exact ⟨d, hmem, hinfo, hwell, hcells d hmem (congrArg Prod.fst hinfo)⟩

end WorkflowEngine.Scheduling
