import WorkflowEngine.Proofs.Completion
import WorkflowEngine.Proofs.Lineage

/-!
# Requirements of tasks

What a task requires is stated by its process, by its step and by all that encloses it.  A task keeps one
list of it, and one of the hints, made by merging while the tree is built.

**Merging.**  Of two merged lists the first answers for every class that it has: `ofClass?_merge`.

**Levels.**  `levelsAt` lists what can state a requirement of the task at an address, the nearest first: its
process, its step, the workflow around it, the step of this workflow, up to the main process.  The runs of a
scattered step see what the step sees.

**Requirements.**  In every tree of a run the lists of a task answer as its levels do (`reflects_of_at?`),
so the nearest requirement counts, and a hint only where nothing is required: `nearest_requirement`.
-/

namespace WorkflowEngine

/-! ## Merging -/

namespace Document.Requirement

/-- The first requirement of a class. -/
def ofClass? (className : String) (requirements : List Requirement) : Option Requirement :=
  requirements.find? fun r => r.className = className

variable {className : String}

lemma ofClass?_append (xs ys : List Requirement) :
    ofClass? className (xs ++ ys) = (ofClass? className xs).or (ofClass? className ys) :=
  List.find?_append

lemma ofClass?_addMissing (known : List Requirement) (r : Requirement) :
    ofClass? className (addMissing known r) =
      (ofClass? className known).or (ofClass? className [r]) := by
  unfold addMissing
  split_ifs with h
  · -- What is left out has a class that is there, so it would not be found anyway.
    by_cases hr : r.className = className
    · obtain ⟨k, hk, hclass⟩ := List.any_eq_true.mp h
      have hfound : (ofClass? className known).isSome = true := by
        rw [ofClass?, List.find?_isSome]
        exact ⟨k, hk, by simpa [hr] using hclass⟩
      rw [Option.or_of_isSome hfound]
    · have hnone : ofClass? className [r] = none := by simp [ofClass?, hr]
      rw [hnone, Option.or_none]
  · exact ofClass?_append known [r]

/-- **Own requirements go before inherited ones**, class by class. -/
theorem ofClass?_merge (own inherited : List Requirement) :
    ofClass? className (merge own inherited) =
      (ofClass? className own).or (ofClass? className inherited) := by
  induction inherited generalizing own with
  | nil => simp [merge, ofClass?]
  | cons r rest ih =>
      calc ofClass? className (merge own (r :: rest))
          = ofClass? className (merge (addMissing own r) rest) := rfl
        _ = ((ofClass? className own).or (ofClass? className [r])).or (ofClass? className rest) := by
          rw [ih, ofClass?_addMissing]
        _ = (ofClass? className own).or (ofClass? className (r :: rest)) := by
          rw [Option.or_assoc, ← ofClass?_append, List.singleton_append]

end Document.Requirement

namespace Scheduling

open Document (Process Requirement Step)
open Machine (Address ready)

variable {σ κ : Type}

/-! ## Levels -/

/-- What can state a requirement or a hint. -/
inductive Level where
  | process (process : Process)
  | step (step : Step)

namespace Level

def requirements : Level → List Requirement
  | process p => p.requirements
  | step s => s.requirements

def hints : Level → List Requirement
  | process p => p.hints
  | step s => s.hints

end Level

/-- The levels of a task alone: its process, then its step. -/
def TaskInfo.levels (info : TaskInfo) : List Level :=
  .process info.process :: info.step.toList.map .step

/-- The levels of the task at an address, the nearest first, in front of those above the tree. -/
def levelsAt (above : List Level) : Address → Task κ → Option (List Level)
  | [], task => some (task.info.levels ++ above)
  | .child id :: rest, task =>
    (task.children.find? id).bind (levelsAt (task.info.levels ++ above) rest)
  | .element place :: rest, task => task.elements[place]?.bind (levelsAt above rest)

/-- What the nearest level says of a class that says something of it; `stated` is what a level says. -/
def nearest? (stated : Level → List Requirement) (levels : List Level) (className : String) :
    Option Requirement :=
  levels.findSome? fun level => Requirement.ofClass? className (stated level)

lemma nearest?_cons (stated : Level → List Requirement) (level : Level) (levels : List Level)
    (className : String) : nearest? stated (level :: levels) className =
      (Requirement.ofClass? className (stated level)).or (nearest? stated levels className) := by
  rw [nearest?, List.findSome?_cons]
  cases Requirement.ofClass? className (stated level) <;> rfl

/-! ## Requirements -/

/-- The lists of a task answer for every class as some levels do. -/
structure Reflects (info : TaskInfo) (levels : List Level) : Prop where
  requirements : ∀ className, Requirement.ofClass? className info.requirements =
    nearest? Level.requirements levels className
  hints : ∀ className, Requirement.ofClass? className info.hints =
    nearest? Level.hints levels className

namespace Reflects

lemma main (process : Process) : Reflects (mainInfo process) ((mainInfo process).levels ++ []) := by
  have hone (stated : Level → List Requirement) (className : String) :
      nearest? stated [.process process] className =
        Requirement.ofClass? className (stated (.process process)) := by
    rw [nearest?_cons]
    exact Option.or_none
  exact ⟨fun className => (hone Level.requirements className).symm,
    fun className => (hone Level.hints className).symm⟩

/-- The task of a step sees its process, its step and what the workflow sees. -/
lemma child {info : TaskInfo} {levels : List Level} (h : Reflects info levels) (step : Step)
    (target : Process) :
    Reflects (childInfo info step target) ((childInfo info step target).levels ++ levels) := by
  have hlevels : (childInfo info step target).levels ++ levels =
      .process target :: .step step :: levels := rfl
  rw [hlevels]
  refine ⟨fun className => ?_, fun className => ?_⟩
  · rw [nearest?_cons, nearest?_cons, ← h.requirements, ← Requirement.ofClass?_merge,
      ← Requirement.ofClass?_merge]
    rfl
  · rw [nearest?_cons, nearest?_cons, ← h.hints, ← Requirement.ofClass?_merge,
      ← Requirement.ofClass?_merge]
    rfl

lemma requirement? {info : TaskInfo} {levels : List Level} (h : Reflects info levels)
    (className : String) : info.requirement? className =
      (nearest? Level.requirements levels className).or (nearest? Level.hints levels className) := by
  rw [← h.requirements, ← h.hints, ← Requirement.ofClass?_append]
  rfl

end Reflects

/-- **The lists of every task reflect its levels** when those of the topmost task do. -/
theorem reflects_of_at? {document : Document} :
    ∀ {address : Address} {task d : Task κ} {above : List Level},
      task.Everywhere (Expanded document) → Reflects task.info (task.info.levels ++ above) →
      task.at? address = some d →
      ∃ levels, levelsAt above address task = some levels ∧ Reflects d.info levels
  | [], task, d, above, _, here, at_ => by
      obtain rfl : task = d := Option.some.inj at_
      exact ⟨_, rfl, here⟩
  | .child id :: rest, task, d, above, expanded, here, at_ => by
      obtain ⟨child, hc, hd⟩ := Option.bind_eq_some_iff.mp at_
      obtain ⟨step, target, -, -, hinfo⟩ := expanded.here.child id child hc
      have hchild : Reflects child.info (child.info.levels ++ (task.info.levels ++ above)) := by
        rw [hinfo]
        exact here.child step target
      obtain ⟨levels, hlevels, hreflects⟩ :=
        reflects_of_at? (expanded.child (OrderedMap.mem_of_find? hc)) hchild hd
      exact ⟨levels, by rw [levelsAt, hc, Option.bind_some, hlevels], hreflects⟩
  | .element place :: rest, task, d, above, expanded, here, at_ => by
      obtain ⟨element, he, hd⟩ := Option.bind_eq_some_iff.mp at_
      -- A run of a scattered step differs from the step as a whole only in its index.
      have helement : Reflects element.info (element.info.levels ++ above) := by
        rw [expanded.here.element place element he]
        exact ⟨here.requirements, here.hints⟩
      obtain ⟨levels, hlevels, hreflects⟩ :=
        reflects_of_at? (expanded.element (List.mem_of_getElem? he)) helement hd
      exact ⟨levels, by rw [levelsAt, he, Option.bind_some, hlevels], hreflects⟩

/-- **The nearest requirement counts.**  For every task of every tree of a run, and every class: what the
task requires is the first requirement of the class in the nearest level that states one, and, where no level
states one, the first hint of the class in the nearest level that gives one. -/
theorem nearest_requirement {m : Machine σ κ} {c : Circumstances σ} {root tree : Task κ}
    {params : Values} (accepted : resolve m.document = .ok root)
    (run : m.Runs c (ready root params) tree) :
    (∀ d ∈ tree.descendants, ∃ address, tree.at? address = some d) ∧
      ∀ address d, tree.at? address = some d → ∃ levels, levelsAt [] address tree = some levels ∧
        ∀ className, d.info.requirement? className =
          (nearest? Level.requirements levels className).or
            (nearest? Level.hints levels className) := by
  have wired : tree.Everywhere (Wired m.document) :=
    (Machine.sound_of_runs accepted run).mono fun d hd => hd.1
  refine ⟨fun d hd => Task.exists_at? wired hd, fun address d hd => ?_⟩
  obtain ⟨⟨main, -, hroot⟩, -⟩ := expanded_of_resolve accepted
  have hinfo : tree.info = mainInfo main := by
    refine run.keeps (P := fun task => task.info = mainInfo main)
      (fun _ moves h => moves.info.trans h) ?_
    simpa [ready] using hroot
  have here : Reflects tree.info (tree.info.levels ++ []) := by
    rw [hinfo]
    exact .main main
  obtain ⟨levels, hlevels, hreflects⟩ :=
    reflects_of_at? (Machine.expanded_of_runs accepted run) here hd
  exact ⟨levels, hlevels, hreflects.requirement?⟩

/-! ## A run of a scattered step in a run of a scattered step -/

/-- The rows of a grid require an image, which their own workflow only hints at. -/
def imagedRows : Step := { gridRows with requirements := [.docker (some "rows")] }

def imagedRow : Process :=
  { gridRow with hints := [.docker (some "row"), .envVar [("LEVEL", "row")]] }

def imagedMain : Process :=
  { gridMain with
    body := .workflow [imagedRows]
    requirements := [.docker (some "main"), .shellCommand]
    hints := [.envVar [("LEVEL", "main")]] }

def imagedTool : Process := { relayTool with hints := [.shellCommand] }

def imagedMachine : Machine Unit Unit :=
  { relayMachine with document := ⟨"v1.2", [imagedMain, imagedRow, imagedTool]⟩ }

def imagedRoot : Task Unit :=
  .node (mainInfo imagedMain) .fresh .idle
    [("#main/rows", .node (childInfo (mainInfo imagedMain) imagedRows imagedRow) .fresh .idle [] [])]
    []

/-- The tree once the first cell of the first row has been started. -/
def imagedLast : Task Unit :=
  (ready imagedRoot gridParams :: imagedMachine.walk
    [[], [.child "#main/rows"], [.child "#main/rows", .element 0],
      [.child "#main/rows", .element 0, .child "#row/cells"]] (ready imagedRoot gridParams) ()).getLast
    (List.cons_ne_nil _ _)

/-- A cell takes the image of the rows, for the row only hints at one and the main process is further away,
and the variables of the row, which nothing requires. -/
theorem cell_requires_nearest : ∃ d ∈ imagedLast.descendants,
    d.info.path = "#main/rows-scatter-1/cells-scatter-1" ∧
    d.info.requirement? "DockerRequirement" = some (.docker (some "rows")) ∧
    d.info.requirement? "EnvVarRequirement" = some (.envVar [("LEVEL", "row")]) := by
  have accepted : resolve imagedMachine.document = .ok imagedRoot := by
    with_unfolding_all rfl
  have run : imagedMachine.Runs (.any Unit) (ready imagedRoot gridParams) imagedLast :=
    Machine.runs_walk (fun _ => trivial) _ _ ()
  have hlook : (imagedLast.at? [.child "#main/rows", .element 0, .child "#row/cells", .element 0]).map
      (fun d => d.info.path) = some "#main/rows-scatter-1/cells-scatter-1" := by rfl
  obtain ⟨d, hd, hpath⟩ := Option.map_eq_some_iff.mp hlook
  obtain ⟨levels, hlevels, hnearest⟩ := (nearest_requirement accepted run).2 _ d hd
  have hall : levelsAt [] [.child "#main/rows", .element 0, .child "#row/cells", .element 0] imagedLast =
      some [.process imagedTool, .step { relayStep "#row/cells" "#row/in" with scatter := ["in"] },
        .process imagedRow, .step imagedRows, .process imagedMain] := by rfl
  obtain rfl := Option.some.inj (hall.symm.trans hlevels)
  exact ⟨d, Task.mem_descendants_of_at? hd, hpath, hnearest _, hnearest _⟩

end Scheduling

end WorkflowEngine
