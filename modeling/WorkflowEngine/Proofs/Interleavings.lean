import Mathlib.Data.List.Chain
import Mathlib.Logic.Relation
import WorkflowEngine.Engine
import WorkflowEngine.Proofs.Tasks

/-!
# Interleavings

The work on the tasks of a run goes on in any order.  A run is followed through its trees of tasks: one
tree comes from another when something happens to one task of it, in a world that the run admits.
Between two steps the world may change in any way, so every clock, every executor and every moment of a
cancellation is covered.

* **`Machine.Happens`** — what can happen to one task: its step; the end of a wait in a cancelled run,
  also when what it waits for is there; and, where a run has to reckon with it, that the work on a tool
  breaks off.
* **`Machine.Moves`** — something happens to one task of a tree.
* **`Machine.Runs`** — any number of moves.  `runs_settle` and `runs_work` place the order that the
  engine chooses among them.
* **`Moves.everywhere`** — how a property of every task of a tree is kept by what happens.
-/

namespace WorkflowEngine.Scheduling

variable {σ κ : Type}

/-- What a run has to reckon with: the worlds in which its steps are taken, and whether the work on a
tool can break off. -/
structure Circumstances (σ : Type) where
  admits : σ → Prop
  breaksOff : Prop

/-- Any world, and work that breaks off. -/
def Circumstances.any (σ : Type) : Circumstances σ := ⟨fun _ => True, True⟩

/-- Whether the task is a tool. -/
def TaskInfo.isTool (info : TaskInfo) : Bool := !info.process.isWorkflow && !info.isScatter

/-- Whether some source has to be waited for. -/
def Supply.Awaits (supply : Supply) (sources : List String) : Prop :=
  ∃ source ∈ sources, (supply.producers.find? source).isSome = true

/-- Every step that a value can come from is there. -/
def Supply.Staffed (supply : Supply) : Prop :=
  ∀ source producer, supply.producers.find? source = some producer →
    (supply.steps.find? producer).isSome = true

/-- The parameters with which a task starts: those fed to a step, or its own. -/
def Feeds (supply : Option Supply) (task : Task κ) (params : Values) : Prop :=
  match supply with
  | none => params = task.state.parameters
  | some supply => ∃ step, task.info.step = some step ∧ supply.feed step = some (.ok params)

namespace Machine

/-- What can happen to one task. -/
inductive Happens (m : Machine σ κ) (c : Circumstances σ) (world : σ) (supply : Option Supply)
    (task : Task κ) : Task κ → Prop
  /-- The task takes its step. -/
  | step {next : Task κ} {world' : σ} (h : m.stepHere supply task world = some (next, world')) :
      Happens m c world supply task next
  /-- In a cancelled run a step that waits is woken, even when its producers have ended. -/
  | wakeWaiting {s : Supply} {step : Document.Step} (waiting : task.phase = .waiting)
      (hs : supply = some s) (hstep : task.info.step = some step) (cancelled : s.cancelled = true)
      (awaits : s.Awaits (step.inputs.flatMap (·.sources))) :
      Happens m c world supply task (refuse Supply.runCancelled task)
  /-- In a cancelled run a workflow that reads the sources of its outputs is woken. -/
  | wakeJoining (joining : task.phase = .joining) (plain : task.info.isScatter = false)
      (succeeded : ∀ p ∈ task.children, p.2.status = .succeeded ∧ p.2.phase.isOver = true)
      (none : task.elements = []) (cancelled : m.behavior.cancelled world = true)
      (awaits : (Supply.ofTask true task).Awaits (task.info.process.outputs.flatMap (·.sources))) :
      Happens m c world supply task (conclude (.error Supply.runCancelled) task)
  /-- The work on a tool breaks off before the tool has its first turn. -/
  | breakStart {params : Values} (allowed : c.breaksOff) (tool : task.info.isTool = true)
      (waiting : task.phase = .waiting) (fed : Feeds supply task params) :
      Happens m c world supply task ((takeUp (task.setParameters params)).withPhase .aborted)
  /-- The work on a tool breaks off between two turns. -/
  | breakWork {tool : κ} (allowed : c.breaksOff) (working : task.phase = .working tool) :
      Happens m c world supply task (task.withPhase .aborted)

/-- Something happens to one task of a tree. -/
inductive Moves (m : Machine σ κ) (c : Circumstances σ) (world : σ) :
    Option Supply → Task κ → Task κ → Prop
  | here {supply : Option Supply} {task next : Task κ}
      (h : m.Happens c world supply task next) : Moves m c world supply task next
  | child {supply : Option Supply} {task child next : Task κ} {id : String}
      (at_ : task.children.find? id = some child)
      (below : Moves m c world (some (.ofTask (m.behavior.cancelled world) task)) child next) :
      Moves m c world supply task (task.withChildren (replaceChild task.children id next))
  | element {supply : Option Supply} {task element next : Task κ} {place : Nat}
      (at_ : task.elements[place]? = some element) (below : Moves m c world none element next) :
      Moves m c world supply task (task.withElements (task.elements.set place next))

/-- Something happens in a world that is admitted. -/
def Goes (m : Machine σ κ) (c : Circumstances σ) (root next : Task κ) : Prop :=
  ∃ world, c.admits world ∧ m.Moves c world none root next

/-- A run leads from one tree to another. -/
abbrev Runs (m : Machine σ κ) (c : Circumstances σ) : Task κ → Task κ → Prop :=
  Relation.ReflTransGen (m.Goes c)

/-- The main task with its parameters, as a run starts with it. -/
def ready (root : Task κ) (params : Values) : Task κ := (root.setParameters params).withPhase .waiting

/-! ## The order of the machine -/

/-- A step of the machine is a move. -/
theorem moves_of_stepAt {m : Machine σ κ} (c : Circumstances σ) {world world' : σ} :
    ∀ {address : Address} {supply : Option Supply} {task next : Task κ},
      m.stepAt address supply task world = some (next, world') → m.Moves c world supply task next
  | [], _, _, _, h => .here (.step h)
  | .child id :: rest, supply, task, next, h => by
      simp only [stepAt, Option.bind_eq_bind, Option.bind_eq_some_iff] at h
      obtain ⟨child, hc, ⟨child', w⟩, hb, hn⟩ := h
      obtain ⟨rfl, rfl⟩ := Prod.mk.inj (Option.some.inj hn)
      exact .child hc (moves_of_stepAt c hb)
  | .element place :: rest, supply, task, next, h => by
      simp only [stepAt, Option.bind_eq_bind, Option.bind_eq_some_iff] at h
      obtain ⟨element, he, ⟨element', w⟩, hb, hn⟩ := h
      obtain ⟨rfl, rfl⟩ := Prod.mk.inj (Option.some.inj hn)
      exact .element he (moves_of_stepAt c hb)

/-- A step of the machine at an address is a move in its world. -/
theorem goes_of_step? {m : Machine σ κ} {c : Circumstances σ} {address : Address}
    {root next : Task κ} {world world' : σ} (h : m.step? address root world = some (next, world'))
    (admitted : c.admits world) : m.Goes c root next :=
  ⟨world, admitted, moves_of_stepAt c h⟩

/-- **The machine's own order is a run.** -/
theorem runs_settle {m : Machine σ κ} {c : Circumstances σ} (admits : ∀ world, c.admits world) :
    ∀ (fuel : Nat) (root : Task κ) (world : σ), m.Runs c root (m.settle fuel root world).1
  | 0, root, world => .refl
  | fuel + 1, root, world => by
      rw [settle]
      cases h : m.firstStep root world with
      | none => exact .refl
      | some p =>
          obtain ⟨next, world'⟩ := p
          obtain ⟨address, -, ha⟩ := List.exists_of_findSome?_eq_some h
          exact .head (goes_of_step? ha (admits world)) (runs_settle admits fuel next world')

/-- The trees that follow when tasks take their steps one after the other, while they can. -/
def walk (m : Machine σ κ) : List Address → Task κ → σ → List (Task κ)
  | [], _, _ => []
  | address :: rest, root, world =>
    match m.step? address root world with
    | some (next, world') => next :: walk m rest next world'
    | none => []

lemma isChain_walk {m : Machine σ κ} {c : Circumstances σ} (admits : ∀ world, c.admits world) :
    ∀ (addresses : List Address) (root : Task κ) (world : σ),
      (root :: m.walk addresses root world).IsChain (m.Goes c)
  | [], root, world => .singleton root
  | address :: rest, root, world => by
      rw [walk]
      cases h : m.step? address root world with
      | none => exact .singleton root
      | some p =>
          exact .cons_cons (goes_of_step? h (admits world)) (isChain_walk admits rest p.1 p.2)

lemma runs_walk {m : Machine σ κ} {c : Circumstances σ} (admits : ∀ world, c.admits world)
    (addresses : List Address) (root : Task κ) (world : σ) :
    m.Runs c root ((root :: m.walk addresses root world).getLast (List.cons_ne_nil _ _)) :=
  List.relationReflTransGen_of_exists_isChain_cons _ (isChain_walk admits addresses root world) rfl

end Machine

/-- **Every run of the engine is a run of its machine**, whatever the clock does. -/
theorem runs_work {ε : Type} {m : Machine (Tool.World ε) Tool.Running}
    {c : Circumstances (Tool.World ε)} (admits : ∀ world, c.admits world) (steps : Nat) :
    ∀ (fuel : Nat) (root : RunTask) (world : Tool.World ε),
      m.Runs c root (Engine.work m steps fuel root world).1
  | 0, root, world => .refl
  | fuel + 1, root, world => by
      rw [Engine.work]
      have hs := Machine.runs_settle (m := m) admits steps root world
      generalize m.settle steps root world = settled at hs
      obtain ⟨next, world'⟩ := settled
      dsimp only at hs ⊢
      split_ifs with hover
      · exact hs
      · split
        · exact hs
        · exact hs.trans (runs_work admits steps fuel next _)

namespace Machine

/-! ## The children of a task -/

lemma replaceChild_eq (children : OrderedMap (Task κ)) (id : String) (child : Task κ) :
    replaceChild children id child =
      children.map fun p => (p.1, if p.1 = id then child else p.2) := by
  refine List.map_congr_left fun p _ => ?_
  obtain ⟨key, old⟩ := p
  by_cases h : key = id <;> simp [h]

@[simp] lemma keys_replaceChild (children : OrderedMap (Task κ)) (id : String) (child : Task κ) :
    (replaceChild children id child).keys = children.keys := by
  rw [replaceChild_eq, OrderedMap.keys_mapValues]

lemma find?_replaceChild (children : OrderedMap (Task κ)) (id key : String) (child : Task κ) :
    (replaceChild children id child).find? key =
      (children.find? key).map fun old => if key = id then child else old := by
  rw [replaceChild_eq, OrderedMap.find?_mapValues]

lemma mem_replaceChild {children : OrderedMap (Task κ)} {id : String} {child : Task κ}
    {p : String × Task κ} (h : p ∈ replaceChild children id child) :
    (p.1 = id ∧ p.2 = child) ∨ p ∈ children := by
  rw [replaceChild_eq, List.mem_map] at h
  obtain ⟨q, hq, rfl⟩ := h
  by_cases hk : q.1 = id
  · exact Or.inl ⟨hk, by simp [hk]⟩
  · exact Or.inr (by simpa [hk] using hq)

/-! ## What is kept -/

/-- The task is fed as the step that it is, and every step that a value can come from is there. -/
def Attached (supply : Option Supply) (task : Task κ) : Prop :=
  ∀ s, supply = some s → task.info.step.isSome = true ∧ s.Staffed

lemma attached_none (task : Task κ) : Attached none task := by
  simp [Attached]

lemma Attached.isStep {supply : Option Supply} {task : Task κ} (h : Attached supply task)
    (fed : supply.isSome = true) : task.info.step ≠ none := by
  obtain ⟨s, rfl⟩ := Option.isSome_iff_exists.mp fed
  exact Option.isSome_iff_ne_none.mp (h s rfl).1

lemma find?_steps_ofTask (cancelled : Bool) (task : Task κ) (id : String) :
    (Supply.ofTask cancelled task).steps.find? id =
      (task.children.find? id).map fun child => (child.status, child.state.outputs) :=
  OrderedMap.find?_mapValues (fun p : String × Task κ => (p.2.status, p.2.state.outputs)) _ id

/-- **A property of every task is kept** when it is kept by what happens to a task, and for a task when
something happens below it.  `Q` is a property that is known before; among other things it says that
children are steps. -/
theorem Moves.everywhere {m : Machine σ κ} {c : Circumstances σ} {world : σ} {Q P : Task κ → Prop}
    (steps : ∀ {task child : Task κ} {id : String}, Q task → task.children.find? id = some child →
      ∀ cancelled, Attached (some (.ofTask cancelled task)) child)
    (here : ∀ {supply : Option Supply} {task next : Task κ}, Attached supply task →
      m.Happens c world supply task next → task.Everywhere Q → task.Everywhere P → next.Everywhere P)
    (child : ∀ {task child next : Task κ} {id : String}, task.Everywhere Q → task.Everywhere P →
      task.children.find? id = some child →
      m.Moves c world (some (.ofTask (m.behavior.cancelled world) task)) child next →
      next.Everywhere P → P (task.withChildren (replaceChild task.children id next)))
    (element : ∀ {task element next : Task κ} {place : Nat}, task.Everywhere Q → task.Everywhere P →
      task.elements[place]? = some element → m.Moves c world none element next →
      next.Everywhere P → P (task.withElements (task.elements.set place next)))
    {supply : Option Supply} {task next : Task κ} (moves : m.Moves c world supply task next)
    (attached : Attached supply task) (hQ : task.Everywhere Q) (hP : task.Everywhere P) :
    next.Everywhere P := by
  induction moves with
  | here h => exact here attached h hQ hP
  | @child supply task old next id at_ below ih =>
      have hmem := OrderedMap.mem_of_find? at_
      have hnext := ih (steps hQ.here at_ _) (hQ.child hmem) (hP.child hmem)
      refine Task.everywhere_iff.mpr ⟨child hQ hP at_ below hnext, fun p hp => ?_, fun e he => ?_⟩
      · rw [Task.children_withChildren] at hp
        rcases mem_replaceChild hp with h | h
        · exact h.2 ▸ hnext
        · exact hP.child h
      · rw [Task.elements_withChildren] at he
        exact hP.element he
  | @element supply task old next place at_ below ih =>
      have hmem := List.mem_of_getElem? at_
      have hnext := ih (attached_none old) (hQ.element hmem) (hP.element hmem)
      refine Task.everywhere_iff.mpr ⟨element hQ hP at_ below hnext, fun p hp => ?_, fun e he => ?_⟩
      · rw [Task.children_withElements] at hp
        exact hP.child hp
      · rw [Task.elements_withElements] at he
        rcases List.mem_or_eq_of_mem_set he with h | rfl
        · exact hP.element h
        · exact hnext

/-- **A property of a tree is kept by a run** when it is kept by every move. -/
theorem Runs.keeps {m : Machine σ κ} {c : Circumstances σ} {P : Task κ → Prop}
    (keep : ∀ {world : σ} {task next : Task κ}, c.admits world → m.Moves c world none task next →
      P task → P next)
    {root next : Task κ} (run : m.Runs c root next) (h : P root) : P next := by
  induction run with
  | refl => exact h
  | tail _ goes ih =>
      obtain ⟨world, admitted, moves⟩ := goes
      exact keep admitted moves ih

/-- A property is kept by a run when every move keeps it that is made in the run: what is known of each
tree of the run can be used. -/
lemma Runs.keeps_within {m : Machine σ κ} {c : Circumstances σ} {P : Task κ → Prop} {root : Task κ}
    (keep : ∀ {world : σ} {task next : Task κ}, m.Runs c root task → c.admits world →
      m.Moves c world none task next → P task → P next)
    {next : Task κ} (run : m.Runs c root next) (h : P root) : P next := by
  induction run with
  | refl => exact h
  | tail before goes ih =>
      obtain ⟨world, admitted, moves⟩ := goes
      exact keep before admitted moves ih

end Machine

end WorkflowEngine.Scheduling
