import Mathlib
import WorkflowEngine.Proofs.Addresses

/-!
# Completion

When the work on the main task has come to its end, every task of the tree has ended, and each of them
has ended once: it entered a final status with one move of the run and kept this status.

**Counting.**  `endings` counts, along the trees of a run, how often the task at an address enters a
final status.  A move adds one exactly when the task ends with it (`endingsWith_add`), so over a run the
count makes up the difference between its two ends (`endings_add`).

**Completion.**  `every_task_ends_once`, for every order of the work, every world and every tool, and
also when the work on tools breaks off.

**The relay.**  `relay` is a small document, a workflow of two steps in which the second takes the output
of the first, and `relayMachine` a machine whose tools pass on what they are given.
-/

namespace WorkflowEngine.Scheduling

open Machine (Address ready Sound Tidy)

variable {σ κ : Type}

/-! ## Counting -/

/-- The status of the task at an address, once there is one. -/
def statusAt (address : Address) (root : Task κ) : Option Status :=
  (root.at? address).map Task.status

/-- One if the task at an address has ended. -/
def endedAt (address : Address) (root : Task κ) : Nat :=
  if (statusAt address root).any Status.isFinal then 1 else 0

/-- One if the task at an address enters a final status from one tree to the next. -/
def endingsWith (address : Address) (before after : Task κ) : Nat :=
  if statusAt address after ≠ statusAt address before then endedAt address after else 0

/-- How often the task at an address enters a final status along some trees. -/
def endings (address : Address) : List (Task κ) → Nat
  | before :: after :: rest => endingsWith address before after + endings address (after :: rest)
  | _ => 0

/-- **A move counts when the task ends with it.**  A task that has ended before keeps its status. -/
lemma endingsWith_add {before after : Task κ} (h : Continues before after) (address : Address) :
    endingsWith address before after + endedAt address before = endedAt address after := by
  unfold endingsWith
  cases hb : before.at? address with
  | none =>
      have hstatus : statusAt address before = none := by rw [statusAt, hb, Option.map_none]
      have hzero : endedAt address before = 0 := by simp [endedAt, hstatus]
      rw [hzero, hstatus]
      cases ha : statusAt address after with
      | none => simp [endedAt, ha]
      | some s => simp
  | some d =>
      obtain ⟨d', hd', -, hkept⟩ := h address d hb
      have hbefore : statusAt address before = some d.status := by
        rw [statusAt, hb, Option.map_some]
      have hafter : statusAt address after = some d'.status := by
        rw [statusAt, hd', Option.map_some]
      cases hdone : d.isDone with
      | true =>
          have hsame : d'.status = d.status := congrArg Task.Facts.status (hkept hdone)
          rw [hafter, hbefore, hsame, if_neg (by simp)]
          simp [endedAt, hbefore, hafter, hsame]
      | false =>
          have hzero : endedAt address before = 0 := by
            rw [endedAt, hbefore]
            simpa [Task.isDone] using hdone
          rw [hzero, Nat.add_zero]
          by_cases hne : statusAt address after = statusAt address before
          · rw [if_neg (not_not.mpr hne), endedAt, hne]
            simpa [endedAt] using hzero.symm
          · rw [if_pos hne]

/-- **Over a run the count makes up the difference.** -/
lemma endings_add {m : Machine σ κ} {c : Circumstances σ} (address : Address) :
    ∀ {trees : List (Task κ)} {start : Task κ}, Sound m.document start →
      (start :: trees).IsChain (m.Goes c) →
      endings address (start :: trees) + endedAt address start =
        endedAt address ((start :: trees).getLast (List.cons_ne_nil start trees))
  | [], start, _, _ => by simp [endings]
  | next :: rest, start, h, chain => by
      obtain ⟨⟨world, admitted, moves⟩, hrest⟩ := List.isChain_cons_cons.mp chain
      have hstep := endingsWith_add (moves.continues (Machine.attached_none start) h) address
      have hnext := moves.sound (Machine.attached_none start) h
      have ih := endings_add (m := m) (c := c) address hnext hrest
      rw [List.getLast_cons_cons, ← ih, endings, ← hstep]
      omega

/-! ## Completion -/

/-- Every task of a wired tree is found at an address. -/
lemma Task.exists_at? {document : Document} {task d : Task κ}
    (h : task.Everywhere (Wired document)) (hd : d ∈ task.descendants) :
    ∃ address, task.at? address = some d := by
  induction task using inductionBelow with
  | step task ihc ihe =>
      rcases mem_descendants.mp hd with rfl | ⟨p, hp, hd⟩ | ⟨e, he, hd⟩
      · exact ⟨[], rfl⟩
      · obtain ⟨rest, hrest⟩ := ihc p hp (h.child hp) hd
        have hfind := (OrderedMap.find?_eq_some_iff h.here.nodup).mpr hp
        exact ⟨.child p.1 :: rest, by rw [at?, hfind, Option.bind_some, hrest]⟩
      · obtain ⟨rest, hrest⟩ := ihe e he (h.element he) hd
        obtain ⟨place, hplace⟩ := List.getElem?_of_mem he
        exact ⟨.element place :: rest, by rw [at?, hplace, Option.bind_some, hrest]⟩

/-- No task of a tree has ended when the run starts. -/
lemma everywhere_not_done_ready {document : Document} {root : Task κ}
    (accepted : resolve document = .ok root) (params : Values) :
    (ready root params).Everywhere fun d => d.isDone = false := by
  have hnew := wired_of_resolve accepted
  refine Machine.everywhere_ready (hnew.mono fun d hd => hd.2.isDone) ?_
  simpa [ready, Task.isDone] using hnew.here.2.isDone

/-- **Completion.**  Whatever the order of the work, when the work on the main task has come to its end
every task of the tree has ended, and has entered a final status exactly once. -/
theorem every_task_ends_once {m : Machine σ κ} {root last : Task κ} {params : Values}
    {trees : List (Task κ)} (accepted : resolve m.document = .ok root)
    (run : (ready root params :: trees).IsChain (m.Goes (.any σ)))
    (reached : (ready root params :: trees).getLast (List.cons_ne_nil _ _) = last)
    (returned : last.phase = .returned) :
    (∀ d ∈ last.descendants, ∃ address, last.at? address = some d) ∧
      ∀ address d, last.at? address = some d →
        d.isDone = true ∧ endings address (ready root params :: trees) = 1 := by
  have hruns : m.Runs (.any σ) (ready root params) last :=
    List.relationReflTransGen_of_exists_isChain_cons trees run reached
  have hsound : Sound m.document last := Machine.sound_of_runs accepted hruns
  refine ⟨fun d hd => Task.exists_at? (hsound.mono fun d hd => hd.1) hd, fun address d hd => ?_⟩
  have hdone : d.isDone = true :=
    (hsound.here.2.returned returned d (Task.mem_descendants_of_at? hd)).1
  have hend : endedAt address last = 1 := by
    rw [endedAt, statusAt, hd, Option.map_some, Option.any_some]
    exact if_pos hdone
  have hstart : endedAt address (ready root params) = 0 := by
    rw [endedAt, statusAt]
    cases hs : (ready root params).at? address with
    | none => simp
    | some s =>
        have hnot := everywhere_not_done_ready accepted params s (Task.mem_descendants_of_at? hs)
        simpa [Task.isDone] using hnot
  have hcount := endings_add address (Machine.sound_ready params (wired_of_resolve accepted)) run
  rw [reached, hend, hstart] at hcount
  exact ⟨hdone, hcount⟩

/-! ## The relay -/

/-- A tool that passes on its input. -/
def relayTool : Document.Process where
  id := "#pass"
  body := .expressionTool ""
  inputs := []
  outputs := [⟨"out", .any, none, [], []⟩]
  requirements := []
  hints := []

/-- A step that passes on a source. -/
def relayStep (id source : String) : Document.Step where
  id
  run := "#pass"
  inputs := [⟨"in", [source], none, none⟩]
  outputs := ["out"]
  scatter := []
  scatterMethod := none
  requirements := []
  hints := []

/-- The first step takes the input of the workflow. -/
def relayFirst : Document.Step := relayStep "#main/first" "#main/given"

/-- The second step takes the output of the first. -/
def relaySecond : Document.Step := relayStep "#main/second" "#main/first/out"

/-- A workflow of the two steps. -/
def relayMain : Document.Process where
  id := "#main"
  body := .workflow [relayFirst, relaySecond]
  inputs := [⟨"given", .any, none, none, [], false⟩]
  outputs := [⟨"out", .any, none, [], ["#main/second/out"]⟩]
  requirements := []
  hints := []

/-- The document of the workflow. -/
def relay : Document := ⟨"v1.2", [relayMain, relayTool]⟩

/-- What the tool passes on. -/
def relayOutputs (params : Values) : Values := [("out", (params.find? "in").getD .null)]

/-- A machine whose tools wait once. -/
def relayMachine : Machine Unit Unit where
  document := relay
  evaluator := fun _ _ => .ok .null
  behavior := {
    start := fun _ params world => (⟨params, [], .wait ()⟩, world)
    ready := fun _ _ => true
    resume := fun _ params _ world => (⟨params, [], .done (.ok (relayOutputs params))⟩, world)
    cancelled := fun _ => false }

/-- The task of a step before the run. -/
def relayTask (step : Document.Step) : Task Unit :=
  .node (childInfo (mainInfo relayMain) step relayTool) .fresh .idle [] []

/-- The tree of the document. -/
def relayRoot : Task Unit :=
  .node (mainInfo relayMain) .fresh .idle
    [("#main/first", relayTask relayFirst), ("#main/second", relayTask relaySecond)] []

/-- The tree with which a run starts. -/
def relayStart : Task Unit := ready relayRoot [("given", .bool true)]

/-- The trees of a whole run. -/
def relayTrees : List (Task Unit) :=
  relayMachine.walk [[], [.child "#main/first"], [.child "#main/first"], [.child "#main/second"],
    [.child "#main/second"], []] relayStart ()

/-- The tree with which the run ends. -/
def relayLast : Task Unit := (relayStart :: relayTrees).getLast (List.cons_ne_nil _ _)

lemma relay_accepted : resolve relayMachine.document = .ok relayRoot := by
  cbv

lemma relay_returned : relayLast.phase = .returned := by
  cbv

theorem relay_ends_once :
    (∀ d ∈ relayLast.descendants, ∃ address, relayLast.at? address = some d) ∧
      ∀ address d, relayLast.at? address = some d →
        d.isDone = true ∧ endings address (relayStart :: relayTrees) = 1 :=
  every_task_ends_once relay_accepted (Machine.isChain_walk (fun _ => trivial) _ relayStart ()) rfl
    relay_returned

end WorkflowEngine.Scheduling
