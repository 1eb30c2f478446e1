import Mathlib.Logic.Function.Basic
import WorkflowEngine.Proofs.Failures
import WorkflowEngine.Proofs.Tasks

/-!
# Callers

The work on a task, the task above it and the end of the run call on the same tasks, each at its own pace,
and more than one of them may try to end a task.  A task ends once all the same.

**Calls.**  Callers share a `Store` of tasks and have an agenda each; any caller may be the next to go on.
A call that changes a status is one step, since a status is held while it is looked at and changed, and the
outputs are stored in the meantime.  Giving up is many steps, with room for others between them.

**One end.**  `Touched` says what a step can do to a task.  It keeps the state of the task in line with what
was answered so far (`Accounts`), and the rest is read off: `one_shot`.
-/

namespace WorkflowEngine.Scheduling

/-! ## Calls -/

/-- What callers know a task by. -/
abbrev Handle := Nat

/-- A task that callers share.  The tasks directly below it are known by their handles. -/
structure Cell where
  info : TaskInfo
  state : TaskState
  children : List Handle
  elements : List Handle
  deriving Inhabited

/-- The tasks that callers share. -/
abbrev Store := Handle → Cell

/-- What can be called on a task. -/
inductive Call where
  | markRunning
  | finish (result : Outcome Values)
  | abandon (reason : String)
  | setParameters (parameters : Values)
  | setElements (elements : List Handle)

/-- What a caller has still to do. -/
inductive Todo where
  | call (task : Handle) (call : Call)
  /-- The elements of a task are given up, those that it has by then. -/
  | abandonElements (task : Handle) (reason : String)

/-- A task was to be ended, and the answer was whether it ended by this. -/
structure Ending where
  task : Handle
  result : Outcome Values
  took : Bool

/-- What a step leaves: the tasks, what its caller has to do next, and what was answered. -/
structure Effect where
  store : Store
  next : List Todo := []
  endings : List Ending := []

/-- The tasks with one of them in another state. -/
def Store.mapState (store : Store) (t : Handle) (f : TaskState → TaskState) : Store :=
  Function.update store t { store t with state := f (store t).state }

/-- What has to be done to give up some tasks. -/
def abandonAll (tasks : List Handle) (reason : String) : List Todo :=
  tasks.map fun t => .call t (.abandon reason)

/-- The effect of a step. -/
def Todo.effect (store : Store) : Todo → Effect
  | .call t .markRunning => { store := store.mapState t TaskState.markRunning }
  | .call t (.finish result) =>
    { store := store.mapState t (·.finish (store t).info.id result)
      endings := [⟨t, result, !(store t).state.status.isFinal⟩] }
  | .call t (.abandon reason) =>
    { store
      next := abandonAll (store t).children reason ++
        [.abandonElements t reason, .call t (.finish (.error (Task.givenUp reason)))] }
  | .call t (.setParameters parameters) =>
    { store := store.mapState t fun s => { s with parameters } }
  | .call t (.setElements elements) =>
    { store := Function.update store t { store t with elements } }
  | .abandonElements t reason => { store, next := abandonAll (store t).elements reason }

/-- What was answered about a task. -/
def about (t : Handle) (endings : List Ending) : List Ending :=
  endings.filter fun ending => ending.task = t

/-- A moment of a run of callers. -/
structure Scene where
  store : Store
  /-- What each caller has still to do. -/
  agenda : Nat → List Todo
  /-- What was answered so far. -/
  endings : List Ending

namespace Scene

/-- A caller goes on. -/
def next (scene : Scene) (caller : Nat) : Scene :=
  match scene.agenda caller with
  | [] => scene
  | todo :: rest =>
    let effect := todo.effect scene.store
    { store := effect.store
      agenda := Function.update scene.agenda caller (effect.next ++ rest)
      endings := scene.endings ++ effect.endings }

/-- Some callers go on, one after the other. -/
def play (scene : Scene) (schedule : List Nat) : Scene := schedule.foldl next scene

/-- The state of a task. -/
def state (scene : Scene) (t : Handle) : TaskState := (scene.store t).state

/-- What a task was ended with, each time that it took. -/
def taken (scene : Scene) (t : Handle) : List (Outcome Values) :=
  ((about t scene.endings).filter Ending.took).map Ending.result

lemma play_append (scene : Scene) (first second : List Nat) :
    scene.play (first ++ second) = (scene.play first).play second := List.foldl_append

end Scene

/-! ## Steps -/

section Store

variable (store : Store) (t u : Handle) (f : TaskState → TaskState)

@[simp] lemma Store.state_mapState_self : (store.mapState t f t).state = f (store t).state := by
  simp [Store.mapState]

lemma Store.mapState_of_ne (h : u ≠ t) : store.mapState t f u = store u := by
  simp [Store.mapState, h]

@[simp] lemma Store.info_mapState : (store.mapState t f u).info = (store u).info := by
  by_cases h : u = t
  · subst h; simp [Store.mapState]
  · rw [mapState_of_ne store t u f h]

end Store

/-- What a step can make of the state of a task, and what it answers about it. -/
inductive Touched (t : Handle) (cell : Cell) : TaskState → List Ending → Prop
  | kept : Touched t cell cell.state []
  | started : Touched t cell cell.state.markRunning []
  | fed (parameters : Values) : Touched t cell { cell.state with parameters } []
  | finished (result : Outcome Values) :
      Touched t cell (cell.state.finish cell.info.id result) [⟨t, result, !cell.state.status.isFinal⟩]

/-- Only the task itself is touched when its state is changed. -/
lemma touched_mapState (store : Store) (t : Handle) (f : TaskState → TaskState) {endings : List Ending}
    (hf : Touched t (store t) (f (store t).state) endings) (u : Handle) :
    (store.mapState t f u).info = (store u).info ∧
      Touched u (store u) (store.mapState t f u).state (if t = u then endings else []) := by
  refine ⟨store.info_mapState t u f, ?_⟩
  split_ifs with h
  · subst h
    rwa [Store.state_mapState_self]
  · rw [Store.mapState_of_ne store t u f (Ne.symm h)]
    exact .kept

lemma touched_mapState_nil (store : Store) (t : Handle) (f : TaskState → TaskState)
    (hf : Touched t (store t) (f (store t).state) []) (u : Handle) :
    (store.mapState t f u).info = (store u).info ∧
      Touched u (store u) (store.mapState t f u).state [] := by
  simpa using touched_mapState store t f hf u

lemma touched_setElements (store : Store) (t : Handle) (elements : List Handle) (u : Handle) :
    (Function.update store t { store t with elements } u).info = (store u).info ∧
      Touched u (store u) (Function.update store t { store t with elements } u).state [] := by
  by_cases h : u = t
  · subst h
    rw [Function.update_self]
    exact ⟨rfl, .kept⟩
  · rw [Function.update_of_ne h]
    exact ⟨rfl, .kept⟩

/-- **A step touches every task** in one of four ways. -/
theorem Todo.touched (store : Store) (todo : Todo) (t : Handle) :
    ((todo.effect store).store t).info = (store t).info ∧
      Touched t (store t) ((todo.effect store).store t).state (about t (todo.effect store).endings) := by
  cases todo with
  | abandonElements u reason => exact ⟨rfl, .kept⟩
  | call u call =>
      cases call with
      | markRunning => exact touched_mapState_nil store u _ .started t
      | finish result =>
          have h := touched_mapState store u (·.finish (store u).info.id result) (.finished result) t
          simpa [effect, about, List.filter_cons] using h
      | abandon reason => exact ⟨rfl, .kept⟩
      | setParameters parameters => exact touched_mapState_nil store u _ (.fed parameters) t
      | setElements elements => exact touched_setElements store u elements t

/-! ## One end -/

/-- How the state of a task comes about by what it was ended with. -/
inductive Accounts (id : String) (state : TaskState) : List (Outcome Values) → Prop
  | unended (unended : state.status.isFinal = false) (empty : state.outputs = []) : Accounts id state []
  | succeeded (status : state.status = .succeeded) : Accounts id state [.ok state.outputs]
  | failed (cause : Failure) (status : state.status = .failed (cause.inTask id))
      (empty : state.outputs = []) : Accounts id state [.error cause]

section Accounts

variable {t : Handle} {cell : Cell} {state' : TaskState} {answers : List Ending}
  {results : List (Outcome Values)}

/-- The directions in which a status can change. -/
inductive Status.Forward : Status → Status → Prop
  | stay (status : Status) : Forward status status
  | start : Forward .pending .running
  | skip {status : Status} (h : status.isFinal = true) : Forward .pending status
  | stop {status : Status} (h : status.isFinal = true) : Forward .running status

lemma Status.Forward.of_isFinal {s s' : Status} (unended : s.isFinal = false) (h : s'.isFinal = true) :
    s.Forward s' := by
  cases s with
  | pending => exact .skip h
  | running => exact .stop h
  | succeeded => cases unended
  | failed f => cases unended

lemma forward_markRunning (state : TaskState) : state.status.Forward state.markRunning.status := by
  unfold TaskState.markRunning
  split
  case h_1 h => rw [h]; exact .start
  case h_2 => exact .stay _

lemma forward_finish (state : TaskState) (id : String) (result : Outcome Values) :
    state.status.Forward (state.finish id result).status := by
  cases h : state.status.isFinal with
  | true => rw [TaskState.finish_eq_self h]; exact .stay _
  | false => exact .of_isFinal h (TaskState.isFinal_finish state id result)

lemma Touched.forward (h : Touched t cell state' answers) : cell.state.status.Forward state'.status := by
  cases h with
  | kept => exact .stay _
  | started => exact forward_markRunning _
  | fed parameters => exact .stay _
  | finished result => exact forward_finish _ _ _

lemma outputs_markRunning (state : TaskState) : state.markRunning.outputs = state.outputs := by
  unfold TaskState.markRunning
  split <;> rfl

lemma markRunning_of_isFinal {state : TaskState} (h : state.status.isFinal = true) :
    state.markRunning = state := by
  unfold TaskState.markRunning
  split
  case h_1 hp => rw [hp] at h; cases h
  case h_2 => rfl

/-- What has ended stays as it is. -/
lemma Touched.of_isFinal (h : Touched t cell state' answers) (ended : cell.state.status.isFinal = true) :
    state'.status = cell.state.status ∧ state'.outputs = cell.state.outputs ∧
      answers.filter Ending.took = [] := by
  cases h with
  | kept => exact ⟨rfl, rfl, rfl⟩
  | started => rw [markRunning_of_isFinal ended]; exact ⟨rfl, rfl, rfl⟩
  | fed parameters => exact ⟨rfl, rfl, rfl⟩
  | finished result => rw [TaskState.finish_eq_self ended, ended]; exact ⟨rfl, rfl, rfl⟩

lemma Touched.ends_iff (h : Touched t cell state' answers) :
    (cell.state.status.isFinal = false ∧ state'.status.isFinal = true) ↔
      ∃ result, answers = [⟨t, result, true⟩] := by
  cases h with
  | kept => simp
  | started => simp
  | fed parameters => simp
  | finished result => simp

lemma Accounts.unended_of (h : Accounts cell.info.id cell.state results)
    (unended : cell.state.status.isFinal = false) : results = [] ∧ cell.state.outputs = [] := by
  cases h with
  | unended _ empty => exact ⟨rfl, empty⟩
  | succeeded status => rw [status] at unended; cases unended
  | failed cause status => rw [status] at unended; cases unended

lemma Accounts.congr {id : String} {state state' : TaskState} (h : Accounts id state results)
    (status : state'.status = state.status) (outputs : state'.outputs = state.outputs) :
    Accounts id state' results := by
  cases h with
  | unended unended empty => exact .unended (status ▸ unended) (outputs ▸ empty)
  | succeeded hs => exact outputs ▸ .succeeded (status ▸ hs)
  | failed cause hs empty => exact .failed cause (status ▸ hs) (outputs ▸ empty)

lemma accounts_finish {id : String} {state : TaskState} (unended : state.status.isFinal = false)
    (empty : state.outputs = []) (result : Outcome Values) :
    Accounts id (state.finish id result) [result] := by
  unfold TaskState.finish
  rw [unended]
  cases result with
  | ok outputs => exact .succeeded rfl
  | error cause => exact .failed cause rfl empty

section Read

variable {id : String} {state : TaskState}

lemma Accounts.length (h : Accounts id state results) :
    results.length = if state.status.isFinal then 1 else 0 := by
  cases h with
  | unended unended => rw [unended]; rfl
  | succeeded status => rw [status]; rfl
  | failed cause status => rw [status]; rfl

lemma Accounts.of_succeeded (h : Accounts id state results) (hs : state.status = .succeeded) :
    results = [.ok state.outputs] := by
  cases h with
  | unended unended => rw [hs] at unended; cases unended
  | succeeded => rfl
  | failed cause status => rw [hs] at status; cases status

lemma Accounts.outputs_eq_nil (h : Accounts id state results) (hs : state.status ≠ .succeeded) :
    state.outputs = [] := by
  cases h with
  | unended _ empty => exact empty
  | succeeded status => exact absurd status hs
  | failed _ _ empty => exact empty

lemma Accounts.of_failed (h : Accounts id state results) {failure : Failure}
    (hs : state.status = .failed failure) :
    ∃ cause, results = [.error cause] ∧ failure = cause.inTask id ∧
      failure.task = some (cause.task.getD id) := by
  cases h with
  | unended unended => rw [hs] at unended; cases unended
  | succeeded status => rw [hs] at status; cases status
  | failed cause status =>
      obtain rfl := Status.failed.inj (hs.symm.trans status)
      exact ⟨cause, rfl, rfl, Option.or_some⟩

end Read

/-- A step keeps the account of a task. -/
lemma Accounts.touched (h : Accounts cell.info.id cell.state results)
    (touched : Touched t cell state' answers) :
    Accounts cell.info.id state' (results ++ (answers.filter Ending.took).map Ending.result) := by
  cases hended : cell.state.status.isFinal with
  | true =>
      obtain ⟨status, outputs, hanswers⟩ := touched.of_isFinal hended
      rw [hanswers, List.map_nil, List.append_nil]
      exact h.congr status outputs
  | false =>
      obtain ⟨rfl, empty⟩ := h.unended_of hended
      cases touched with
      | kept => exact h
      | started =>
          refine .unended (by rw [TaskState.isFinal_markRunning, hended]) ?_
          rw [outputs_markRunning, empty]
      | fed parameters => exact .unended hended empty
      | finished result =>
          rw [hended]
          exact accounts_finish hended empty result

end Accounts

/-- What the status of a task says at a moment of a run of callers. -/
structure OneShot (scene : Scene) (t : Handle) : Prop where
  /-- The status only moves forward, whoever goes on. -/
  forward : ∀ caller, (scene.state t).status.Forward ((scene.next caller).state t).status
  /-- A final status lasts, and the outputs with it. -/
  lasts : (scene.state t).status.isFinal = true → ∀ schedule,
    ((scene.play schedule).state t).status = (scene.state t).status ∧
      ((scene.play schedule).state t).outputs = (scene.state t).outputs
  /-- The task ends by a step exactly when this is the answer. -/
  answered : ∀ caller,
    ((scene.state t).status.isFinal = false ∧ ((scene.next caller).state t).status.isFinal = true) ↔
      ∃ result, about t (scene.next caller).endings = about t scene.endings ++ [⟨t, result, true⟩]
  /-- This was the answer once when the task has ended, and never before. -/
  once : (scene.taken t).length = if (scene.state t).status.isFinal then 1 else 0
  succeeded : (scene.state t).status = .succeeded → scene.taken t = [.ok (scene.state t).outputs]
  empty : (scene.state t).status ≠ .succeeded → (scene.state t).outputs = []
  /-- A failure names a task, another one only when the failure named it before. -/
  failed : ∀ failure, (scene.state t).status = .failed failure →
    ∃ cause, scene.taken t = [.error cause] ∧ failure = cause.inTask (scene.store t).info.id ∧
      failure.task = some (cause.task.getD (scene.store t).info.id)

namespace Scene

variable {scene : Scene} {t : Handle}

lemma next_touched (scene : Scene) (caller : Nat) (t : Handle) :
    ((scene.next caller).store t).info = (scene.store t).info ∧
      ∃ answers, Touched t (scene.store t) ((scene.next caller).state t) answers ∧
        about t (scene.next caller).endings = about t scene.endings ++ answers := by
  unfold next
  split
  case h_1 => exact ⟨rfl, [], .kept, (List.append_nil _).symm⟩
  case h_2 todo rest _ =>
    obtain ⟨info, touched⟩ := todo.touched scene.store t
    exact ⟨info, _, touched, List.filter_append _ _⟩

/-- A moment at which the account of a task is in order. -/
def Settled (scene : Scene) (t : Handle) : Prop :=
  Accounts (scene.store t).info.id (scene.state t) (scene.taken t)

lemma Settled.next (h : scene.Settled t) (caller : Nat) : (scene.next caller).Settled t := by
  obtain ⟨info, answers, touched, hanswers⟩ := scene.next_touched caller t
  rw [Settled, taken, hanswers, List.filter_append, List.map_append, info]
  exact Accounts.touched h touched

lemma Settled.play (h : scene.Settled t) (schedule : List Nat) : (scene.play schedule).Settled t := by
  induction schedule generalizing scene with
  | nil => exact h
  | cons caller schedule ih => exact ih (h.next caller)

lemma lasts_play (ended : (scene.state t).status.isFinal = true) (schedule : List Nat) :
    ((scene.play schedule).state t).status = (scene.state t).status ∧
      ((scene.play schedule).state t).outputs = (scene.state t).outputs := by
  induction schedule generalizing scene with
  | nil => exact ⟨rfl, rfl⟩
  | cons caller schedule ih =>
      obtain ⟨-, answers, touched, -⟩ := scene.next_touched caller t
      obtain ⟨status, outputs, -⟩ := touched.of_isFinal ended
      have ended' : ((scene.next caller).state t).status.isFinal = true := by rw [status]; exact ended
      obtain ⟨hstatus, houtputs⟩ := ih ended'
      exact ⟨hstatus.trans status, houtputs.trans outputs⟩

lemma answered_iff (scene : Scene) (caller : Nat) (t : Handle) :
    ((scene.state t).status.isFinal = false ∧ ((scene.next caller).state t).status.isFinal = true) ↔
      ∃ result, about t (scene.next caller).endings = about t scene.endings ++ [⟨t, result, true⟩] := by
  obtain ⟨-, answers, touched, hanswers⟩ := scene.next_touched caller t
  rw [hanswers]
  simp only [List.append_cancel_left_eq]
  exact touched.ends_iff

/-- A task whose account is in order has a status that can be relied on. -/
lemma Settled.oneShot (h : scene.Settled t) : OneShot scene t where
  forward caller := by
    obtain ⟨-, _, touched, -⟩ := scene.next_touched caller t
    exact touched.forward
  lasts := lasts_play
  answered caller := scene.answered_iff caller t
  once := h.length
  succeeded := h.of_succeeded
  empty := h.outputs_eq_nil
  failed _ := h.of_failed

end Scene

/-- **The status of a task is a signal that is given once.**  However callers go on that share tasks none of
which has started, and whatever they call, it holds of every task at every moment. -/
theorem one_shot {scene : Scene} (fresh : ∀ t, scene.state t = .fresh) (unanswered : scene.endings = [])
    (schedule : List Nat) (t : Handle) : OneShot (scene.play schedule) t := by
  have start : scene.Settled t := by
    rw [Scene.Settled, Scene.taken, fresh, unanswered]
    exact .unended rfl rfl
  exact (start.play schedule).oneShot

/-! ### A task that is ended from two sides -/

/-- A task that has not started. -/
def freshCell (id : String) (index : Option Nat) (children elements : List Handle) : Cell :=
  ⟨{ (default : TaskInfo) with id, index }, .fresh, children, elements⟩

/-- One caller works on a task and on its child, another one gives the task up. -/
def race : Scene where
  store
    | 0 => freshCell "#main/sub" none [1] [2]
    | 1 => freshCell "#main/sub/inner" none [] []
    | _ => freshCell "#main/sub" (some 1) [] []
  agenda
    | 0 => [.call 1 .markRunning, .call 1 (.finish (.ok [("x", .int 7)])), .call 0 (.finish (.ok []))]
    | 1 => [.call 0 (.abandon "upstream failed")]
    | _ => []
  endings := []

/-- The child ends just before its turn comes to be given up. -/
def raceSchedule : List Nat := [0, 1, 1, 0, 1, 1, 1, 1, 1, 1, 1, 0]

/-- The child has succeeded, the task and its element are given up, and two attempts came too late. -/
theorem race_ends_each_once :
    (race.play raceSchedule).endings.map (fun ending => (ending.task, ending.took)) =
      [(1, true), (1, false), (2, true), (0, true), (0, false)] ∧
    [0, 1, 2].map (fun t => ((race.play raceSchedule).state t).status.label) =
      ["failed", "succeeded", "failed"] ∧
    ∀ t, OneShot (race.play raceSchedule) t := by
  have fresh (t : Handle) : race.state t = .fresh := by
    unfold Scene.state race
    dsimp only
    split <;> rfl
  exact ⟨by decide +kernel, by decide +kernel, one_shot fresh rfl raceSchedule⟩

end WorkflowEngine.Scheduling
