import Mathlib.Tactic.Common
import WorkflowEngine.Proofs.Timeouts

/-!
# Tools that are told to stop

Polling can end before the tool does.  The executor then goes on with the tool, unless it is told to stop it.

**Records.**  `Call`: what an executor is asked.  `Executor.recorded` keeps a record of the calls and otherwise does
what the executor does.

**Ends.**  `Closes`: the six ways in which polling ends, each with its last calls.  One turn either closes, or goes
on after one status that is not terminal (`turn_recorded`), and so the calls of a whole run are known
(`complete_recorded`).

**The loop.**  `stopped_iff`, for every executor, every configuration and every moment at which the run is cancelled:
the tool is told to stop if and only if no terminal status was received, unless the executor could not be asked, or
gave no other answer for too long than that it does not know.  In these two cases the tool is left to itself
(`unheard_tools_left_running`).
-/

namespace WorkflowEngine.Tool

variable {ε : Type}

/-! ## Records -/

/-- What an executor is asked. -/
inductive Call where
  /-- It is asked for the status of a tool, and answers. -/
  | asked (handle : String) (answer : Outcome ToolStatus)
  /-- It is told to stop a tool. -/
  | stopped (handle : String)

/-- A world with a record of the calls so far. -/
def World.recording (world : World ε) (calls : List Call) : World (ε × List Call) :=
  { world with executor := (world.executor, calls) }

/-- A world without its record. -/
def World.unrecorded (world : World (ε × List Call)) : World ε := { world with executor := world.executor.1 }

/-- The executor with a record of its calls. -/
def Executor.recorded (executor : Executor ε) : Executor (ε × List Call) where
  dispatch tool world :=
    let (result, after) := executor.dispatch tool world.unrecorded
    (result, after.recording world.executor.2)
  status handle world :=
    let (answer, after) := executor.status handle world.unrecorded
    (answer, after.recording (world.executor.2 ++ [.asked handle answer]))
  cancel handle world :=
    let (result, after) := executor.cancel handle world.unrecorded
    (result, after.recording (world.executor.2 ++ [.stopped handle]))

section Records

variable (executor : Executor ε) (world : World ε) (calls : List Call)

@[simp] lemma World.cancelled_recording : (world.recording calls).cancelled = world.cancelled := rfl

@[simp] lemma World.now_recording : (world.recording calls).now = world.now := rfl

@[simp] lemma Executor.status_recorded (handle : String) :
    executor.recorded.status handle (world.recording calls) =
      ((executor.status handle world).1, (executor.status handle world).2.recording
        (calls ++ [.asked handle (executor.status handle world).1])) := rfl

@[simp] lemma Executor.cancel_recorded (handle : String) :
    executor.recorded.cancel handle (world.recording calls) =
      ((executor.cancel handle world).1,
        (executor.cancel handle world).2.recording (calls ++ [.stopped handle])) := rfl

end Records

namespace Polling

variable {executor : Executor ε} {config : Configuration}

lemma stop_recorded (handle : String) (world : World ε) (calls : List Call) :
    stop executor.recorded handle (world.recording calls) =
      ((stop executor handle world).1, (stop executor handle world).2.recording (calls ++ [.stopped handle])) := by
  simp only [stop, Executor.cancel_recorded]
  rcases executor.cancel handle world with ⟨_ | _, after⟩ <;> rfl

/-! ## Ends -/

/-- How polling ends, with the calls that are made at the end. -/
inductive Closes (config : Configuration) (handle : String) : Outcome Unit → List Call → Prop
  | completed : Closes config handle (.ok ()) [.asked handle (.ok .completed)]
  | failed (reason : String) :
      Closes config handle (.error (.dispatch ("tool " ++ handle ++ " failed: " ++ reason)))
        [.asked handle (.ok (.failed reason))]
  | unanswered (failure : Failure) : Closes config handle (.error failure) [.asked handle (.error failure)]
  | lost : Closes config handle (.error (lost config handle)) [.asked handle (.ok .unknown)]
  | overdue {status : ToolStatus} (open_ : status.isTerminal = false) :
      Closes config handle (.error (tooLong config handle)) [.asked handle (.ok status), .stopped handle]
  | cancelled : Closes config handle (.error runCancelled) [.stopped handle]

namespace Closes

variable {handle : String} {result : Outcome Unit} {last : List Call}

/-- The tool is told to stop where polling ends too early, and the executor can still be reached. -/
lemma stopped_mem_iff (h : Closes config handle result last) :
    .stopped handle ∈ last ↔
      (∀ status : ToolStatus, .asked handle (.ok status) ∈ last → status.isTerminal = false) ∧
      (∀ failure, .asked handle (.error failure) ∉ last) ∧ result ≠ .error (Polling.lost config handle) := by
  cases h with
  | completed => simp [ToolStatus.isTerminal]
  | failed reason => simp [ToolStatus.isTerminal]
  | unanswered failure => simp
  | lost => simp
  | overdue hopen => simpa [hopen] using Watch.tooLong_ne_lost
  | cancelled => simp [runCancelled, Polling.lost, Failure.cancelled, Failure.dispatch, Failure.of]

lemma ne_nil (h : Closes config handle result last) : last ≠ [] := by
  cases h <;> simp

lemma mem_dropLast (h : Closes config handle result last) : ∀ call ∈ last.dropLast,
    ∃ status : ToolStatus, status.isTerminal = false ∧ call = .asked handle (.ok status) := by
  cases h with
  | overdue hopen => simpa using hopen
  | _ => simp

end Closes

/-- What the calls of a turn say about what it leads to. -/
def Progress.Shows (config : Configuration) (handle : String) (calls : List Call) : Progress → Prop
  | .again next =>
      next.handle = handle ∧ ∃ status : ToolStatus, status.isTerminal = false ∧ calls = [.asked handle (.ok status)]
  | .ended result => Closes config handle result calls

/-- A tool that is not overdue is polled again. -/
lemma continue_cases (p : Polling) (now : ℕ) (since : Option ℕ) :
    continue_ config p now since = .overdue ∨
      ∃ next, continue_ config p now since = .again next ∧ next.handle = p.handle := by
  rw [continue_]
  split_ifs
  · exact .inl rfl
  · exact .inr ⟨_, rfl, rfl⟩

/-- What an answer leads to: polling ends with it, or it is not terminal. -/
lemma judge_cases (config : Configuration) (p : Polling) (now : ℕ) (status : ToolStatus) :
    (∃ result, judge config p now status = .ended result ∧
        Closes config p.handle result [.asked p.handle (.ok status)]) ∨
      status.isTerminal = false ∧ (judge config p now status = .overdue ∨
        ∃ next, judge config p now status = .again next ∧ next.handle = p.handle) := by
  cases status with
  | completed => exact .inl ⟨_, rfl, .completed⟩
  | failed reason => exact .inl ⟨_, rfl, .failed reason⟩
  | running => exact .inr ⟨rfl, continue_cases p now none⟩
  | unknown =>
      rw [judge]
      split_ifs
      · exact .inl ⟨_, rfl, .lost⟩
      · exact .inr ⟨rfl, continue_cases p now _⟩

/-- **One turn**, with its calls. -/
lemma turn_recorded (executor : Executor ε) (config : Configuration) (p : Polling) (world : World ε)
    (calls : List Call) :
    ∃ more, turn executor.recorded config p (world.recording calls) =
        ((turn executor config p world).1, (turn executor config p world).2.1,
          (turn executor config p world).2.2.recording (calls ++ more)) ∧
      (turn executor config p world).1.Shows config p.handle more := by
  simp only [turn, World.cancelled_recording, Executor.status_recorded, stop_recorded]
  cases world.cancelled with
  | true => exact ⟨[.stopped p.handle], rfl, .cancelled⟩
  | false =>
      obtain ⟨answer, after⟩ := executor.status p.handle world
      cases answer with
      | error failure => exact ⟨[.asked p.handle (.error failure)], rfl, .unanswered failure⟩
      | ok status =>
          rcases judge_cases config p after.now status with
            ⟨result, hjudge, closes⟩ | ⟨hopen, hjudge | ⟨next, hjudge, hhandle⟩⟩
          · simp only [World.now_recording, hjudge]
            exact ⟨_, rfl, closes⟩
          · simp only [World.now_recording, hjudge, stop_recorded, List.append_assoc]
            exact ⟨_, rfl, .overdue hopen⟩
          · simp only [World.now_recording, hjudge]
            exact ⟨_, rfl, hhandle, status, hopen, rfl⟩

/-! ## The loop -/

/-- The world at the next poll, or at a cancellation before it. -/
def woken (p : Polling) (world : World ε) : World ε :=
  { world with now := max world.now (match world.cancelAt with
    | some t => min t p.wake
    | none => p.wake) }

lemma complete_succ (fuel : ℕ) (p : Polling) (events : List Event) (world : World ε) :
    complete executor config (fuel + 1) p events world =
      match turn executor config p (woken p world) with
      | (.ended result, more, after) => (some result, events ++ more, after)
      | (.again next, more, after) => complete executor config fuel next (events ++ more) after := rfl

/-- **The calls of a run**: some answers that are not terminal, and then the calls at the end. -/
lemma complete_recorded {fuel : ℕ} {p : Polling} {events later : List Event} {world after : World ε}
    {result : Outcome Unit}
    (h : complete executor config fuel p events world = (some result, later, after)) (calls : List Call) :
    ∃ waiting last,
      complete executor.recorded config fuel p events (world.recording calls) =
          (some result, later, after.recording (calls ++ waiting ++ last)) ∧
        (∀ call ∈ waiting, ∃ status : ToolStatus, status.isTerminal = false ∧ call = .asked p.handle (.ok status)) ∧
        Closes config p.handle result last := by
  induction fuel generalizing p events world calls with
  | zero => simp [complete] at h
  | succ fuel ih =>
      have hwoken : woken p (world.recording calls) = (woken p world).recording calls := rfl
      obtain ⟨more, hturn, hshows⟩ := turn_recorded executor config p (woken p world) calls
      rw [complete_succ] at h ⊢
      rw [hwoken, hturn]
      generalize turn executor config p (woken p world) = turned at h hshows ⊢
      obtain ⟨_ | next, between, reached⟩ := turned
      · -- The run ends with this turn.
        simp only [Prod.mk.injEq, Option.some.injEq] at h
        obtain ⟨rfl, rfl, rfl⟩ := h
        exact ⟨[], more, by rw [List.append_nil], List.forall_mem_nil _, hshows⟩
      · obtain ⟨hhandle, status, hopen, rfl⟩ := hshows
        obtain ⟨waiting, last, hrun, hwaiting, closes⟩ := ih h (calls ++ [.asked p.handle (.ok status)])
        rw [hhandle] at hwaiting closes
        refine ⟨.asked p.handle (.ok status) :: waiting, last, ?_, ?_, closes⟩
        · simpa using hrun
        · exact List.forall_mem_cons.mpr ⟨⟨status, hopen, rfl⟩, hwaiting⟩

/-- **No tool is left running, unless nothing is heard of it.**  Whenever polling ends, the executor was told to stop
the tool if and only if it had reported no terminal status, could be asked, and the tool was not given up as lost.
Before the last call there are only answers that are not terminal. -/
theorem stopped_iff {fuel : ℕ} {p : Polling} {events later : List Event} {world after : World ε}
    {result : Outcome Unit}
    (h : complete executor config fuel p events world = (some result, later, after)) :
    ∃ calls : List Call,
      complete executor.recorded config fuel p events (world.recording []) =
          (some result, later, after.recording calls) ∧
        (.stopped p.handle ∈ calls ↔
          (∀ status : ToolStatus, .asked p.handle (.ok status) ∈ calls → status.isTerminal = false) ∧
          (∀ failure, .asked p.handle (.error failure) ∉ calls) ∧ result ≠ .error (lost config p.handle)) ∧
        ∀ call ∈ calls.dropLast, ∃ status : ToolStatus,
          status.isTerminal = false ∧ call = .asked p.handle (.ok status) := by
  obtain ⟨waiting, last, hrun, hwaiting, closes⟩ := complete_recorded h []
  refine ⟨waiting ++ last, hrun, ?_, ?_⟩
  · -- The answers before the end change nothing on either side.
    have hstopped : .stopped p.handle ∉ waiting := by
      intro hmem
      obtain ⟨status, -, heq⟩ := hwaiting _ hmem
      cases heq
    have hterminal (status : ToolStatus) (hmem : .asked p.handle (.ok status) ∈ waiting) :
        status.isTerminal = false := by
      obtain ⟨_, hopen, heq⟩ := hwaiting _ hmem
      cases heq
      exact hopen
    have hfailure (failure : Failure) : .asked p.handle (.error failure) ∉ waiting := by
      intro hmem
      obtain ⟨_, -, heq⟩ := hwaiting _ hmem
      cases heq
    have hclosed := closes.stopped_mem_iff
    simp only [List.mem_append, hstopped, hfailure, false_or]
    rw [hclosed]
    refine and_congr_left fun _ => forall_congr' fun status => ?_
    exact ⟨fun h hmem => hmem.elim (hterminal status) h, fun h hmem => h (.inr hmem)⟩
  · rw [List.dropLast_append_of_ne_nil closes.ne_nil]
    exact List.forall_mem_append.mpr ⟨hwaiting, closes.mem_dropLast⟩

/-- Gives a tool ten milliseconds. -/
def hastyConfig : Configuration := { fastConfig with taskTimeout := .ofMilliseconds 10 }

/-- A world at the start of a tool, with an executor that reports one status again and again. -/
def always (status : ToolStatus) : World (List ToolStatus) := ⟨default, 0, none, [status]⟩

/-- A tool that is still running at the fourth poll, after eleven milliseconds, is told to stop. -/
theorem overdue_tool_stopped :
    ∃ after, complete scripted hastyConfig 9 (start hastyConfig "job-1" 0) [] (always .running) =
        (some (.error (tooLong hastyConfig "job-1")), [], after) ∧
      ∃ calls : List Call,
        complete scripted.recorded hastyConfig 9 (start hastyConfig "job-1" 0) [] ((always .running).recording []) =
            (some (.error (tooLong hastyConfig "job-1")), [], after.recording calls) ∧
          .stopped "job-1" ∈ calls := by
  have hrun : complete scripted hastyConfig 9 (start hastyConfig "job-1" 0) [] (always .running) =
      (some (.error (tooLong hastyConfig "job-1")), [], { always .running with now := 11000000 }) := by rfl
  obtain ⟨calls, hrecorded, hstopped, -⟩ := stopped_iff hrun
  have hcalls : calls = List.replicate 4 (.asked "job-1" (.ok .running)) ++ [.stopped "job-1"] :=
    (congrArg (fun run => run.2.2.executor.2) hrecorded).symm
  refine ⟨_, hrun, calls, hrecorded, hstopped.mpr ⟨?_, ?_, ?_⟩⟩
  · simp [hcalls, ToolStatus.isTerminal]
  · simp [hcalls]
  · exact fun h => Watch.tooLong_ne_lost (Except.error.inj h)

/-- An executor that cannot be asked about its tools. -/
def unreachable (failure : Failure) : Executor Unit where
  dispatch _ world := (.ok "job-1", world)
  status _ world := (.error failure, world)
  cancel _ world := (.ok (), world)

/-- No terminal status of a tool was received, and the executor was not told to stop it. -/
def LeftRunning (handle : String) (calls : List Call) : Prop :=
  (∀ status : ToolStatus, .asked handle (.ok status) ∈ calls → status.isTerminal = false) ∧ .stopped handle ∉ calls

/-- A tool whose status is unknown for 30 milliseconds, and a tool that the executor cannot be asked about once:
polling ends, and they are left running. -/
theorem unheard_tools_left_running :
    (∃ calls after, LeftRunning "job-1" calls ∧
      complete scripted.recorded fastConfig 9 (start fastConfig "job-1" 0) [] ((always .unknown).recording []) =
        (some (.error (lost fastConfig "job-1")), [], World.recording after calls)) ∧
    ∃ calls after, LeftRunning "job-1" calls ∧
      complete (unreachable (.dispatch "lost")).recorded fastConfig 9 (start fastConfig "job-1" 0) []
          (World.recording ⟨default, 0, none, ()⟩ []) =
        (some (.error (.dispatch "lost")), [], World.recording after calls) := by
  refine ⟨⟨List.replicate 9 (.asked "job-1" (.ok .unknown)), { always .unknown with now := 31000000 }, ?_, rfl⟩,
    [.asked "job-1" (.error (.dispatch "lost"))], ⟨default, 1000000, none, ()⟩, ?_, rfl⟩
  · simp [LeftRunning, ToolStatus.isTerminal]
  · simp [LeftRunning]

end Polling

end WorkflowEngine.Tool
