import WorkflowEngine.Configuration.Basic
import WorkflowEngine.Log
import WorkflowEngine.Tool.Prepared

/-!
# Polling

A tool is asked for its status after a first wait, and then after waits that double up to a longest
one.  Polling ends when the tool has ended, when its status has been unknown for too long, when it has
run for too long, or when the run is cancelled; in the last two cases the executor is told to stop the
tool.

* **`Polling`** — a tool that is polled, and when it is polled next.
* **`Polling.judge`** — what a status means for a tool at some time.
* **`Polling.turn`** — a poll, or the end of a cancelled run.
-/

namespace WorkflowEngine.Tool

/-- A tool that is polled.  Times are in nanoseconds. -/
structure Polling where
  handle : String
  started : Nat
  /-- The wait that ends at the next poll. -/
  delay : Nat
  /-- The time of the next poll. -/
  wake : Nat
  /-- The first poll of those without interruption at which the status was unknown. -/
  unknownSince : Option Nat
  deriving Repr, DecidableEq, Inhabited

/-- What follows from a status. -/
inductive Verdict where
  /-- Polling ends. -/
  | ended (result : Outcome Unit)
  /-- The tool has run for too long. -/
  | overdue
  /-- The tool is polled again. -/
  | again (polling : Polling)
  deriving Inhabited

namespace Polling

/-- A tool that was handed over at some time. -/
def start (config : Configuration) (handle : String) (now : Nat) : Polling :=
  let delay := config.pollInterval.nanoseconds
  ⟨handle, now, delay, now + delay, none⟩

/-- The failure of a tool whose status is unknown for too long. -/
def lost (config : Configuration) (handle : String) : Failure :=
  .dispatch ("status of " ++ handle ++ " unknown for " ++ config.unknownTimeout.text)

/-- The failure of a tool that has run for too long. -/
def tooLong (config : Configuration) (handle : String) : Failure :=
  .dispatch ("tool " ++ handle ++ " exceeded the task timeout of " ++ config.taskTimeout.text)

/-- The next poll of a tool that has not ended. -/
def continue_ (config : Configuration) (p : Polling) (now : Nat) (unknownSince : Option Nat) :
    Verdict :=
  if config.taskTimeout.nanoseconds ≤ now - p.started then .overdue
  else
    let delay := min (2 * p.delay) config.maxPollInterval.nanoseconds
    .again { p with delay, wake := now + delay, unknownSince }

/-- What a status means for a tool at some time. -/
def judge (config : Configuration) (p : Polling) (now : Nat) : ToolStatus → Verdict
  | .completed => .ended (.ok ())
  | .failed reason => .ended (.error (.dispatch ("tool " ++ p.handle ++ " failed: " ++ reason)))
  | .running => continue_ config p now none
  | .unknown =>
    let since := p.unknownSince.getD now
    if config.unknownTimeout.nanoseconds ≤ now - since then
      .ended (.error (lost config p.handle))
    else continue_ config p now (some since)

/-- Tells the executor to stop a tool, and records when it cannot. -/
def stop {ε : Type} (executor : Executor ε) (handle : String) (world : World ε) :
    List Event × World ε :=
  match executor.cancel handle world with
  | (.ok (), world) => ([], world)
  | (.error failure, world) =>
    ([⟨.warning, "failed to cancel " ++ handle ++ ": " ++ failure.display⟩], world)

/-- What a turn of polling leads to. -/
inductive Progress where
  | ended (result : Outcome Unit)
  | again (polling : Polling)
  deriving Inhabited

/-- The failure of a tool whose run is cancelled. -/
def runCancelled : Failure := .cancelled .toolRunner "run cancelled"

/-- Polls a tool; in a cancelled run, stops it instead. -/
def turn {ε : Type} (executor : Executor ε) (config : Configuration) (p : Polling)
    (world : World ε) : Progress × List Event × World ε :=
  if world.cancelled then
    let (events, world) := stop executor p.handle world
    (.ended (.error runCancelled), events, world)
  else
    match executor.status p.handle world with
    | (.error failure, world) => (.ended (.error failure), [], world)
    | (.ok status, world) =>
      match judge config p world.now status with
      | .ended result => (.ended result, [], world)
      | .again p => (.again p, [], world)
      | .overdue =>
        let (events, world) := stop executor p.handle world
        (.ended (.error (tooLong config p.handle)), events, world)

/-- Whether a tool can be polled, or stopped. -/
def isReady {ε : Type} (p : Polling) (world : World ε) : Bool :=
  world.cancelled || p.wake ≤ world.now

/-- Polls a tool until polling ends, at most `fuel` times, on a clock that moves only while nothing
happens. -/
def complete {ε : Type} (executor : Executor ε) (config : Configuration) :
    Nat → Polling → List Event → World ε → Option (Outcome Unit) × List Event × World ε
  | 0, _, events, world => (none, events, world)
  | fuel + 1, p, events, world =>
    let next := match world.cancelAt with
      | some t => min t p.wake
      | none => p.wake
    let world := { world with now := max world.now next }
    match turn executor config p world with
    | (.ended result, more, world) => (some result, events ++ more, world)
    | (.again p, more, world) => complete executor config fuel p (events ++ more) world

end Polling

end WorkflowEngine.Tool
