import WorkflowEngine.Shell.Session
import WorkflowEngine.Tool.Prepared

/-!
# Processes of an executor

An executor that starts processes keeps a table of them.  A process ends at some time in some way; the
first look at it after that reports its end and drops it from the table, so that an end is reported
once and a later look finds nothing.  The identifiers of processes come from outside.

* **`Child`** — a process that was started.
* **`ProcessTable`** — the processes whose end has not been reported.
* **`ProcessTable.start`**, **`ProcessTable.look`**, **`ProcessTable.kill`** — what happens to them.
* **`ProcessTable.active`** — their number.
-/

namespace WorkflowEngine.Tool

open Shell (Exit)

/-- The status that the end of a process means. -/
def statusOf : Exit → ToolStatus
  | .code 0 => .completed
  | .code n => .failed ("exit code " ++ toString n)
  | .signal => .failed "terminated by signal"

/-- A process: when it ends, and how. -/
structure Child where
  /-- In nanoseconds since the start of the run. -/
  ends : Nat
  exit : Exit
  deriving Repr, DecidableEq, Inhabited

namespace Child

/-- The status of a process at some time. -/
def status (child : Child) (now : Nat) : ToolStatus :=
  if child.ends ≤ now then statusOf child.exit else .running

/-- A process that is killed at some time, unless it has ended before. -/
def killed (child : Child) (now : Nat) : Child :=
  if child.ends ≤ now then child else ⟨now, .signal⟩

end Child

/-- The processes whose end has not been reported, by their handles. -/
structure ProcessTable where
  /-- The number of processes started so far. -/
  started : Nat
  children : OrderedMap Child
  deriving Repr, DecidableEq, Inhabited

namespace ProcessTable

/-- The table before any process is started. -/
def empty : ProcessTable := ⟨0, []⟩

/-! ## Handles -/

/-- Some hexadecimal digits of a number, at least as many as are asked for. -/
def hexDigits (count n : Nat) : List Char :=
  let digits := Nat.toDigits 16 n
  List.replicate (count - digits.length) '0' ++ digits

/-- A number in the form of a universally unique identifier: groups of 8, 4, 4, 4 and 12 hexadecimal
digits. -/
def identifier (n : Nat) : String :=
  let digits := hexDigits 32 n
  let cut := digits.length - 24
  let group := fun start length => '-' :: (digits.drop (cut + start)).take length
  String.ofList (digits.take cut ++ group 0 4 ++ group 4 4 ++ group 8 4 ++ group 12 12)

/-- The handle of the process with a number, where each process gets an identifier. -/
def handle (identifiers : Nat → String) (n : Nat) : String := "local-" ++ identifiers n

/-! ## What happens to processes -/

/-- Starts a process and gives its handle. -/
def start (identifiers : Nat → String) (table : ProcessTable) (child : Child) : String × ProcessTable :=
  let name := handle identifiers table.started
  (name, ⟨table.started + 1, table.children.insert name child⟩)

/-- Looks at a process. -/
def look (table : ProcessTable) (name : String) (now : Nat) : ToolStatus × ProcessTable :=
  match table.children.find? name with
  | none => (.unknown, table)
  | some child =>
    let status := child.status now
    if status.isTerminal then
      (status, { table with children := table.children.erase name })
    else (status, table)

/-- Kills a process. -/
def kill (table : ProcessTable) (name : String) (now : Nat) : ProcessTable :=
  match table.children.find? name with
  | none => table
  | some child => { table with children := table.children.insert name (child.killed now) }

/-- The number of processes whose end has not been reported. -/
def active (table : ProcessTable) : Nat := table.children.length

end ProcessTable

end WorkflowEngine.Tool
