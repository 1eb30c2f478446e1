import WorkflowEngine.Failure

/-!
# Events

What a task does is recorded as events.  Work that records events gives them back together with its
outcome, also when it fails.

* **`Event`** — a message with its level.
* **`Logged`** — work that can fail and records events.
-/

namespace WorkflowEngine

/-- The weight of an event. -/
inductive Level where
  | info
  | warning
  | error
  deriving Repr, DecidableEq, Inhabited

/-- The name of a level. -/
def Level.name : Level → String
  | .info => "info"
  | .warning => "warn"
  | .error => "error"

/-- An event. -/
structure Event where
  level : Level
  message : String
  deriving Repr, DecidableEq, Inhabited

/-- Work that can fail and records events. -/
abbrev Logged (α : Type) := ExceptT Failure (StateM (List Event)) α

namespace Logged

/-- Records an event. -/
def record (level : Level) (message : String) : Logged Unit :=
  modify fun events => events ++ [⟨level, message⟩]

/-- Records a warning. -/
def warn (message : String) : Logged Unit := record .warning message

/-- The outcome of some work and the events it records. -/
def collect {α : Type} (work : Logged α) : Outcome α × List Event := work.run []

end Logged

end WorkflowEngine
