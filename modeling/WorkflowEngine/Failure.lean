/-!
# Failures

A failure says what went wrong, in which part of the engine, and, once known, in which task.  The
task recorded first stays: it is the one closest to the cause.

* **`Component`** — the parts of the engine that fail.
* **`Fault`** — what went wrong.
* **`Failure`** — a fault with its component and its task.
* **`Failure.kind`**, **`Failure.message`**, **`Failure.display`** — what a user is shown.
-/

namespace WorkflowEngine

/-- A part of the engine. -/
inductive Component where
  | document
  | graphResolver
  | stepScheduler
  | scatterEngine
  | inputBinder
  | commandAssembler
  | outputCollector
  | toolRunner
  | expressionEvaluator
  | dispatcher
  deriving Repr, DecidableEq, Inhabited

/-- The name of a part of the engine. -/
def Component.name : Component → String
  | .document => "document"
  | .graphResolver => "graph resolver"
  | .stepScheduler => "step scheduler"
  | .scatterEngine => "scatter engine"
  | .inputBinder => "input binder"
  | .commandAssembler => "command assembler"
  | .outputCollector => "output collector"
  | .toolRunner => "tool runner"
  | .expressionEvaluator => "expression evaluator"
  | .dispatcher => "dispatcher"

/-- The classes of failures that a user tells apart. -/
inductive FailureKind where
  | parse
  | resolve
  | binding
  | eval
  | notImplemented
  | dispatch
  | output
  | cancelled
  deriving Repr, DecidableEq, Inhabited

/-- The name of a class of failures. -/
def FailureKind.name : FailureKind → String
  | .parse => "ParseError"
  | .resolve => "ResolveError"
  | .binding => "BindingError"
  | .eval => "EvalError"
  | .notImplemented => "NotImplemented"
  | .dispatch => "DispatchError"
  | .output => "OutputError"
  | .cancelled => "CancelledError"

/-- What went wrong. -/
inductive Fault where
  /-- The document, the parameters or the configuration are malformed. -/
  | parse (message : String)
  /-- The document refers to something that is not there, or to itself. -/
  | resolve (message : String)
  /-- A value does not fit its place. -/
  | binding (message : String)
  /-- An input has neither a value nor a default. -/
  | missingInput (input : String)
  /-- An expression failed. -/
  | eval (message : String)
  /-- A feature outside the supported subset is used. -/
  | notImplemented (message : String)
  /-- An executor rejected or lost a tool, or the tool failed. -/
  | dispatch (message : String)
  /-- An output could not be collected. -/
  | output (message : String)
  /-- The work was given up. -/
  | cancelled (message : String)
  /-- A file operation failed. -/
  | fileSystem (path : String) (message : String)
  deriving Repr, DecidableEq, Inhabited

/-- A fault, where it arose, and the task it arose in. -/
structure Failure where
  fault : Fault
  component : Component
  task : Option String
  deriving Repr, DecidableEq, Inhabited

namespace Failure

/-- A failure that no task is recorded for yet. -/
def of (component : Component) (fault : Fault) : Failure := ⟨fault, component, none⟩

/-- A malformed document. -/
def parse (component : Component) (message : String) : Failure := of component (.parse message)

/-- A broken reference. -/
def resolve (component : Component) (message : String) : Failure := of component (.resolve message)

/-- A value that does not fit. -/
def binding (component : Component) (message : String) : Failure := of component (.binding message)

/-- A missing input, always found by the input binder. -/
def missingInput (input : String) : Failure := of .inputBinder (.missingInput input)

/-- A failed expression. -/
def eval (component : Component) (message : String) : Failure := of component (.eval message)

/-- An unsupported feature. -/
def notImplemented (component : Component) (message : String) : Failure :=
  of component (.notImplemented message)

/-- A failure of an executor. -/
def dispatch (message : String) : Failure := of .dispatcher (.dispatch message)

/-- A failure to collect outputs. -/
def output (message : String) : Failure := of .outputCollector (.output message)

/-- A cancellation. -/
def cancelled (component : Component) (message : String) : Failure :=
  of component (.cancelled message)

/-- A failed file operation. -/
def fileSystem (component : Component) (path message : String) : Failure :=
  of component (.fileSystem path message)

/-- Records the task of a failure, unless one is recorded already. -/
def inTask (failure : Failure) (task : String) : Failure :=
  { failure with task := failure.task.or (some task) }

/-- The class of a failure.  A failed file operation belongs to the work it was done for. -/
def kind (failure : Failure) : FailureKind :=
  match failure.fault with
  | .parse _ => .parse
  | .resolve _ => .resolve
  | .binding _ => .binding
  | .missingInput _ => .binding
  | .eval _ => .eval
  | .notImplemented _ => .notImplemented
  | .dispatch _ => .dispatch
  | .output _ => .output
  | .cancelled _ => .cancelled
  | .fileSystem _ _ =>
    match failure.component with
    | .outputCollector => .output
    | .inputBinder => .binding
    | .document => .parse
    | _ => .dispatch

/-- Whether a failure is a cancellation. -/
def isCancelled (failure : Failure) : Bool :=
  match failure.fault with
  | .cancelled _ => true
  | _ => false

/-- The message of a failure. -/
def message (failure : Failure) : String :=
  match failure.fault with
  | .parse m => m
  | .resolve m => m
  | .binding m => m
  | .eval m => m
  | .notImplemented m => m
  | .dispatch m => m
  | .output m => m
  | .cancelled m => m
  | .missingInput input =>
    "required input '" ++ input ++ "' has neither a value nor a default"
  | .fileSystem path m => path ++ ": " ++ m

/-- The message of a failure with its class in front. -/
def display (failure : Failure) : String :=
  match failure.fault with
  | .parse m => "Parse error: " ++ m
  | .resolve m => "Resolve error: " ++ m
  | .binding m => "Binding error: " ++ m
  | .eval m => "Evaluation error: " ++ m
  | .notImplemented m => "Not implemented: " ++ m
  | .dispatch m => "Dispatch error: " ++ m
  | .output m => "Output error: " ++ m
  | .cancelled m => "Cancelled: " ++ m
  | .missingInput input => "Missing required input '" ++ input ++ "'"
  | .fileSystem path m => "File system error at " ++ path ++ ": " ++ m

@[simp] theorem inTask_fault (f : Failure) (t : String) : (f.inTask t).fault = f.fault := rfl

@[simp] theorem isCancelled_inTask (f : Failure) (t : String) :
    (f.inTask t).isCancelled = f.isCancelled := rfl

end Failure

/-- A result of the engine: a value or a failure. -/
abbrev Outcome (α : Type) := Except Failure α

end WorkflowEngine
