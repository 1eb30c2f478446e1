import WorkflowEngine.Failure
import WorkflowEngine.Json.Printer
import WorkflowEngine.Placeholder.Scan
import WorkflowEngine.Script.Evaluation
import WorkflowEngine.Value.Basic

/-!
# Expressions in documents

A text of a document is evaluated in a context of three variables and a library.  A text that is one
function block or one placeholder gives the value of its script; in any other text each placeholder
is replaced by the text of its value.  Every script runs in fresh memory.

* **`ExprContext`** — what a text can refer to.
* **`ExprFault`** — why a text has no value.
* **`evaluateJson`** — evaluation to JSON.
* **`Interpreter`**, **`evaluate`**, **`evaluateString`** — evaluation to a value and to a text, by
  whatever evaluates to JSON.
-/

namespace WorkflowEngine

/-- What an expression can refer to. -/
structure ExprContext where
  inputs : Json
  self : Json
  runtime : Json
  library : List String
  deriving Inhabited

namespace ExprContext

/-- A context that shows some values as `inputs`. -/
def ofInputs (values : Values) : ExprContext := ⟨values.toJson, .null, .obj [], []⟩

/-- The context with another `self`. -/
def withSelf (context : ExprContext) (value : Value) : ExprContext :=
  { context with self := value.toJson }

/-- The global variables of a context. -/
def globals (context : ExprContext) : List (String × Json) :=
  [("inputs", context.inputs), ("self", context.self), ("runtime", context.runtime)]

end ExprContext

/-- Why an expression has no value. -/
inductive ExprFault where
  /-- A placeholder is not closed. -/
  | unterminated (expression : String)
  /-- A script of the library failed. -/
  | library (expression : String) (fault : Script.ScriptFault)
  /-- The script failed. -/
  | script (expression : String) (fault : Script.ScriptFault)
  /-- A placeholder or a block is blank. -/
  | empty
  /-- The value is not a text. -/
  | notText (expression : String) (found : String)
  deriving Repr, DecidableEq

/-- The class of a fault. -/
def ExprFault.kind : ExprFault → String
  | .unterminated _ => "Eval"
  | .library _ _ => "Eval"
  | .script _ _ => "Eval"
  | .empty => "EmptyExpression"
  | .notText _ _ => "TypeMismatch"

/-- The message of a fault. -/
def ExprFault.message : ExprFault → String
  | .unterminated e => "failed to evaluate '" ++ e ++ "': unterminated $( expression"
  | .library e fault => "failed to evaluate '" ++ e ++ "': expressionLib: " ++ fault.text
  | .script e fault => "failed to evaluate '" ++ e ++ "': " ++ fault.text
  | .empty => "empty expression"
  | .notText e found => "expression '" ++ e ++ "' returned " ++ found ++ ", expected string"

/-- The failure of a fault. -/
def ExprFault.toFailure (fault : ExprFault) : Failure :=
  Failure.eval .expressionEvaluator fault.message

/-- The name of the type of a JSON value. -/
def jsonTypeName : Json → String
  | .null => "null"
  | .bool _ => "boolean"
  | .int _ => "number"
  | .float _ => "number"
  | .str _ => "string"
  | .arr _ => "array"
  | .obj _ => "object"

/-- The text that replaces a placeholder: a string as it is, all else as JSON. -/
def placeholderText : Json → String
  | .str s => s
  | json => json.text

/-- Whether a text consists of white space. -/
def isBlankText (s : String) : Bool := s.toList.all Text.isWhiteSpace

/-- The value of a script that stands in an expression. -/
def runScript (expression code : String) (context : ExprContext) : Except ExprFault Json :=
  match Script.runLibrary (Script.machineWith context.globals) context.library with
  | .error fault => .error (.library expression fault)
  | .ok memory =>
    match Script.evaluateIn memory code with
    | .ok json => .ok json
    | .error fault => .error (.script expression fault)

/-- The text of a piece of an expression. -/
def partText (expression : String) (context : ExprContext) :
    Placeholder.Part → Except ExprFault String
  | .text s => .ok s
  | .code code =>
    if isBlankText code then .error .empty
    else (runScript expression ("(" ++ code ++ ")") context).map placeholderText

/-- The value of an expression as JSON. -/
def evaluateJson (expression : String) (context : ExprContext) : Except ExprFault Json :=
  match Placeholder.functionBody? expression with
  | some body =>
    if isBlankText body then .error .empty
    else runScript expression ("(function()\x7b" ++ body ++ "\x7d)()") context
  | none =>
    match Placeholder.singlePlaceholder? expression with
    | some code =>
      if isBlankText code then .error .empty
      else runScript expression ("(" ++ code ++ ")") context
    | none =>
      match Placeholder.scan expression with
      | none => .error (.unterminated expression)
      | some parts => do
        let texts ← parts.mapM (partText expression context)
        return .str (String.join texts)

/-! ## Interpreters -/

/-- What gives expressions their values as JSON; that of the engine is `evaluateJson`. -/
abbrev Interpreter := String → ExprContext → Except ExprFault Json

/-- The value of an expression. -/
def evaluate (interpreter : Interpreter) (expression : String) (context : ExprContext) :
    Except ExprFault Value :=
  (interpreter expression context).map Value.ofJson

/-- The value of an expression that must be a text. -/
def evaluateString (interpreter : Interpreter) (expression : String) (context : ExprContext) :
    Except ExprFault String := do
  match ← interpreter expression context with
  | .str s => return s
  | other => throw (.notText expression (jsonTypeName other))

/-- An evaluation as a step of the engine. -/
def ExprFault.orFail {α : Type} (result : Except ExprFault α) : Outcome α :=
  match result with
  | .ok a => .ok a
  | .error fault => .error fault.toFailure

end WorkflowEngine
