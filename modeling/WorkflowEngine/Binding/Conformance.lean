import WorkflowEngine.Document.DataType
import WorkflowEngine.Value.Basic

/-!
# Values of a type

* **`conforms`** — whether a value fits a type.  An integer fits a floating point type; a missing
  field of a record counts as null, and further fields are allowed.
-/

namespace WorkflowEngine.Binding

open Document (DataType InputBinding)

mutual

/-- Whether a value fits a type. -/
def conforms (value : Value) : DataType → Bool
  | .any => true
  | .null => value.isNull
  | .union members => conformsToAny value members
  | .boolean => match value with
    | .bool _ => true
    | _ => false
  | .int => value.int?.isSome
  | .long => value.int?.isSome
  | .float => isNumber value
  | .double => isNumber value
  | .string => value.str?.isSome
  | .file => value.file?.isSome
  | .stdout => value.file?.isSome
  | .stderr => value.file?.isSome
  | .directory => match value with
    | .directory _ => true
    | _ => false
  | .array items _ => match value with
    | .array values => values.all fun v => conforms v items
    | _ => false
  | .record fields => match value with
    | .record values => fieldsConform values fields
    | _ => false
  | .enum symbols => match value with
    | .str s => symbols.contains s
    | _ => false

/-- Whether a value fits one of some types. -/
def conformsToAny (value : Value) : List DataType → Bool
  | [] => false
  | t :: rest => conforms value t || conformsToAny value rest

/-- Whether the fields of a record fit the declared ones. -/
def fieldsConform (values : Values) : List (String × DataType × Option InputBinding) → Bool
  | [] => true
  | (name, type, _) :: rest =>
    conforms ((values.find? name).getD .null) type && fieldsConform values rest

/-- Whether a value is a number. -/
def isNumber : Value → Bool
  | .int _ => true
  | .float _ => true
  | _ => false

end

end WorkflowEngine.Binding
