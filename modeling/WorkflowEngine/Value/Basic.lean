import WorkflowEngine.Value.File

/-!
# Values

Parameters, outputs and the results of expressions are values: JSON in which files and directories
are recognised by their `class`.

* **`Value`** — the type.
* **`Value.ofJson`**, **`Value.toJson`** — reading and writing.
* **`Value.mapFiles`**, **`Value.files`** — the files reachable through arrays and records.
-/

namespace WorkflowEngine

/-- A value. -/
inductive Value where
  | null
  | bool (b : Bool)
  | int (n : Int)
  | float (x : Float)
  | str (s : String)
  | file (f : FileValue)
  | directory (d : DirectoryValue)
  | array (items : List Value)
  | record (fields : List (String × Value))
  deriving Inhabited

/-- Named values in order: parameters, outputs. -/
abbrev Values := OrderedMap Value

namespace Value

/-! ## Reading and writing -/

/-- The value of an object whose members have been read as values. -/
def ofObject (json : Json) (fields : List (String × Value)) : Value :=
  match json.field? "class" with
  | some (.str "File") => ((FileValue.ofJson? json).map file).getD (record fields)
  | some (.str "Directory") => ((DirectoryValue.ofJson? json).map directory).getD (record fields)
  | _ => record fields

/-- The value of an integer: one beyond 63 bits is a floating point number. -/
def ofInt (n : Int) : Value := if fitsSigned n then int n else float (floatOfInt n)

mutual

/-- Reads a value.  An object of class `File` or `Directory` with a member of the wrong type is a
record. -/
def ofJson : Json → Value
  | .null => null
  | .bool b => bool b
  | .int n => ofInt n
  | .float x => float x
  | .str s => str s
  | .arr items => array (ofItems items)
  | .obj members => ofObject (.obj members) (ofMembers members)

/-- Reads the items of an array. -/
def ofItems : List Json → List Value
  | [] => []
  | item :: rest => ofJson item :: ofItems rest

/-- Reads the members of an object. -/
def ofMembers : List (String × Json) → List (String × Value)
  | [] => []
  | (key, json) :: rest => (key, ofJson json) :: ofMembers rest

end

mutual

/-- Writes a value. -/
def toJson : Value → Json
  | null => .null
  | bool b => .bool b
  | int n => .int n
  | float x => if x.isFinite then .float x else .null
  | str s => .str s
  | file f => f.toJson
  | directory d => d.toJson
  | array items => .arr (toItems items)
  | record fields => .obj (toMembers fields)

/-- Writes the items of an array. -/
def toItems : List Value → List Json
  | [] => []
  | item :: rest => toJson item :: toItems rest

/-- Writes the fields of a record. -/
def toMembers : List (String × Value) → List (String × Json)
  | [] => []
  | (key, value) :: rest => (key, toJson value) :: toMembers rest

end

mutual

/-- Whether two values are the same; floating point numbers are compared as numbers. -/
def same : Value → Value → Bool
  | null, null => true
  | bool a, bool b => a == b
  | int a, int b => a == b
  | float a, float b => a == b
  | str a, str b => a == b
  | file a, file b => a == b
  | directory a, directory b => a == b
  | array as, array bs => sameItems as bs
  | record as, record bs => sameFields as bs
  | _, _ => false

/-- Whether two lists of values are the same. -/
def sameItems : List Value → List Value → Bool
  | [], [] => true
  | a :: as, b :: bs => same a b && sameItems as bs
  | _, _ => false

/-- Whether two lists of fields are the same. -/
def sameFields : List (String × Value) → List (String × Value) → Bool
  | [], [] => true
  | (k, a) :: as, (l, b) :: bs => k == l && same a b && sameFields as bs
  | _, _ => false

end

instance : BEq Value := ⟨same⟩

/-! ## Views -/

/-- Whether the value is null. -/
def isNull : Value → Bool
  | null => true
  | _ => false

/-- The text of a string. -/
def str? : Value → Option String
  | str s => some s
  | _ => none

/-- The number of an integer. -/
def int? : Value → Option Int
  | int n => some n
  | _ => none

/-- The items of an array. -/
def items? : Value → Option (List Value)
  | array items => some items
  | _ => none

/-- The file of a file value. -/
def file? : Value → Option FileValue
  | file f => some f
  | _ => none

/-- The name of the value's type in messages. -/
def typeName : Value → String
  | null => "null"
  | bool _ => "boolean"
  | int _ => "int"
  | float _ => "float"
  | str _ => "string"
  | file _ => "File"
  | directory _ => "Directory"
  | array _ => "array"
  | record _ => "record"

/-! ## Files inside values -/

mutual

/-- Applies a function to every file reachable through arrays and records. -/
def mapFiles (f : FileValue → FileValue) : Value → Value
  | file v => file (f v)
  | array items => array (mapFilesItems f items)
  | record fields => record (mapFilesFields f fields)
  | v => v

/-- Applies a function to the files of a list of values. -/
def mapFilesItems (f : FileValue → FileValue) : List Value → List Value
  | [] => []
  | item :: rest => mapFiles f item :: mapFilesItems f rest

/-- Applies a function to the files of a list of fields. -/
def mapFilesFields (f : FileValue → FileValue) : List (String × Value) → List (String × Value)
  | [] => []
  | (key, value) :: rest => (key, mapFiles f value) :: mapFilesFields f rest

end

mutual

/-- Applies an action to every file reachable through arrays and records, in order. -/
def mapFilesM {m : Type → Type} [Monad m] (f : FileValue → m FileValue) : Value → m Value
  | file v => do return file (← f v)
  | array items => do return array (← mapFilesItemsM f items)
  | record fields => do return record (← mapFilesFieldsM f fields)
  | v => pure v

/-- Applies an action to the files of a list of values. -/
def mapFilesItemsM {m : Type → Type} [Monad m] (f : FileValue → m FileValue) :
    List Value → m (List Value)
  | [] => pure []
  | item :: rest => do
    let item ← mapFilesM f item
    return item :: (← mapFilesItemsM f rest)

/-- Applies an action to the files of a list of fields. -/
def mapFilesFieldsM {m : Type → Type} [Monad m] (f : FileValue → m FileValue) :
    List (String × Value) → m (List (String × Value))
  | [] => pure []
  | (key, value) :: rest => do
    let value ← mapFilesM f value
    return (key, value) :: (← mapFilesFieldsM f rest)

end

mutual

/-- The files reachable through arrays and records, in order. -/
def files : Value → List FileValue
  | file v => [v]
  | array items => filesItems items
  | record fields => filesFields fields
  | _ => []

/-- The files of a list of values. -/
def filesItems : List Value → List FileValue
  | [] => []
  | item :: rest => files item ++ filesItems rest

/-- The files of a list of fields. -/
def filesFields : List (String × Value) → List FileValue
  | [] => []
  | (_, value) :: rest => files value ++ filesFields rest

end

end Value

/-- Named values as a JSON object. -/
def Values.toJson (values : Values) : Json := .obj (Value.toMembers values)

end WorkflowEngine
