import WorkflowEngine.Document.Binding
import WorkflowEngine.Document.Ident

/-!
# Types of parameters

A type is a name, a union written as a list, or a schema for arrays, records and enumerations.  In
a name, the suffix `?` adds null and the suffix `[]` makes an array; they are read from the end.

* **`DataType`** — the types.
* **`DataType.ofName`**, **`DataType.ofJson`** — reading.
* **`DataType.display`** — writing, which gives a name back as it was read.
* **`DataType.isOptional`**, **`DataType.nonNull`** — the part that null plays in a type.
-/

namespace WorkflowEngine.Document

/-- A type of parameters. -/
inductive DataType where
  | null
  | boolean
  | int
  | long
  | float
  | double
  | string
  | file
  | directory
  | any
  /-- The file that holds the standard output. -/
  | stdout
  /-- The file that holds the standard error. -/
  | stderr
  | array (items : DataType) (binding : Option InputBinding)
  | record (fields : List (String × DataType × Option InputBinding))
  | enum (symbols : List String)
  | union (members : List DataType)
  deriving Inhabited

namespace DataType

/-- The name of a type that has one. -/
def baseName? : DataType → Option String
  | null => some "null"
  | boolean => some "boolean"
  | int => some "int"
  | long => some "long"
  | float => some "float"
  | double => some "double"
  | string => some "string"
  | file => some "File"
  | directory => some "Directory"
  | any => some "Any"
  | stdout => some "stdout"
  | stderr => some "stderr"
  | _ => none

/-- The types that have a name. -/
def bases : List DataType :=
  [null, boolean, int, long, float, double, string, file, directory, any, stdout, stderr]

/-- The type with a name. -/
def ofBase? (name : String) : Option DataType := bases.find? fun t => t.baseName? = some name

/-- The address that may stand in front of the name of a type. -/
def schemaAddress : List Char := "https://w3id.org/cwl/salad#".toList

/-- A name without the addresses in front of it. -/
def dropAddress (cs : List Char) : List Char :=
  if _h : schemaAddress.isPrefixOf cs ∧ 0 < cs.length then
    dropAddress (cs.drop schemaAddress.length)
  else cs
termination_by cs.length
decreasing_by
  have : schemaAddress.length = 27 := by decide
  simp only [List.length_drop]; omega

/-- Reads the name of a type that is given from its end. -/
def ofReversedName : List Char → Outcome DataType
  | '?' :: rest => (ofReversedName rest).map fun t => union [null, t]
  | ']' :: '[' :: rest => (ofReversedName rest).map fun t => array t none
  | cs =>
    let name := String.ofList (dropAddress cs.reverse)
    match ofBase? name with
    | some t => .ok t
    | none =>
      .error (Failure.notImplemented .document ("unsupported type '" ++ name ++ "'"))

/-- Reads the name of a type. -/
def ofName (name : String) : Outcome DataType := ofReversedName name.toList.reverse

/-- Reads a type, nested at most `fuel` deep. -/
def ofJsonUpTo : Nat → Json → Outcome DataType
  | 0, json => malformed ("invalid type expression: " ++ json.text)
  | fuel + 1, json =>
    match json with
    | .str name => ofName name
    | .arr members => (members.mapM (ofJsonUpTo fuel)).map union
    | .obj _ =>
      match json.field? "type" with
      | some (.str "array") =>
        match json.field? "items" with
        | none => malformed "array schema without 'items'"
        | some items => do
          let binding ← readMember? InputBinding.ofJson json "inputBinding"
          let items ← ofJsonUpTo fuel items
          return array items binding
      | some (.str "record") => do
        let bodies ← entries (json.field? "fields") "name" "type"
        let fields ← bodies.mapM fun (name, body) => do
          let type ← readMember? (ofJsonUpTo fuel) body "type"
          let binding ← readMember? InputBinding.ofJson body "inputBinding"
          return (Ident.localName name, type.getD any, binding)
        return record fields
      | some (.str "enum") =>
        .ok (enum ((((json.field? "symbols").bind Json.items?).getD []).filterMap fun s =>
          s.str?.map Ident.localName))
      | some (.str other) => ofName other
      | _ => malformed ("type schema without 'type': " ++ json.text)
    | other => malformed ("invalid type expression: " ++ other.text)

end DataType

mutual

/-- The number of levels of a JSON value. -/
def jsonHeight : Json → Nat
  | .arr items => itemsHeight items + 1
  | .obj members => membersHeight members + 1
  | _ => 1

/-- The number of levels of the items of an array. -/
def itemsHeight : List Json → Nat
  | [] => 0
  | item :: rest => max (jsonHeight item) (itemsHeight rest)

/-- The number of levels of the members of an object. -/
def membersHeight : List (String × Json) → Nat
  | [] => 0
  | (_, value) :: rest => max (jsonHeight value) (membersHeight rest)

end

namespace DataType

/-- Reads a type.  A level of the type takes at least one level of the JSON value. -/
def ofJson (json : Json) : Outcome DataType := ofJsonUpTo (jsonHeight json) json

mutual

/-- The text of a type. -/
def display : DataType → String
  | null => "null"
  | boolean => "boolean"
  | int => "int"
  | long => "long"
  | float => "float"
  | double => "double"
  | string => "string"
  | file => "File"
  | directory => "Directory"
  | any => "Any"
  | stdout => "stdout"
  | stderr => "stderr"
  | array items _ => display items ++ "[]"
  | record _ => "record"
  | enum _ => "enum"
  | union [null, only] => display only ++ "?"
  | union members => "[" ++ ", ".intercalate (displayAll members) ++ "]"

/-- The texts of some types. -/
def displayAll : List DataType → List String
  | [] => []
  | t :: rest => display t :: displayAll rest

end

mutual

/-- Whether null is a value of the type. -/
def isOptional : DataType → Bool
  | null => true
  | any => true
  | union members => isOptionalAny members
  | _ => false

/-- Whether null is a value of one of some types. -/
def isOptionalAny : List DataType → Bool
  | [] => false
  | t :: rest => isOptional t || isOptionalAny rest

end

/-- Whether the type is null. -/
def isNull : DataType → Bool
  | null => true
  | _ => false

mutual

/-- The type without null, when a union has a single other member. -/
def nonNull : DataType → DataType
  | union members =>
    if (members.filter fun t => !t.isNull).length = 1 then nonNullMember members
    else union members
  | t => t

/-- The first member that is not null, without null. -/
def nonNullMember : List DataType → DataType
  | [] => null
  | t :: rest => if t.isNull then nonNullMember rest else nonNull t

end

/-- Whether the values are files. -/
def isFile (t : DataType) : Bool :=
  match t.nonNull with
  | file => true
  | stdout => true
  | stderr => true
  | _ => false

/-- Whether the values are arrays. -/
def isArray (t : DataType) : Bool :=
  match t.nonNull with
  | array _ _ => true
  | _ => false

end DataType

end WorkflowEngine.Document
