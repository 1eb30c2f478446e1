import WorkflowEngine.Document.Entries
import WorkflowEngine.Text.Quoted

/-!
# Bindings of parameters to the command line and to files

A binding is an object with known fields; unknown fields are passed over.  It may also be an array
that gives the fields by position, where missing ones take their default.  A field of the wrong type
makes the binding invalid, and the first such field in the order of the document is reported.

* **`InputBinding`** — how a value becomes words of the command line.
* **`OutputBinding`** — which files and what expression give an output.
* **`Argument`** — a word of the command line that belongs to no input.
* **`FieldFault`**, **`FieldFault.message`** — why a binding is invalid.
-/

namespace WorkflowEngine.Document

/-- How a value becomes words of the command line. -/
structure InputBinding where
  position : Int
  leader : Option String
  separate : Bool
  itemSeparator : Option String
  valueFrom : Option String
  shellQuote : Bool
  loadContents : Bool
  deriving Inhabited, DecidableEq, Repr

/-- The binding without any field. -/
def InputBinding.plain : InputBinding := ⟨0, none, true, none, none, true, false⟩

/-- Which files and what expression give an output. -/
structure OutputBinding where
  glob : List String
  loadContents : Bool
  outputEval : Option String
  deriving Inhabited, DecidableEq, Repr

/-- The binding without any field. -/
def OutputBinding.plain : OutputBinding := ⟨[], false, none⟩

/-- A word of the command line that belongs to no input: a literal text or a binding. -/
structure Argument where
  literal : Option String
  binding : InputBinding
  deriving Inhabited, DecidableEq, Repr

/-! ## Faults -/

/-- Why a binding is invalid. -/
inductive FieldFault where
  /-- A field has another type than expected. -/
  | wrongType (found : Json) (expected : String)
  /-- An integer is out of range. -/
  | wrongValue (found : Int) (expected : String)
  /-- An array has more items than the binding has fields. -/
  | tooLong (length : Nat)
  /-- A field is neither a string nor a list of strings. -/
  | notStrings

/-- How a value of the wrong type is described. -/
def describe : Json → String
  | .null => "null"
  | .bool b => "boolean " ++ mark (if b then "true" else "false")
  | .int n => "integer " ++ mark (toString n)
  | .float x => "floating point " ++ mark (Decimal.Layout.document.write x)
  | .str s => "string " ++ Text.quoted s
  | .arr _ => "sequence"
  | .obj _ => "map"
where
  /-- A text between backquotes. -/
  mark (s : String) : String :=
    String.ofList (Char.ofNat 96 :: (s.toList ++ [Char.ofNat 96]))

/-- The message of a fault. -/
def FieldFault.message : FieldFault → String
  | .wrongType found expected => "invalid type: " ++ describe found ++ ", expected " ++ expected
  | .wrongValue found expected =>
    "invalid value: " ++ describe (.int found) ++ ", expected " ++ expected
  | .tooLong n => "invalid length " ++ toString n ++ ", expected fewer elements in array"
  | .notStrings => "data did not match any variant of untagged enum OneOrMany"

/-- A reader of a field. -/
abbrev FieldReader (α : Type) := Json → Except FieldFault α

/-- Reads an integer of 64 bits. -/
def readInt : FieldReader Int
  | .int n => if fitsSigned n then .ok n else .error (.wrongValue n "i64")
  | other => .error (.wrongType other "i64")

/-- Reads a boolean. -/
def readBool : FieldReader Bool
  | .bool b => .ok b
  | other => .error (.wrongType other "a boolean")

/-- Reads a string or null. -/
def readOptionalText : FieldReader (Option String)
  | .null => .ok none
  | .str s => .ok (some s)
  | other => .error (.wrongType other "a string")

/-- Reads an expression; what is not a string stands for its JSON text. -/
def readExpression : FieldReader (Option String)
  | .null => .ok none
  | .str s => .ok (some s)
  | other => .ok (some other.text)

/-- Reads a string, a list of strings, or null. -/
def readStrings : FieldReader (List String)
  | .null => .ok []
  | .str s => .ok [s]
  | .arr items =>
    match items.mapM Json.str? with
    | some ss => .ok ss
    | none => .error .notStrings
  | _ => .error .notStrings

/-! ## Bindings from JSON -/

/-- The fields of an input binding, in the order of the positional form. -/
def InputBinding.fieldNames : List String :=
  ["position", "prefix", "separate", "itemSeparator", "valueFrom", "shellQuote", "loadContents"]

/-- Sets a field of an input binding. -/
def InputBinding.setField (b : InputBinding) (name : String) (json : Json) :
    Except FieldFault InputBinding :=
  match name with
  | "position" => (readInt json).map fun x => { b with position := x }
  | "prefix" => (readOptionalText json).map fun x => { b with leader := x }
  | "separate" => (readBool json).map fun x => { b with separate := x }
  | "itemSeparator" => (readOptionalText json).map fun x => { b with itemSeparator := x }
  | "valueFrom" => (readExpression json).map fun x => { b with valueFrom := x }
  | "shellQuote" => (readBool json).map fun x => { b with shellQuote := x }
  | "loadContents" => (readBool json).map fun x => { b with loadContents := x }
  | _ => .ok b

/-- The fields of an output binding, in the order of the positional form. -/
def OutputBinding.fieldNames : List String := ["glob", "loadContents", "outputEval"]

/-- Sets a field of an output binding. -/
def OutputBinding.setField (b : OutputBinding) (name : String) (json : Json) :
    Except FieldFault OutputBinding :=
  match name with
  | "glob" => (readStrings json).map fun x => { b with glob := x }
  | "loadContents" => (readBool json).map fun x => { b with loadContents := x }
  | "outputEval" => (readOptionalText json).map fun x => { b with outputEval := x }
  | _ => .ok b

/-- Reads a binding from its fields, by name or by position. -/
def readFields {β : Type} (start : β) (names : List String)
    (setField : β → String → Json → Except FieldFault β) (expected : String) (json : Json) :
    Except FieldFault β :=
  match json with
  | .obj members => members.foldlM (fun b (name, value) => setField b name value) start
  | .arr items => do
    let b ← (names.zip items).foldlM (fun b (name, value) => setField b name value) start
    if names.length < items.length then throw (.tooLong items.length)
    return b
  | other => .error (.wrongType other expected)

/-- Reads an input binding. -/
def InputBinding.ofJson (json : Json) : Outcome InputBinding :=
  match readFields plain fieldNames setField "struct CommandLineBinding" json with
  | .ok b => .ok b
  | .error fault => malformed ("invalid inputBinding: " ++ fault.message)

/-- Reads an output binding. -/
def OutputBinding.ofJson (json : Json) : Outcome OutputBinding :=
  match readFields plain fieldNames setField "struct OutputBinding" json with
  | .ok b => .ok b
  | .error fault => malformed ("invalid outputBinding: " ++ fault.message)

/-- Reads an argument: a text or a binding. -/
def Argument.ofJson (json : Json) : Outcome Argument :=
  match json with
  | .str s => .ok ⟨some s, .plain⟩
  | .obj _ => (InputBinding.ofJson json).map fun b => ⟨none, b⟩
  | other => malformed ("invalid argument: " ++ other.text)

/-- Reads a member with a reader, if the member is there. -/
def readMember? {α : Type} (reader : Json → Outcome α) (json : Json) (key : String) :
    Outcome (Option α) :=
  match json.field? key with
  | none => .ok none
  | some value => (reader value).map some

end WorkflowEngine.Document
