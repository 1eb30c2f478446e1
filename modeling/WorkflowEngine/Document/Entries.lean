import WorkflowEngine.Failure
import WorkflowEngine.Json.Printer

/-!
# Lists and maps of named entries

Inputs, outputs, steps and fields may be written as a list of objects that hold their name, or as a
map from names to objects.  A map may give a single field of an entry in place of the object, and a
list may give the bare name.

* **`entries`** — the names and bodies of such a list or map.
* **`strings`** — a string or a list of strings.
-/

namespace WorkflowEngine.Document

/-- A malformed document. -/
def malformed {α : Type} (message : String) : Outcome α :=
  .error (Failure.parse .document message)

/-- An entry of the list form. -/
def listEntry (keyField : String) (item : Json) : Outcome (String × Json) :=
  match item with
  | .str id => .ok (id, .obj [])
  | .obj _ =>
    match item.field? keyField with
    | some (.str id) => .ok (id, item)
    | _ => malformed ("entry without '" ++ keyField ++ "': " ++ item.text)
  | other => malformed ("invalid list entry: " ++ other.text)

/-- The body of an entry of the map form; what is not an object stands for a single field. -/
def mapBody (shorthand : String) (body : Json) : Json :=
  match body with
  | .obj members => .obj members
  | other => .obj [(shorthand, other)]

/-- The names and bodies of a list or map of entries. -/
def entries (json : Option Json) (keyField shorthand : String) : Outcome (List (String × Json)) :=
  match json with
  | none => .ok []
  | some .null => .ok []
  | some (.arr items) => items.mapM (listEntry keyField)
  | some (.obj members) => .ok (members.map fun (id, body) => (id, mapBody shorthand body))
  | some other => malformed ("expected a list or a map, found " ++ other.text)

/-- The strings of a string or of a list; what is not a string is left out. -/
def strings (json : Option Json) : List String :=
  match json with
  | some (.str s) => [s]
  | some (.arr items) => items.filterMap Json.str?
  | _ => []

/-- The text of a member that is a string. -/
def optionalString (json : Json) (key : String) : Option String := (json.field? key).bind Json.str?

end WorkflowEngine.Document
