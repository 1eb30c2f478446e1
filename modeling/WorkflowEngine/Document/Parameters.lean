import WorkflowEngine.Document.Entries
import WorkflowEngine.Document.Ident
import WorkflowEngine.Value.Basic

/-!
# Parameters of a run

* **`parametersOfJson`** — the values of a parameter object, by local name.
-/

namespace WorkflowEngine.Document

/-- Reads parameters: an object whose keys may be qualified, or null for none. -/
def parametersOfJson (json : Json) : Outcome Values :=
  match json with
  | .null => .ok []
  | .obj members =>
    .ok (OrderedMap.ofList (members.map fun (key, value) =>
      (Ident.localName key, Value.ofJson value)))
  | other => malformed ("parameters must be a JSON object, got " ++ other.text)

end WorkflowEngine.Document
