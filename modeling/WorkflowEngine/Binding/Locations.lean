import WorkflowEngine.Configuration.Basic
import WorkflowEngine.Value.Basic

/-!
# Locations of shared and user data

A location may name shared data by `COMMONS/` and a user's data by `USER/`; both stand for a
directory of the configuration.

* **`expandLocation`** — the location that such a name stands for.
* **`normalizeFiles`** — that expansion for all files of a value.
-/

namespace WorkflowEngine.Binding

/-- The rest of a text after an opening. -/
def afterOpening? (opening s : String) : Option String :=
  if opening.toList.isPrefixOf s.toList then
    some (String.ofList (s.toList.drop opening.toList.length))
  else none

/-- The location that a name stands for. -/
def expandLocation (config : Configuration) (location : String) : String :=
  match afterOpening? "COMMONS/" location with
  | some rest => Path.join config.commonsRoot rest
  | none =>
    match afterOpening? "USER/" location with
    | some rest => Path.join config.userRoot rest
    | none => location

/-- Expands the locations of all files of a value, and derives their names again. -/
def normalizeFiles (config : Configuration) (value : Value) : Value :=
  value.mapFiles fun file => file.locate (expandLocation config file.location)

end WorkflowEngine.Binding
