import WorkflowEngine.Json.Parser
import WorkflowEngine.Script.Member

/-!
# JSON values inside scripts

* **`importJson`** — a JSON value as a value of a script.
* **`exportJson`** — a value of a script as JSON.  All own members are taken, hidden ones too, with
  positions before names; what is undefined or a gap becomes null.
-/

namespace WorkflowEngine.Script

mutual

/-- Brings a JSON value into memory. -/
def importJson : Json → Run Val
  | .null => return .null
  | .bool b => return .bool b
  | .int n => return .num (Number.ofInt n)
  | .float x => return .num x
  | .str s => return .str (Units.ofString s)
  | .arr items => do Run.arrayOf (← importItems items)
  | .obj members => do
    let props ← importMembers members
    Run.alloc { Obj.plain .object with props := props }

/-- Brings the items of an array into memory. -/
def importItems : List Json → Run (List Val)
  | [] => return []
  | item :: rest => do
    let v ← importJson item
    return v :: (← importItems rest)

/-- Brings the members of an object into memory. -/
def importMembers : List (String × Json) → Run (List (Units × Slot))
  | [] => return []
  | (key, json) :: rest => do
    let v ← importJson json
    return (Units.ofString key, ⟨v, false⟩) :: (← importMembers rest)

end

/-- Writes a value of a script as JSON, nested at most `fuel` deep. -/
def exportJson (m : Machine) : Nat → Val → Json
  | 0, _ => .null
  | fuel + 1, v =>
    match v with
    | .undefined => .null
    | .null => .null
    | .bool b => .bool b
    | .num x => if x.isFinite then .float x else .null
    | .str u => .str (Units.toString u)
    | .obj r =>
      match m.objects[r]? with
      | none => .null
      | some o =>
        if o.cls == .array then
          .arr (o.items.toList.map fun item => exportJson m fuel (item.getD .undefined))
        else
          let keys := o.keys true
          .obj (keys.map fun k =>
            (Units.toString k, exportJson m fuel ((o.own? k).getD .undefined)))
    | _ => .obj []

end WorkflowEngine.Script
