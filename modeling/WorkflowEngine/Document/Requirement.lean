import WorkflowEngine.Document.Entries
import WorkflowEngine.Document.Ident

/-!
# Requirements and hints

A process or a step states what it needs as a list of objects with a class, or as a map from classes
to objects.  A class that the engine does not act on is kept by its name.

* **`Requirement`**, **`WorkDirEntry`** — the requirements, and the files to be put into a working
  directory.
* **`Requirement.ofJson`**, **`Requirement.listOfJson`** — reading.
* **`Requirement.merge`** — own requirements before inherited ones.
-/

namespace WorkflowEngine.Document

/-- What is put into a working directory before a tool runs. -/
inductive WorkDirEntry where
  /-- An expression that gives a file or an array of files. -/
  | expression (source : String)
  /-- A text or a file with a name. -/
  | named (source : String) (name : Option String) (writable : Bool)
  /-- A file or directory given in full. -/
  | literal (json : Json)
  deriving Inhabited

/-- Limits on the resources of a tool, each a number or an expression. -/
structure ResourceLimits where
  coresMin : Option Json
  coresMax : Option Json
  ramMin : Option Json
  ramMax : Option Json
  deriving Inhabited

/-- A requirement or a hint. -/
inductive Requirement where
  | inlineJavascript (library : List String)
  | initialWorkDir (listing : List WorkDirEntry)
  | docker (pull : Option String)
  | envVar (definitions : List (String × String))
  | resource (limits : ResourceLimits)
  | shellCommand
  | unhandled (className : String)
  deriving Inhabited

/-- The class of a requirement. -/
def Requirement.className : Requirement → String
  | .inlineJavascript _ => "InlineJavascriptRequirement"
  | .initialWorkDir _ => "InitialWorkDirRequirement"
  | .docker _ => "DockerRequirement"
  | .envVar _ => "EnvVarRequirement"
  | .resource _ => "ResourceRequirement"
  | .shellCommand => "ShellCommandRequirement"
  | .unhandled className => className

/-- Reads an entry of a working directory. -/
def WorkDirEntry.ofJson (json : Json) : Outcome WorkDirEntry :=
  match json with
  | .str source => .ok (.expression source)
  | .obj _ =>
    match json.field? "entry" with
    | some entry =>
      let source := match entry with
        | .str s => s
        | other => other.text
      .ok (.named source (optionalString json "entryname")
        (((json.field? "writable").bind Json.bool?).getD false))
    | none => .ok (.literal json)
  | other => malformed ("invalid InitialWorkDirRequirement listing entry: " ++ other.text)

/-- The variables that an environment requirement sets; incomplete ones are left out. -/
def environmentOf (json : Option Json) : List (String × String) :=
  match json with
  | some (.arr items) =>
    items.filterMap fun item => do
      let name ← optionalString item "envName"
      let value ← optionalString item "envValue"
      return (name, value)
  | some (.obj members) =>
    members.filterMap fun (name, value) => do
      match value with
      | .str s => return (name, s)
      | .obj _ => return (name, ← optionalString value "envValue")
      | _ => none
  | _ => []

/-- Reads a requirement.  Its class may carry an address up to its last `#`. -/
def Requirement.ofJson (json : Json) : Outcome Requirement := do
  let full ← match json.field? "class" with
    | some (.str s) => pure s
    | _ => malformed ("requirement without class: " ++ json.text)
  match String.ofList (Ident.afterLast '#' full.toList) with
  | "InlineJavascriptRequirement" =>
    return .inlineJavascript (strings (json.field? "expressionLib"))
  | "InitialWorkDirRequirement" =>
    match json.field? "listing" with
    | some (.arr items) => return .initialWorkDir (← items.mapM WorkDirEntry.ofJson)
    | some (.str source) => return .initialWorkDir [.expression source]
    | _ => return .initialWorkDir []
  | "DockerRequirement" => return .docker (optionalString json "dockerPull")
  | "EnvVarRequirement" => return .envVar (environmentOf (json.field? "envDef"))
  | "ResourceRequirement" =>
    return .resource ⟨json.field? "coresMin", json.field? "coresMax", json.field? "ramMin",
      json.field? "ramMax"⟩
  | "ShellCommandRequirement" => return .shellCommand
  | other => return .unhandled other

/-- A body of the map form with its class. -/
def withClass (className : String) (body : Json) : Json :=
  match body with
  | .obj members => .obj (OrderedMap.insert members "class" (.str className))
  | other => other

/-- Reads a list or a map of requirements. -/
def Requirement.listOfJson (json : Option Json) : Outcome (List Requirement) :=
  match json with
  | none => .ok []
  | some .null => .ok []
  | some (.arr items) => items.mapM ofJson
  | some (.obj members) =>
    members.mapM fun (className, body) => ofJson (withClass className body)
  | some other => malformed ("invalid requirements: " ++ other.text)

/-- Adds a requirement unless one of its class is there. -/
def Requirement.addMissing (known : List Requirement) (r : Requirement) : List Requirement :=
  if known.any fun k => k.className = r.className then known else known ++ [r]

/-- Own requirements, and behind them the inherited ones whose class is not there yet. -/
def Requirement.merge (own inherited : List Requirement) : List Requirement :=
  inherited.foldl addMissing own

/-- The first requirement of a class, hints after requirements. -/
def Requirement.find? (requirements hints : List Requirement) (className : String) :
    Option Requirement :=
  (requirements ++ hints).find? fun r => r.className = className

end WorkflowEngine.Document
