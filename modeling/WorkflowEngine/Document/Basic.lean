import WorkflowEngine.Document.Process
import WorkflowEngine.Json.Parser

/-!
# Documents

A packed document is a list of processes.  A step may hold the process it runs: such a process is
taken into the document in front of the one whose step it is, under its own id or under the id of
the step followed by `/run`.

* **`Document`** — a document.
* **`Document.ofJson`**, **`Document.ofText`** — reading.
* **`Document.process?`**, **`Document.mainProcess`** — look-up.
-/

namespace WorkflowEngine

open Document

/-- A document: its version and its processes, no two with the same id. -/
structure Document where
  version : String
  processes : List Process
  deriving Inhabited

namespace Document

/-! ## Parameters -/

/-- The patterns of secondary files; an object gives its `pattern`. -/
def secondaryPatterns (json : Option Json) : List String :=
  let items := match json with
    | some (.arr items) => items
    | some single => [single]
    | none => []
  items.filterMap fun
    | .str s => some s
    | .obj members => (OrderedMap.find? members "pattern").bind Json.str?
    | _ => none

/-- The type of a parameter; without one, any value fits. -/
def typeMember (body : Json) : Outcome DataType := do
  return (← readMember? DataType.ofJson body "type").getD .any

/-- Reads an input. -/
def Input.ofEntry (id : String) (body : Json) : Outcome Input := do
  let binding ← readMember? InputBinding.ofJson body "inputBinding"
  let own := ((body.field? "loadContents").bind Json.bool?).getD false
  let type ← typeMember body
  return {
    id := Ident.localName id
    type
    default := (body.field? "default").map Value.ofJson
    binding
    secondaryFiles := secondaryPatterns (body.field? "secondaryFiles")
    loadContents := own || binding.elim false (·.loadContents) }

/-- Reads the inputs of a process. -/
def inputsOf (json : Option Json) : Outcome (List Input) := do
  (← entries json "id" "type").mapM fun (id, body) => Input.ofEntry id body

/-- Reads an output of a process with an id. -/
def Output.ofEntry (scope id : String) (body : Json) : Outcome Output := do
  let binding ← readMember? OutputBinding.ofJson body "outputBinding"
  let type ← typeMember body
  return {
    id := Ident.localName id
    type
    binding
    secondaryFiles := secondaryPatterns (body.field? "secondaryFiles")
    sources := (strings (body.field? "outputSource")).map (Ident.qualify scope) }

/-- Reads the outputs of a process with an id. -/
def outputsOf (scope : String) (json : Option Json) : Outcome (List Output) := do
  (← entries json "id" "type").mapM fun (id, body) => Output.ofEntry scope id body

/-! ## Steps -/

/-- Reads an input of a step. -/
def StepInput.ofEntry (workflow id : String) (body : Json) : StepInput where
  id := Ident.localName id
  sources := (strings (body.field? "source")).map (Ident.qualify workflow)
  valueFrom := optionalString body "valueFrom"
  default := (body.field? "default").map Value.ofJson

/-- Reads the method of a scattered step. -/
def scatterMethodOf (stepId : String) (body : Json) : Outcome (Option ScatterMethod) :=
  match optionalString body "scatterMethod" with
  | none => .ok none
  | some name =>
    match ScatterMethod.ofName? (Ident.localName name) with
    | some m => .ok (some m)
    | none => malformed ("step '" ++ stepId ++ "': unknown scatterMethod '" ++ name ++ "'")

/-- Reads a step whose process is known. -/
def Step.ofEntry (workflow id run : String) (body : Json) : Outcome Step := do
  let inputs ← entries (body.field? "in") "id" "source"
  let outputs ← entries (body.field? "out") "id" "type"
  let scatterMethod ← scatterMethodOf id body
  let requirements ← Requirement.listOfJson (body.field? "requirements")
  let hints ← Requirement.listOfJson (body.field? "hints")
  return {
    id, run, scatterMethod, requirements, hints
    inputs := inputs.map fun (id, body) => StepInput.ofEntry workflow id body
    outputs := outputs.map fun (id, _) => Ident.localName id
    scatter := (strings (body.field? "scatter")).map Ident.localName }

/-! ## Processes -/

/-- Reads a command line. -/
def CommandLine.ofJson (json : Json) : Outcome CommandLine := do
  let arguments ← match json.field? "arguments" with
    | some (.arr items) => items.mapM Argument.ofJson
    | _ => pure []
  return {
    arguments
    baseCommand := strings (json.field? "baseCommand")
    stdin := optionalString json "stdin"
    stdout := optionalString json "stdout"
    stderr := optionalString json "stderr" }

/-- The id of a process: its own, or a given one. -/
def processId (json : Json) (fallback : Option String) : Outcome String :=
  match optionalString json "id", fallback with
  | some id, _ => .ok (Ident.normalize id)
  | none, some id => .ok id
  | none, none => malformed "process in '$graph' without 'id'"

/-- Reads a process whose body is known. -/
def Process.ofParts (json : Json) (id : String) (body : Body) : Outcome Process := do
  let inputs ← inputsOf (json.field? "inputs")
  let outputs ← outputsOf id (json.field? "outputs")
  let requirements ← Requirement.listOfJson (json.field? "requirements")
  let hints ← Requirement.listOfJson (json.field? "hints")
  return { id, body, inputs, outputs, requirements, hints }

/-- A reader of a process with a fallback for its id: the processes inside it, and the process. -/
abbrev ProcessReader := Json → Option String → Outcome (List Process × Process)

/-- Reads a step of a workflow, and the processes it holds. -/
def stepOf (inner : ProcessReader) (workflow rawId : String) (body : Json) :
    Outcome (List Process × Step) := do
  let id := Ident.qualify workflow rawId
  match body.field? "run" with
  | some (.str target) => return ([], ← Step.ofEntry workflow id (Ident.normalize target) body)
  | some (.obj members) =>
    let (held, process) ← inner (.obj members) (some (id ++ "/run"))
    return (held ++ [process], ← Step.ofEntry workflow id process.id body)
  | _ => malformed ("step '" ++ id ++ "' has no 'run'")

/-- Reads the steps of a workflow one after the other, and the processes they hold. -/
def stepsOf (inner : ProcessReader) (workflow : String) :
    List (String × Json) → Outcome (List Process × List Step)
  | [] => .ok ([], [])
  | (id, body) :: rest => do
    let (held, step) ← stepOf inner workflow id body
    let (more, steps) ← stepsOf inner workflow rest
    return (held ++ more, step :: steps)

/-- Reads what a process does, and the processes inside it. -/
def bodyOf (inner : ProcessReader) (id className : String) (json : Json) :
    Outcome (List Process × Body) := do
  match className with
  | "Workflow" =>
    let (held, steps) ← stepsOf inner id (← entries (json.field? "steps") "id" "type")
    return (held, .workflow steps)
  | "CommandLineTool" => return ([], .commandLineTool (← CommandLine.ofJson json))
  | "ExpressionTool" =>
    match optionalString json "expression" with
    | some e => return ([], .expressionTool e)
    | none => malformed ("ExpressionTool '" ++ id ++ "' has no 'expression'")
  | other =>
    throw (Failure.notImplemented .document
      ("process '" ++ id ++ "' has unsupported class '" ++ other ++ "'"))

/-- Reads a process with processes nested at most `fuel` deep. -/
def processUpTo : Nat → ProcessReader
  | 0, json, _ => malformed ("process must be an object: " ++ json.text)
  | fuel + 1, json, fallback =>
    match json with
    | .obj _ => do
      let id ← processId json fallback
      let className ← match optionalString json "class" with
        | some c => pure c
        | none => malformed ("process '" ++ id ++ "' has no 'class'")
      let (held, body) ← bodyOf (processUpTo fuel) id className json
      return (held, ← Process.ofParts json id body)
    | other => malformed ("process must be an object: " ++ other.text)

/-- Reads a process.  A nested process takes at least one level of the JSON value. -/
def processOf : ProcessReader := fun json fallback =>
  processUpTo (jsonHeight json) json fallback

/-! ## Documents -/

/-- Reads the processes of a graph. -/
def processesOf : List Json → Outcome (List Process)
  | [] => .ok []
  | json :: rest => do
    let (held, process) ← processOf json none
    return held ++ [process] ++ (← processesOf rest)

/-- The first id that occurs a second time. -/
def repeatedId? (known : List String) : List Process → Option String
  | [] => none
  | p :: rest => if known.contains p.id then some p.id else repeatedId? (known ++ [p.id]) rest

/-- Reads a document. -/
def ofJson (json : Json) : Outcome Document := do
  match json with
  | .obj _ => pure ()
  | _ => malformed "packed document must be a JSON object"
  let version ← match optionalString json "cwlVersion" with
    | some v => if v = "" then malformed "missing 'cwlVersion'" else pure v
    | none => malformed "missing 'cwlVersion'"
  let graph ← match json.field? "$graph" with
    | some (.arr items) => pure items
    | _ => malformed "missing '$graph' array"
  let processes ← processesOf graph
  match repeatedId? [] processes with
  | some id => malformed ("duplicate process id '" ++ id ++ "'")
  | none => return { version, processes }

/-- Reads a document from its text. -/
def ofText (text : String) : Outcome Document :=
  match Json.parse? text with
  | some json => ofJson json
  | none => malformed "invalid packed document"

/-- The process with an id. -/
def process? (document : Document) (id : String) : Option Process :=
  document.processes.find? fun p => p.id = Ident.normalize id

/-- The process that a run starts with. -/
def mainProcess (document : Document) : Outcome Process :=
  match document.process? "#main" with
  | some p => .ok p
  | none => .error (Failure.resolve .graphResolver "no '#main' process in the packed graph")

end Document

end WorkflowEngine
