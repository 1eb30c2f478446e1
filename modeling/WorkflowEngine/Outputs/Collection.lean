import WorkflowEngine.Binding.Inputs
import WorkflowEngine.Files.Glob
import WorkflowEngine.Files.TaskDirectory
import WorkflowEngine.Json.Parser

/-!
# Collection of outputs

The outputs of an expression are members of the object that it returns.  The outputs of a tool are
files of its working directory, found by patterns, then loaded, given to an expression and joined by
secondary files, and at last fitted to the declared type; or the tool reports them itself in a file.

* **`expressionOutputs`** — the outputs of an expression.
* **`toolOutputs`** — the outputs of a tool.
-/

namespace WorkflowEngine.Outputs

open Document (DataType Output Process)

/-! ## Expressions -/

/-- The value of an output that may be absent when its type allows null. -/
def reported (output : Output) (fields : OrderedMap Json) (absent : String) : Outcome Value :=
  match fields.find? output.id with
  | some json => .ok (Value.ofJson json)
  | none => if output.type.isOptional then .ok .null else .error (.output absent)

/-- The outputs of an expression that returned a value. -/
def expressionOutputs (process : Process) (result : Json) : Outcome Values :=
  match result with
  | .obj fields =>
    process.outputs.foldlM (fun (outputs : Values) output => do
      let absent := "expression of " ++ process.id ++ " did not return output '" ++ output.id ++ "'"
      return outputs.insert output.id (← reported output fields absent)) []
  | other =>
    .error (.output ("expression of " ++ process.id ++ " returned " ++ jsonTypeName other
      ++ ", expected an object"))

/-! ## Tools -/

/-- What the outputs of a tool are collected from. -/
structure Site where
  /-- What evaluates expressions. -/
  interpreter : Interpreter
  tree : FileTree
  config : Configuration
  /-- The working directory. -/
  directory : String
  /-- The files that hold the standard output and error. -/
  stdout : Option String
  stderr : Option String
  context : ExprContext
  deriving Inhabited

/-- The file in which a tool can report its outputs. -/
def reportName : String := "cwl.output.json"

/-- The failure of a pattern that is not a text. -/
def patternNotText (pattern : String) (found : Json) : Failure :=
  (ExprFault.notText pattern (jsonTypeName found)).toFailure

/-- The patterns that an expression stands for. -/
def globPatterns (site : Site) (expression : String) : Outcome (List String) := do
  match ← ExprFault.orFail (site.interpreter expression site.context) with
  | .str pattern => return [pattern]
  | .arr items => items.mapM fun
    | .str pattern => .ok pattern
    | other => .error (patternNotText expression other)
  | other => throw (patternNotText expression other)

/-- The file that captures a stream. -/
def captured (output : Output) (stream : String) (file : Option String) : Outcome String :=
  match file with
  | some file => .ok file
  | none =>
    .error (.output ("output '" ++ output.id ++ "' has type " ++ stream
      ++ " but the tool does not capture " ++ stream))

/-- The patterns of an output; nothing when it is optional and not bound to files. -/
def patternsOf (site : Site) (output : Output) : Outcome (Option (List String)) :=
  match output.type.nonNull, output.binding with
  | .stdout, _ => (captured output "stdout" site.stdout).map fun p => some [p]
  | .stderr, _ => (captured output "stderr" site.stderr).map fun p => some [p]
  | _, some binding => (binding.glob.mapM (globPatterns site)).map fun ps => some ps.flatten
  | _, none =>
    if output.type.isOptional then .ok none
    else .error (.output ("output '" ++ output.id ++ "' has no outputBinding"))

/-- Whether an output holds directories. -/
def wantsDirectories (type : DataType) : Bool :=
  match type.nonNull with
  | .directory => true
  | .array items _ =>
    match items.nonNull with
    | .directory => true
    | _ => false
  | _ => false

/-- The paths of a pattern seen from the working directory, in order. -/
def matchingPaths (site : Site) (directories : Bool) (pattern : String) : Outcome (List String) :=
  match Glob.glob site.tree (Path.join site.directory pattern) with
  | .error fault =>
    .error (.output ("invalid glob pattern '" ++ pattern ++ "': " ++ fault.message))
  | .ok paths =>
    let kept := paths.filter fun p =>
      if directories then site.tree.isDirectory p else site.tree.isFile p
    .ok (kept.mergeSort fun a b => Path.compare a b != .gt)

/-- The value of a path. -/
def foundValue (site : Site) (directories contents : Bool) (path : String) : Outcome Value :=
  if directories then .ok (.directory (.ofLocation path))
  else
    let file := FileValue.ofPath site.tree path
    if contents then
      (Files.readPrefix site.tree path site.config.contentsLimit .outputCollector).map fun text =>
        .file { file with contents := some text }
    else .ok (.file file)

/-- The values of all paths that some patterns stand for. -/
def findAll (site : Site) (directories contents : Bool) (patterns : List String) :
    Outcome (List Value) := do
  let paths ← patterns.mapM (matchingPaths site directories)
  paths.flatten.mapM (foundValue site directories contents)

/-! ### Secondary files -/

/-- The candidates that a pattern of secondary files names. -/
def secondaryCandidates (site : Site) (file : FileValue) (pattern : String) :
    Outcome (List Value) :=
  if Binding.isExpressionPattern pattern then do
    let context := site.context.withSelf (.file file)
    match ← ExprFault.orFail (evaluate site.interpreter pattern context) with
    | .array items => return items
    | .null => return []
    | single => return [single]
  else .ok [.str (Path.secondaryPath file.path pattern)]

/-- The path of a candidate. -/
def candidatePath (file : FileValue) (candidate : Value) : Outcome String :=
  match candidate with
  | .str name => .ok (Path.join file.dirname name)
  | .file secondary => .ok secondary.path
  | other =>
    .error (.output ("secondaryFiles expression for " ++ file.basename ++ " returned "
      ++ other.typeName))

/-- Adds a candidate to a file. -/
def addCandidate (site : Site) (file : FileValue) (candidate : Value) : Logged FileValue := do
  let path ← candidatePath file candidate
  if site.tree.exists? path then
    let secondary := (FileValue.ofPath site.tree path).toJson
    return { file with secondaryFiles := file.secondaryFiles ++ [secondary] }
  else
    Logged.warn ("secondary file " ++ path ++ " of " ++ file.path ++ " not found")
    return file

/-- Adds the secondary files of a pattern to a file. -/
def addSecondary (site : Site) (file : FileValue) (pattern : String) : Logged FileValue := do
  (← secondaryCandidates site file pattern).foldlM (addCandidate site) file

/-- Adds the secondary files of an output to a value that was found. -/
def withSecondary (site : Site) (output : Output) : Value → Logged Value
  | .file file => do return .file (← output.secondaryFiles.foldlM (addSecondary site) file)
  | other => return other

/-! ### Fitting -/

/-- Fits the values that were found to the type of an output. -/
def reconcile (output : Output) (found : List Value) : Outcome Value :=
  match output.type.nonNull with
  | .array _ _ => .ok (.array found)
  | .file => single output.type.isOptional
  | .stdout => single output.type.isOptional
  | .stderr => single output.type.isOptional
  | .directory => single output.type.isOptional
  | .any => single false
  | _ =>
    .error (.output ("output '" ++ output.id ++ "' of type " ++ output.type.display
      ++ " needs an outputEval"))
where
  /-- The one value that was found; null stands for none where that is allowed. -/
  single (optional : Bool) : Outcome Value :=
    match found with
    | [value] => .ok value
    | [] => if optional then .ok .null else wrongCount
    | _ => wrongCount
  /-- The failure of an output that does not match one file. -/
  wrongCount : Outcome Value :=
    .error (.output ("output '" ++ output.id ++ "' of type " ++ output.type.display ++ " matched "
      ++ toString found.length ++ " files, expected exactly one"))

/-- The value of an output's expression, given the values that were found. -/
def evaluated (site : Site) (output : Output) (found : List Value) (expression : String) :
    Outcome Value := do
  let self := if output.type.nonNull.isFile then found.head?.getD .null else .array found
  let value ← ExprFault.orFail (evaluate site.interpreter expression (site.context.withSelf self))
  if Binding.conforms value output.type then return value
  else
    throw (.output ("outputEval of '" ++ output.id ++ "' returned " ++ value.typeName
      ++ ", expected " ++ output.type.display))

/-- Collects an output. -/
def collect (site : Site) (output : Output) : Logged Value := do
  match ← patternsOf site output with
  | none => return .null
  | some patterns =>
    let directories := wantsDirectories output.type
    let contents := output.binding.elim false (·.loadContents)
    let found ← findAll site directories contents patterns
    match output.binding.bind (·.outputEval) with
    | some expression => evaluated site output found expression
    | none => reconcile output (← found.mapM (withSecondary site output))

/-! ### Reported outputs -/

/-- A reported file: one with a relative path is seen from the working directory. -/
def settle (site : Site) (file : FileValue) : FileValue :=
  if Path.isAbsolute file.path then file
  else
    let path := Path.join site.directory file.path
    { file.locate path with size := (site.tree.nodeAt path).toOption.map Node.size }

/-- The outputs that a report holds. -/
def reportedOutputs (site : Site) (process : Process) (report : String) : Outcome Values := do
  match Json.parse? (← Files.readText site.tree report) with
  | none => throw (.output ("invalid " ++ reportName))
  | some (.obj fields) =>
    process.outputs.foldlM (fun (outputs : Values) output => do
      let absent := reportName ++ " has no value for output '" ++ output.id ++ "'"
      let value ← reported output fields absent
      return outputs.insert output.id (value.mapFiles (settle site))) []
  | some _ => throw (.output (reportName ++ " must hold an object"))

/-- The outputs of a tool that has run. -/
def toolOutputs (site : Site) (process : Process) : Logged Values := do
  let report := Path.join site.directory reportName
  if site.tree.isFile report then reportedOutputs site process report
  else
    process.outputs.foldlM (fun (outputs : Values) output => do
      return outputs.insert output.id (← collect site output)) []

end WorkflowEngine.Outputs
