import WorkflowEngine.CommandLine.Quoting
import WorkflowEngine.Document.Process
import WorkflowEngine.Expression

/-!
# Command lines

A command line is the base command, then a fragment for each argument and for each input that has a
binding, then the files that the standard streams go to.  Fragments stand in order of their
positions; of equal positions arguments come first, in the order of their declaration, and then
inputs, in order of their ids.

* **`Rendering`** — how a value becomes words.
* **`Fragment`** — the words of an argument or an input, with its place.
* **`Command`**, **`assemble`** — the command line of a tool.
* **`shellText`** — its text for a shell.
-/

namespace WorkflowEngine.CommandLine

open Document (Argument DataType Input InputBinding Process)

/-! ## Words of values -/

/-- The text of a value that is no container. -/
def wordOf (value : Value) : Outcome String :=
  match value with
  | .str s => .ok s
  | .int n => .ok (toString n)
  | .float x => .ok (Decimal.Layout.document.write x)
  | .bool b => .ok (if b then "true" else "false")
  | .file f => .ok (if f.path = "" then f.location else f.path)
  | .directory d => .ok (if d.path = "" then d.location else d.path)
  | other => .error (.notImplemented .commandAssembler
      ("cannot render " ++ other.typeName ++ " as a command line word"))

/-- A word, quoted unless the tool asks for a shell and the binding for no quoting. -/
def wordIn (shell : Bool) (binding : InputBinding) (word : String) : String :=
  if shell && !binding.shellQuote then word else quote word

/-- The leader of a binding as a word. -/
def leaderWords (shell : Bool) (binding : InputBinding) : List String :=
  binding.leader.toList.map (wordIn shell binding)

/-- A text behind the leader of its binding. -/
def led (shell : Bool) (binding : InputBinding) (text : String) : List String :=
  match binding.leader with
  | some leader =>
    if binding.separate then [wordIn shell binding leader, wordIn shell binding text]
    else [wordIn shell binding (leader ++ text)]
  | none => [wordIn shell binding text]

/-- The word of an item of an array whose items have no binding. -/
def itemWords (shell : Bool) (binding : InputBinding) (item : Value) : Outcome (List String) :=
  if item.isNull then .ok []
  else (wordOf item).map fun word => [wordIn shell binding word]

/-- The item type and item binding of a declared array. -/
def itemDeclaration (declared : Option DataType) : Option DataType × Option InputBinding :=
  match declared with
  | some (.array items binding) => (some items.nonNull, binding)
  | _ => (none, none)

mutual

/-- The words of a value. -/
def render (shell : Bool) (binding : InputBinding) (declared : Option DataType) :
    Value → Outcome (List String)
  | .null => .ok []
  | .bool b => .ok (if b then leaderWords shell binding else [])
  | .array items =>
    if items.isEmpty then .ok []
    else
      match binding.itemSeparator with
      | some separator => do
        return led shell binding (separator.intercalate (← items.mapM wordOf))
      | none => do
        match itemDeclaration declared with
        | (type, some nested) =>
          return leaderWords shell binding ++ (← renderItems shell nested type items)
        | (_, none) =>
          return leaderWords shell binding ++ (← items.mapM (itemWords shell binding)).flatten
  | .record _ =>
    .error (.notImplemented .commandAssembler
      "record values cannot be bound to the command line")
  | .int n => (wordOf (.int n)).map (led shell binding)
  | .float x => (wordOf (.float x)).map (led shell binding)
  | .str s => (wordOf (.str s)).map (led shell binding)
  | .file f => (wordOf (.file f)).map (led shell binding)
  | .directory d => (wordOf (.directory d)).map (led shell binding)

/-- The words of the items of an array, each under the same binding. -/
def renderItems (shell : Bool) (binding : InputBinding) (declared : Option DataType) :
    List Value → Outcome (List String)
  | [] => .ok []
  | item :: rest => do
    let words ← render shell binding declared item
    return words ++ (← renderItems shell binding declared rest)

end

/-! ## Fragments -/

/-- Where a fragment comes from. -/
inductive Source where
  /-- An argument, by its index. -/
  | argument (index : Nat)
  /-- An input, by its id. -/
  | input (id : String)
  deriving Repr, DecidableEq, Inhabited

/-- The words of an argument or an input. -/
structure Fragment where
  position : Int
  source : Source
  words : List String
  deriving Inhabited

/-- Order of sources: arguments by index, then inputs by id. -/
def Source.le : Source → Source → Bool
  | .argument i, .argument j => i ≤ j
  | .argument _, .input _ => true
  | .input _, .argument _ => false
  | .input a, .input b => a ≤ b

/-- Order of fragments. -/
def Fragment.le (a b : Fragment) : Bool :=
  a.position < b.position || (a.position = b.position && a.source.le b.source)

/-- The fragment of an argument. -/
def argumentFragment (interpreter : Interpreter) (shell : Bool) (context : ExprContext) (index : Nat)
    (argument : Argument) : Outcome Fragment := do
  let value ← match argument.literal.or argument.binding.valueFrom with
    | some expression => ExprFault.orFail (evaluate interpreter expression context)
    | none => pure .null
  let words ← render shell argument.binding none value
  return ⟨argument.binding.position, .argument index, words⟩

/-- The fragments of the arguments, counted from `index`. -/
def argumentFragments (interpreter : Interpreter) (shell : Bool) (context : ExprContext) :
    Nat → List Argument → Outcome (List Fragment)
  | _, [] => .ok []
  | index, argument :: rest => do
    let fragment ← argumentFragment interpreter shell context index argument
    return fragment :: (← argumentFragments interpreter shell context (index + 1) rest)

/-- The fragment of an input, if it has a binding. -/
def inputFragment? (shell : Bool) (provided : Values) (input : Input) :
    Outcome (Option Fragment) :=
  match input.binding with
  | none => .ok none
  | some binding => do
    let value := (provided.find? input.id).getD .null
    let words ← render shell binding (some input.type.nonNull) value
    return some ⟨binding.position, .input input.id, words⟩

/-- The fragments of the inputs. -/
def inputFragments (shell : Bool) (provided : Values) (inputs : List Input) :
    Outcome (List Fragment) := do
  return (← inputs.mapM (inputFragment? shell provided)).filterMap id

/-! ## Streams -/

/-- The file that an expression names for the standard input. -/
def inputFile (interpreter : Interpreter) (context : ExprContext) (expression : String) :
    Outcome String := do
  match ← ExprFault.orFail (evaluate interpreter expression context) with
  | .str path => return path
  | .file file => return file.path
  | other =>
    throw (.eval .commandAssembler
      ("stdin must be a string or File, got " ++ other.typeName))

/-- The streams that a tool's output can be captured from. -/
inductive Stream where
  | stdout
  | stderr
  deriving Repr, DecidableEq, Inhabited

/-- The name of a stream. -/
def Stream.name : Stream → String
  | .stdout => "stdout"
  | .stderr => "stderr"

/-- Whether a type stands for the file that a stream is captured in. -/
def Stream.isTypeOf (stream : Stream) : DataType → Bool
  | .stdout => stream = .stdout
  | .stderr => stream = .stderr
  | _ => false

/-- The file that a stream is captured in: a given one, or one named for the process when an output
asks for it. -/
def captureFile (interpreter : Interpreter) (process : Process) (stream : Stream)
    (field : Option String) (context : ExprContext) : Outcome (Option String) :=
  match field with
  | some expression => (ExprFault.orFail (evaluateString interpreter expression context)).map some
  | none =>
    if process.outputs.any fun o => stream.isTypeOf o.type.nonNull then
      .ok (some (Ident.localName process.id ++ "." ++ stream.name))
    else .ok none

/-- The words that send a stream to a file. -/
def redirection (operator : String) (file : Option String) : List String :=
  match file with
  | some file => [operator, quote file]
  | none => []

/-! ## Commands -/

/-- The command line of a tool. -/
structure Command where
  words : List String
  /-- The file that the standard input is read from. -/
  stdin : Option String
  /-- The files that the standard output and error are captured in. -/
  stdout : Option String
  stderr : Option String
  deriving Inhabited, Repr, DecidableEq

/-- Assembles the command line of a tool. -/
def assemble (interpreter : Interpreter) (process : Process) (line : Document.CommandLine)
    (provided : Values) (context : ExprContext) (shell : Bool) : Outcome Command := do
  let arguments ← argumentFragments interpreter shell context 0 line.arguments
  let inputs ← inputFragments shell provided process.inputs
  let fragments := (arguments ++ inputs).mergeSort Fragment.le
  let stdin ← line.stdin.mapM (inputFile interpreter context)
  let stdout ← captureFile interpreter process .stdout line.stdout context
  let stderr ← captureFile interpreter process .stderr line.stderr context
  return {
    words := line.baseCommand.map quote ++ fragments.flatMap (·.words)
      ++ redirection "1>>" stdout ++ redirection "2>>" stderr
    stdin, stdout, stderr }

/-- The text of a command line for a shell. -/
def shellText (words : List String) (stdin : Option String) : String :=
  " ".intercalate words ++ (match stdin with
    | some file => " < " ++ quote file
    | none => "")

end WorkflowEngine.CommandLine
