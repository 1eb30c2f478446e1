/-!
# What the program is asked to do

The program has one command, `run`, with two files and some options.  Arguments are read from left to
right, and the first that cannot be read decides; a request for help that comes before it is granted.

* **`Invocation`** — a run that is asked for.
* **`UsageFault`** — why arguments cannot be read.
* **`Request.ofArguments`** — what some arguments ask for.
-/

namespace WorkflowEngine.Program

/-- Where tools run. -/
inductive Host where
  | here
  | containers
  deriving Repr, DecidableEq, Inhabited

/-- The host with a name. -/
def Host.ofName? (name : String) : Option Host :=
  match name with
  | "local" => some .here
  | "docker" => some .containers
  | _ => none

/-- An option of `run`. -/
inductive Setting where
  | workDirectory
  | configuration
  | host
  | logTree
  deriving Repr, DecidableEq, Inhabited

/-- The option with a long name. -/
def Setting.ofLong? (name : String) : Option Setting :=
  match name with
  | "work-dir" => some .workDirectory
  | "config" => some .configuration
  | "executor" => some .host
  | "log-tree" => some .logTree
  | _ => none

/-- The option with a letter. -/
def Setting.ofLetter? (c : Char) : Option Setting :=
  match c with
  | 'w' => some .workDirectory
  | 'c' => some .configuration
  | 'e' => some .host
  | _ => none

/-- An option as it is written about. -/
def Setting.shown : Setting → String
  | .workDirectory => "--work-dir <WORK_DIR>"
  | .configuration => "--config <CONFIG>"
  | .host => "--executor <EXECUTOR>"
  | .logTree => "--log-tree <LOG_TREE>"

/-- A run that is asked for. -/
structure Invocation where
  /-- The file of the document. -/
  packed : String
  /-- The file of the parameters. -/
  params : String
  workDirectory : Option String
  configuration : Option String
  host : Host
  logTree : Option String
  deriving Repr, DecidableEq, Inhabited

/-- Why arguments cannot be read. -/
inductive UsageFault where
  | noCommand
  | unknownCommand (name : String)
  | unexpected (argument : String)
  | repeated (setting : Setting)
  | noValue (place : String)
  | unknownHost (name : String)
  | missing (places : List String)
  deriving Repr, DecidableEq, Inhabited

/-- The message of a fault. -/
def UsageFault.message : UsageFault → String
  | .noCommand => "a command is required: run, help"
  | .unknownCommand name => "unrecognized subcommand '" ++ name ++ "'"
  | .unexpected argument => "unexpected argument '" ++ argument ++ "' found"
  | .repeated setting => "the argument '" ++ setting.shown ++ "' cannot be used multiple times"
  | .noValue place => "a value is required for '" ++ place ++ "' but none was supplied"
  | .unknownHost name =>
    "invalid value '" ++ name ++ "' for '--executor <EXECUTOR>' [possible values: local, docker]"
  | .missing places =>
    "the following required arguments were not provided: " ++ " ".intercalate places

/-- What some arguments ask for. -/
inductive Request where
  | help
  | run (invocation : Invocation)
  deriving Repr, DecidableEq, Inhabited

/-! ## Reading -/

/-- What has been read of the arguments of `run`. -/
structure Draft where
  files : List String
  settings : List (Setting × String)

namespace Draft

/-- The value of an option. -/
def value? (d : Draft) (setting : Setting) : Option String := List.lookup setting d.settings

/-- The names of the two files. -/
def filePlaces : List String := ["<PACKED>", "<PARAMS>"]

/-- Takes an argument as a file. -/
def addFile (d : Draft) (argument : String) : Except UsageFault Draft :=
  match filePlaces[d.files.length]? with
  | none => .error (.unexpected argument)
  | some place =>
    if argument = "" then .error (.noValue place)
    else .ok { d with files := d.files ++ [argument] }

/-- Takes the value of an option. -/
def addValue (d : Draft) (setting : Setting) (value : String) : Except UsageFault Draft :=
  if (d.value? setting).isSome then .error (.repeated setting)
  else if value = "" then .error (.noValue setting.shown)
  else if setting = .host ∧ Host.ofName? value = none then .error (.unknownHost value)
  else .ok { d with settings := d.settings ++ [(setting, value)] }

/-- The run that is asked for. -/
def finish (d : Draft) : Except UsageFault Request :=
  match d.files with
  | [packed, params] => .ok (.run {
      packed, params
      workDirectory := d.value? .workDirectory
      configuration := d.value? .configuration
      host := ((d.value? .host).bind Host.ofName?).getD .here
      logTree := d.value? .logTree })
  | files => .error (.missing (filePlaces.drop files.length))

end Draft

/-- What an argument is by its shape. -/
inductive Shape where
  | file
  /-- The mark behind which every argument is a file. -/
  | mark
  | help
  /-- An option with the value that is written onto it, if any. -/
  | setting (setting : Setting) (value : Option String)
  | unknown
  deriving Repr, DecidableEq, Inhabited

/-- The shape of an argument that opens with two hyphens and has these characters behind them. -/
def longShape (cs : List Char) : Shape :=
  let name := cs.takeWhile (· ≠ '=')
  let value := if name.length < cs.length then some (String.ofList (cs.drop (name.length + 1))) else none
  match String.ofList name, value with
  | "help", none => .help
  | name, value =>
    match Setting.ofLong? name with
    | some setting => .setting setting value
    | none => .unknown

/-- The shape of an argument that opens with one hyphen and has these characters behind it. -/
def shortShape (c : Char) (cs : List Char) : Shape :=
  if c = 'h' then .help
  else
    match Setting.ofLetter? c with
    | none => .unknown
    | some setting =>
      match cs with
      | [] => .setting setting none
      | '=' :: value => .setting setting (some (String.ofList value))
      | value => .setting setting (some (String.ofList value))

/-- The shape of an argument. -/
def shapeOf (argument : String) : Shape :=
  match argument.toList with
  | ['-', '-'] => .mark
  | '-' :: '-' :: cs => longShape cs
  | '-' :: c :: cs => shortShape c cs
  | _ => .file

/-- Reads the arguments of `run`. -/
def readRun (d : Draft) : List String → Except UsageFault Request
  | [] => d.finish
  | argument :: rest =>
    match shapeOf argument with
    | .file => do readRun (← d.addFile argument) rest
    | .mark => do (← rest.foldlM Draft.addFile d).finish
    | .help => .ok .help
    | .unknown => .error (.unexpected argument)
    | .setting setting (some value) => do readRun (← d.addValue setting value) rest
    | .setting setting none =>
      match rest with
      | value :: rest =>
        if shapeOf value = .file then do readRun (← d.addValue setting value) rest
        else .error (.noValue setting.shown)
      | [] => .error (.noValue setting.shown)

/-- What some arguments ask for. -/
def Request.ofArguments (arguments : List String) : Except UsageFault Request :=
  match arguments with
  | [] => .error .noCommand
  | "run" :: rest => readRun ⟨[], []⟩ rest
  | "help" :: rest =>
    match rest with
    | [] => .ok .help
    | ["run"] => .ok .help
    | ["help"] => .ok .help
    | name :: _ => .error (.unknownCommand name)
  | argument :: _ =>
    match shapeOf argument with
    | .help => .ok .help
    | .file => .error (.unknownCommand argument)
    | _ => .error (.unexpected argument)

end WorkflowEngine.Program
