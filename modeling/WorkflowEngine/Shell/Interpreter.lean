import WorkflowEngine.Shell.Expansion
import WorkflowEngine.Shell.Grammar
import WorkflowEngine.Shell.Utilities

/-!
# Running a shell text

A simple command is a utility, or a command of the shell itself, with its redirections.  The status of
a command decides what follows it; commands that run apart leave the shell as it was, except for the
files.

* **`run`** — runs a command.
* **`execute`** — runs a text in a directory, as a process of its own.
-/

namespace WorkflowEngine.Shell

/-! ## Pieces of work -/

/-- Sets the status of the last command. -/
def finish (status : Nat) : Action Unit := modify fun s => { s with status, signalled := false }

/-- Complains, with a status. -/
def refuse (text : String) (status : Nat) : Action Unit := do
  modify fun s => s.complain ("sh: 1: " ++ text)
  finish status

/-- Calls a utility. -/
def call (utility : Utility) (args : List String) : Action Unit := do
  let (status, s) := utility args (← get)
  set s
  finish status

/-- Does some work apart from the shell. -/
def apart (body : Action Unit) : Action Unit := do
  let outer ← get
  let (result, inner) := body.run outer
  set (outer.leave inner)
  match result with
  | .ok () => pure ()
  | .error (.exit status) => finish status
  | .error stop => throw stop

/-- Does some work apart from the shell and gives back its output. -/
def gathered (body : Action Unit) : Action Text.Bytes := do
  let (index, s) := (← get).addPool
  set s
  apart do
    modify fun s => s.connect 1 (.pool index)
    body
  return (← get).pools.getD index []

/-- Sends the output of some work to other work. -/
def piped (source sink : Action Unit) : Action Unit := do
  let bytes ← gathered source
  let (channel, s) := (← get).addSource bytes
  set s
  apart do
    modify fun s => s.connect 0 channel
    sink

/-- The output of some work as it stands in a word. -/
def substituted (body : Action Unit) : Action String := do
  let text := Text.decodeLossy (← gathered body)
  return String.ofList (text.toList.reverse.dropWhile (· = '\n')).reverse

/-- Runs a text with a way of running commands. -/
def runText (again : Command → Action Unit) (text : String) : Action Unit :=
  match parse? text with
  | some command => again command
  | none => do
    refuse "Syntax error" 2
    throw (.exit 2)

/-! ## Redirections -/

/-- Carries out a redirection, or tells why it cannot be. -/
def redirect (substitute : String → Action String) (r : Redirection) : Action (Option String) := do
  let target ← textOf substitute r.target
  let s ← get
  let opened : Except String (Channel × Session) :=
    match r.direction with
    | .duplicate =>
      if target = "-" then .ok (.nowhere, s)
      else
        match target.toNat? with
        | some n => .ok (s.channel n, s)
        | none => .error "Bad fd number"
    | .input => s.openFile target false false
    | .output => s.openFile target true false
    | .append => s.openFile target true true
  match opened with
  | .ok (channel, s) =>
    set (s.connect r.stream channel)
    return none
  | .error reason => return some reason

/-- Carries out redirections up to the first that cannot be. -/
def redirectAll (substitute : String → Action String) : List Redirection → Action (Option String)
  | [] => pure none
  | r :: rest => do
    match ← redirect substitute r with
    | none => redirectAll substitute rest
    | some reason => return some reason

/-- Does some work under redirections. -/
def redirected (substitute : String → Action String) (rs : List Redirection)
    (body : Action Unit) : Action Unit := do
  let channels := (← get).channels
  match ← redirectAll substitute rs with
  | none => body
  | some reason => refuse reason 2
  modify fun s => { s with channels }

/-! ## Commands of the shell -/

/-- A name and a value that are written with an equals sign between them. -/
def definition? (text : String) : Option (String × String) :=
  let cs := text.toList
  let name := cs.takeWhile isNameChar
  match cs.drop name.length with
  | '=' :: value =>
    if name.head?.any isNameStart then some (String.ofList name, String.ofList value) else none
  | _ => none

/-- Goes to another directory. -/
def changeDirectory (args : List String) : Action Unit := do
  let s ← get
  let target := args.headD ((s.value? "HOME").getD "")
  let refusal := refuse ("cd: can't cd to " ++ target) 2
  match s.files.locate target with
  | .error _ => refusal
  | .ok place =>
    if s.files.isDirectoryAt place then
      set { s with files := { s.files with current := place } }
      modify fun s => s.assignExported "PWD" (Place.path place)
      finish 0
    else refusal

/-- Lets commands see variables. -/
def exportAll (args : List String) : Action Unit := do
  for arg in args do
    modify fun s =>
      match definition? arg with
      | some (name, value) => s.assignExported name value
      | none => s.assignExported arg ((s.value? arg).getD "")
  finish 0

/-- Reads a line into variables; the last one gets what is left of it. -/
def readLine (args : List String) : Action Unit := do
  let (bytes, s) := (← get).take
  let line := bytes.takeWhile (· ≠ 10)
  let rest := bytes.drop (line.length + 1)
  let sources := match s.channel 0 with
    | .source index => s.sources.set index rest
    | _ => s.sources
  let words := ((Text.decodeLossy line).toList.splitOnP isFieldBlank).filter (· ≠ [])
  let texts := words.map String.ofList
  let names := args.filter (· ≠ "-r")
  let values := names.zipIdx.map fun (name, i) =>
    (name, if i + 1 < names.length then (texts[i]?).getD "" else " ".intercalate (texts.drop i))
  set (values.foldl (fun s (name, value) => s.assign name value) { s with sources })
  finish (if line.length < bytes.length then 0 else 1)

/-- The number of a signal. -/
def signalNumber? (name : String) : Option Nat :=
  match name with
  | "HUP" => some 1
  | "INT" => some 2
  | "QUIT" => some 3
  | "ABRT" => some 6
  | "KILL" => some 9
  | "SEGV" => some 11
  | "PIPE" => some 13
  | "TERM" => some 15
  | other => other.toNat?

/-- The signal and the processes that are named. -/
def killTarget? (args : List String) : Option (Nat × List String) :=
  match args with
  | "-s" :: name :: rest => (signalNumber? name).map fun n => (n, rest)
  | arg :: rest =>
    match arg.toList with
    | '-' :: cs => (signalNumber? (String.ofList cs)).map fun n => (n, rest)
    | _ => some (15, arg :: rest)
  | [] => none

/-- The number of the first process. -/
def firstNumber : Nat := 1000

/-- Sends a signal to a shell that is running. -/
def kill (args : List String) : Action Unit := do
  match killTarget? args with
  | some (signal, target :: _) =>
    match target.toNat? with
    | some n =>
      if firstNumber ≤ n ∧ n ≤ (← get).number then
        if signal = 0 then finish 0 else throw (.killed n signal)
      else refuse "kill: No such process\n" 1
    | none => refuse ("kill: Illegal number: " ++ target) 2
  | _ => refuse "kill: Usage: kill [-s sigspec | -signum | -sigspec] [pid | job]..." 2

/-- Ends the shell. -/
def exitShell (args : List String) : Action Unit := do
  match args with
  | [] => throw (.exit (← get).status)
  | arg :: _ =>
    match arg.toNat? with
    | some n => throw (.exit (n % 256))
    | none =>
      refuse ("exit: Illegal number: " ++ arg) 2
      throw (.exit 2)

/-- Runs a shell within the shell, on a text with arguments. -/
def innerShell (again : Command → Action Unit) (text : String) (arguments : List String) :
    Action Unit := do
  let outer ← get
  let bindings := outer.bindings.filter fun (_, v) => v.exported
  let number := outer.number + 1
  let (result, inner) :=
    (runText again text).run { outer with bindings, arguments, number, status := 0 }
  set (outer.leave inner)
  match result with
  | .ok () => modify fun s => { s with signalled := false }
  | .error (.exit status) => finish status
  | .error (.killed n signal) =>
    if n = number then modify fun s => { s with status := 128 + signal, signalled := true }
    else throw (.killed n signal)

/-- Calls a shell. -/
def callShell (again : Command → Action Unit) : List String → Action Unit
  | [] => do
    let (bytes, s) := (← get).take
    set s
    innerShell again (Text.decodeLossy bytes) ["sh"]
  | arg :: rest => do
    match arg.toList with
    | '-' :: letters =>
      if letters.contains 'c' then
        match rest with
        | text :: names => innerShell again text (if names.isEmpty then ["sh"] else names)
        | [] => refuse "-c requires an argument" 2
      else callShell again rest
    | _ =>
      match (← get).files.read arg with
      | .ok bytes => innerShell again (Text.decodeLossy bytes) (arg :: rest)
      | .error e => refuse ("cannot open " ++ arg ++ ": " ++ Session.refusal e false) 2

/-- The names under which a shell is called. -/
def shellNames : List String := ["sh", "dash", "bash"]

/-- Does what a command says that is no utility, or tells that there is no such command. -/
def callOther (again : Command → Action Unit) (name : String) (args : List String) :
    Action Unit := do
  let s ← get
  if shellNames.contains (utilityName name) then callShell again args
  else if !name.toList.contains '/' then refuse (name ++ ": not found") 127
  else if s.files.exists? name then refuse (name ++ ": Permission denied") 126
  else refuse (name ++ ": not found") 127

/-- Calls a command by name; `deep` runs one that is itself named among the arguments. -/
def invoke (again : Command → Action Unit) (deep : List String → Action Unit) :
    List String → Action Unit
  | [] => finish 0
  | name :: args =>
    match name with
    | "exit" => exitShell args
    | "cd" => changeDirectory args
    | "pwd" => do
      let line := Place.path (← get).files.current ++ "\n"
      call (fun _ s => (0, s.say line)) []
    | "export" => exportAll args
    | "unset" => do
      modify fun s => { s with bindings := args.foldl OrderedMap.erase s.bindings }
      finish 0
    | "shift" => do
      modify fun s =>
        { s with arguments := s.arguments.take 1 ++ s.arguments.drop 2 }
      finish 0
    | "set" => do
      match args with
      | "--" :: rest => modify fun s => { s with arguments := s.arguments.take 1 ++ rest }
      | _ => pure ()
      finish 0
    | "read" => readLine args
    | "kill" => kill args
    | "eval" => runText again (" ".intercalate args)
    | "exec" => do
      deep args
      throw (.exit (← get).status)
    | "command" => deep args
    | "env" => do
      let definitions := args.takeWhile fun a => (definition? a).isSome
      match args.drop definitions.length with
      | [] => call (fun _ s => (0, s.say (unlines
          (s.environment.map fun (n, v) => n ++ "=" ++ v)))) []
      | rest => do
        let bindings := (← get).bindings
        exportAll definitions
        deep rest
        modify fun s => { s with bindings }
    | name =>
      match utility? name with
      | some utility => call utility args
      | none => callOther again name args

/-! ## Commands -/

/-- The variable that a word in front of a command sets. -/
def assignment? : Word → Option (String × Word)
  | .text cs false :: rest =>
    let name := cs.takeWhile isNameChar
    match cs.drop name.length with
    | '=' :: value =>
      if name.head?.any isNameStart then some (String.ofList name, .text value false :: rest)
      else none
    | _ => none
  | _ => none

/-- Whether a word holds a command. -/
def hasCommand (w : Word) : Bool :=
  w.any fun
    | .command _ _ => true
    | _ => false

/-- Runs a simple command. -/
def runSimple (again : Command → Action Unit) (depth : Nat) (words : List Word)
    (rs : List Redirection) : Action Unit := do
  let substitute := fun source => substituted (runText again source)
  let settings := words.takeWhile fun w => (assignment? w).isSome
  let fields := (← (words.drop settings.length).mapM (fieldsOf substitute)).flatten
  let values ← (settings.filterMap assignment?).mapM fun (name, w) => do
    return (name, ← textOf substitute w)
  let rec deep : Nat → List String → Action Unit
    | 0, _ => throw (.exit 2)
    | n + 1, fields => invoke again (deep n) fields
  if fields.isEmpty then
    if !words.any hasCommand then finish 0
    redirected substitute rs do
      modify fun s => values.foldl (fun s (name, value) => s.assign name value) s
  else
    let bindings := (← get).bindings
    redirected substitute rs do
      modify fun s => values.foldl (fun s (name, value) => s.assignExported name value) s
      deep depth fields
    if !values.isEmpty then modify fun s => { s with bindings }

/-- Whether the last command went well. -/
def succeeded : Action Bool := do return (← get).status = 0

/-- Runs a command, at most `fuel` commands deep. -/
def run : Nat → Command → Action Unit
  | 0, _ => throw (.exit 2)
  | fuel + 1, command => do
    let again := run fuel
    match command with
    | .nothing => pure ()
    | .simple words rs => runSimple again (fuel + 1) words rs
    | .group false body rs => redirected (fun t => substituted (runText again t)) rs (again body)
    | .group true body rs =>
      redirected (fun t => substituted (runText again t)) rs (apart (again body))
    | .pipe source sink => piped (again source) (again sink)
    | .negated body =>
      again body
      finish (if ← succeeded then 1 else 0)
    | .both first second =>
      again first
      if ← succeeded then again second
    | .either first second =>
      again first
      if !(← succeeded) then again second
    | .sequence first second =>
      again first
      again second
    | .branch condition first second =>
      again condition
      if ← succeeded then again first
      else
        finish 0
        again second
    | .each name words body =>
      let fields := (← words.mapM
        (fieldsOf fun t => substituted (runText again t))).flatten
      finish 0
      for field in fields do
        modify fun s => s.assign name field
        again body
    | .loop wanted condition body =>
      again condition
      if (← succeeded) = wanted then
        again body
        again (.loop wanted condition body)
      else finish 0

/-! ## Processes -/

/-- The depth to which commands are run. -/
def depth : Nat := 2000

/-- The search path of the utilities, which every process sees. -/
def searchPath : String := "/usr/local/sbin:/usr/local/bin:/usr/sbin:/usr/bin:/sbin:/bin"

/-- A shell at the start of a process. -/
def Session.start (files : FileTree) (directory : Place) (environment : List (String × String)) :
    Session :=
  let plain : Session := {
    files := { files with current := directory }
    bindings := [("PATH", ⟨searchPath, true⟩), ("PWD", ⟨Place.path directory, true⟩)]
    arguments := ["sh"]
    channels := []
    sources := []
    pools := []
    status := 0
    signalled := false
    elapsed := 0
    number := firstNumber }
  environment.foldl (fun s (name, value) => s.assignExported name value) plain

/-- How a process has ended that ran a text.  A text of one command is as good as that command: a
signal that ends the one ends the other. -/
def exitOf (text : String) (result : Except Stop Unit) (s : Session) : Exit :=
  let alone := match parse? text with
    | some (.simple _ _) => true
    | _ => false
  match result with
  | .ok () => if s.signalled && alone then .signal else .code s.status
  | .error (.exit status) => .code status
  | .error (.killed _ _) => .signal

/-- Runs a text as a process in a directory: the files afterwards, the time it takes in nanoseconds,
and how it ends. -/
def execute (text directory : String) (environment : List (String × String)) (files : FileTree) :
    Except FileError (FileTree × Nat × Exit) := do
  let place ← files.locate directory
  let (result, s) := (runText (run depth) text).run (Session.start files place environment)
  return ({ s.files with current := files.current }, s.elapsed, exitOf text result s)

end WorkflowEngine.Shell
