import WorkflowEngine.Files.TaskDirectory

/-!
# The state of a shell

A shell works on a tree of files.  Its streams lead to files, to the sources that input is taken from
and to the pools that output is gathered in; what is written to any other stream is lost.

* **`Channel`** — where a stream leads.
* **`Session`** — the state of a shell.
* **`Session.write`**, **`Session.take`** — output and input.
* **`Session.openFile`** — a redirection to a file.
* **`Stop`**, **`Action`** — what can end a shell, and what a shell does.
* **`Exit`** — how a process has ended.
-/

namespace WorkflowEngine.Shell

open Text (Bytes)

/-- Where a stream leads. -/
inductive Channel where
  | nowhere
  /-- Behind the end of a file. -/
  | file (place : Place)
  | source (index : Nat)
  | pool (index : Nat)
  deriving Repr, DecidableEq, Inhabited

/-- A variable of a shell. -/
structure Variable where
  value : String
  /-- Whether the commands of the shell see it. -/
  exported : Bool
  deriving Repr, DecidableEq, Inhabited

/-- The state of a shell. -/
structure Session where
  files : FileTree
  /-- The variables by their names. -/
  bindings : OrderedMap Variable
  /-- The name of the text that is run and the arguments it was given. -/
  arguments : List String
  channels : List (Nat × Channel)
  /-- What is left of each source. -/
  sources : List Bytes
  /-- What has been gathered in each pool. -/
  pools : List Bytes
  /-- The status of the last command. -/
  status : Nat
  /-- Whether the last command was ended by a signal. -/
  signalled : Bool
  /-- The time that commands have taken, in nanoseconds. -/
  elapsed : Nat
  /-- The number of the process. -/
  number : Nat
  deriving Inhabited

namespace Session

/-! ## Variables -/

/-- The value of a variable. -/
def value? (s : Session) (name : String) : Option String := (s.bindings.find? name).map (·.value)

/-- Sets a variable; one that commands see stays so. -/
def assign (s : Session) (name value : String) : Session :=
  let exported := (s.bindings.find? name).any (·.exported)
  { s with bindings := s.bindings.insert name ⟨value, exported⟩ }

/-- Sets a variable that commands see. -/
def assignExported (s : Session) (name value : String) : Session :=
  { s with bindings := s.bindings.insert name ⟨value, true⟩ }

/-- The variables that commands see. -/
def environment (s : Session) : List (String × String) :=
  s.bindings.filterMap fun (name, v) => if v.exported then some (name, v.value) else none

/-! ## Streams -/

/-- Where a stream leads. -/
def channel (s : Session) (stream : Nat) : Channel := (s.channels.lookup stream).getD .nowhere

/-- Leads a stream elsewhere. -/
def connect (s : Session) (stream : Nat) (channel : Channel) : Session :=
  { s with channels := (stream, channel) :: s.channels.filter (·.1 ≠ stream) }

/-- Writes to a stream. -/
def write (s : Session) (stream : Nat) (bytes : Bytes) : Session :=
  match s.channel stream with
  | .file place =>
    match s.files.node? place with
    | some (.file old) => { s with files := s.files.set place (.file (old ++ bytes)) }
    | _ => s
  | .pool index => { s with pools := s.pools.modify index (· ++ bytes) }
  | _ => s

/-- Writes a text to the standard output. -/
def say (s : Session) (text : String) : Session := s.write 1 (Text.encode text)

/-- Writes a line to the standard error. -/
def complain (s : Session) (text : String) : Session := s.write 2 (Text.encode (text ++ "\n"))

/-- Takes all that is left of the standard input. -/
def take (s : Session) : Bytes × Session :=
  match s.channel 0 with
  | .source index =>
    (s.sources.getD index [], { s with sources := s.sources.set index [] })
  | _ => ([], s)

/-- Makes a source. -/
def addSource (s : Session) (bytes : Bytes) : Channel × Session :=
  (.source s.sources.length, { s with sources := s.sources ++ [bytes] })

/-- Makes a pool. -/
def addPool (s : Session) : Nat × Session :=
  (s.pools.length, { s with pools := s.pools ++ [[]] })

/-! ## Files -/

/-- The part of a refusal that a shell tells about a file. -/
def refusal (error : FileError) (create : Bool) : String :=
  match error with
  | .notFound => if create then "Directory nonexistent" else "No such file"
  | other => other.reason

/-- Opens a file for output: at its end, or after its content is dropped. -/
def openOutput (s : Session) (path : String) (keep : Bool) : Except FileError (Channel × Session) := do
  let old := if keep then ((s.files.read path).toOption).getD [] else []
  let files ← s.files.overwrite path old
  return (.file (← files.locate path), { s with files })

/-- Opens a file for input. -/
def openInput (s : Session) (path : String) : Except FileError (Channel × Session) := do
  match ← s.files.nodeAt path with
  | .file bytes => return s.addSource bytes
  | .directory => return s.addSource []

/-- The device that a path stands for, as a channel. -/
def device? (s : Session) (path : String) : Option Channel :=
  match path with
  | "/dev/null" => some .nowhere
  | "/dev/stdin" => some (s.channel 0)
  | "/dev/stdout" => some (s.channel 1)
  | "/dev/stderr" => some (s.channel 2)
  | _ => none

/-- Opens a file as a redirection does. -/
def openFile (s : Session) (path : String) (output keep : Bool) : Except String (Channel × Session) :=
  match s.device? path with
  | some channel => .ok (channel, s)
  | none =>
    let opened := if output then s.openOutput path keep else s.openInput path
    opened.mapError fun e =>
      (if output then "cannot create " else "cannot open ") ++ path ++ ": " ++ refusal e output

/-! ## Shells within shells -/

/-- The state of a shell once a shell within it has ended: what that one did to the files, the streams
and the time stays, all else is as before. -/
def leave (outer inner : Session) : Session :=
  { outer with
    files := { inner.files with current := outer.files.current }
    sources := inner.sources
    pools := inner.pools
    status := inner.status
    signalled := inner.signalled
    elapsed := inner.elapsed }

end Session

/-- What ends a shell before the end of its text. -/
inductive Stop where
  | exit (status : Nat)
  /-- A signal, sent to the process with a number. -/
  | killed (number signal : Nat)
  deriving Repr, DecidableEq, Inhabited

/-- How a process has ended. -/
inductive Exit where
  | code (n : Nat)
  | signal
  deriving Repr, DecidableEq, Inhabited

/-- What a shell does. -/
abbrev Action (α : Type) := ExceptT Stop (StateM Session) α

end WorkflowEngine.Shell
