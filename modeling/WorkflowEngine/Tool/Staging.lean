import WorkflowEngine.Document.Requirement
import WorkflowEngine.Expression
import WorkflowEngine.Files.TaskDirectory
import WorkflowEngine.Log

/-!
# Staging

Before a tool runs, files are put into its working directory: texts with a name, and copies of files.
A name that would lead out of the directory is refused.

* **`staysInside`**, **`stagingPath`** — the names that are not refused, and their paths in the working
  directory.
* **`stageAll`** — puts everything in place that a task requires.
-/

namespace WorkflowEngine.Tool

open Document (WorkDirEntry)

/-- Work on files that can fail and records events. -/
abbrev FileWork (α : Type) := ExceptT Failure (StateM (FileTree × List Event)) α

namespace FileWork

/-- A change of the files as work. -/
def act {α : Type} (action : FileAction α) : FileWork α := fun (files, events) =>
  let (result, files) := action files
  (result, (files, events))

/-- Records an event. -/
def record (level : Level) (message : String) : FileWork Unit :=
  modify fun (files, events) => (files, events ++ [⟨level, message⟩])

/-- Work that only records events, as work on files that it can look at. -/
def look {α : Type} (work : FileTree → Logged α) : FileWork α := fun (files, events) =>
  let (result, more) := (work files).collect
  (result, (files, events ++ more))

end FileWork

/-- Whether a name leads to a place inside a directory. -/
def staysInside (name : String) : Bool :=
  name ≠ "" && (Path.components name).all fun
    | .normal _ => true
    | .current => true
    | _ => false

/-! ## Refusals -/

/-- The failure of a name that leads out of the working directory. -/
def leadsOut (name : String) : Failure :=
  .binding .toolRunner ("InitialWorkDirRequirement entryname '" ++ name
    ++ "' must be a relative path inside the working directory")

/-- The failure of a directory that would have to be put in place. -/
def noDirectories : Failure :=
  .notImplemented .toolRunner
    "staging a Directory through InitialWorkDirRequirement is not supported"

/-- The failure of a text without a name. -/
def nameless : Failure :=
  .binding .toolRunner "InitialWorkDirRequirement entry with text content needs an entryname"

/-- The failure of a value that is no file. -/
def noFile (value : Value) : Failure :=
  .binding .toolRunner ("InitialWorkDirRequirement listing yielded " ++ value.typeName
    ++ ", expected File entries")

/-! ## Files and texts -/

/-- The path of a name in the working directory. -/
def stagingPath (directory : TaskDirectory) (name : String) : Outcome String :=
  if staysInside name then .ok (Path.join directory.root name) else .error (leadsOut name)

/-- Puts a file in place, under a name or under its own. -/
def stageFile (directory : TaskDirectory) (file : FileValue) (name : Option String) :
    FileWork Unit := do
  let target ← stagingPath directory (name.getD file.basename)
  match file.contents with
  | some contents =>
    if file.path = "" then FileWork.act (Files.writeFile target (Text.encode contents))
    else
      let _ ← FileWork.act (Files.copyFile file.path target)
  | none =>
    let _ ← FileWork.act (Files.copyFile file.path target)
  FileWork.record .info ("staged " ++ file.path ++ " as " ++ target)

/-- The text of a content that is no file: a string as it is, all else as JSON. -/
def textOf : Value → String
  | .str text => text
  | other => other.toJson.text

/-- Puts a text in place. -/
def stageText (directory : TaskDirectory) (content : Value) (name : Option String) :
    FileWork Unit := do
  match name with
  | none => throw nameless
  | some name =>
    let target ← stagingPath directory name
    FileWork.record .info ("writing " ++ name)
    FileWork.act (Files.writeFile target (Text.encode (textOf content)))

/-! ## Listings -/

/-- Puts an entry with a content in place. -/
def stageEntry (directory : TaskDirectory) (content : Value) (name : Option String) :
    FileWork Unit :=
  match content with
  | .file file => stageFile directory file name
  | .directory _ => throw noDirectories
  | other => stageText directory other name

mutual

/-- Puts the files of a value in place. -/
def stageValue (directory : TaskDirectory) : Value → FileWork Unit
  | .null => pure ()
  | .file file => stageFile directory file none
  | .array items => stageValues directory items
  | .directory _ => throw noDirectories
  | other => throw (noFile other)

/-- Puts the files of some values in place. -/
def stageValues (directory : TaskDirectory) : List Value → FileWork Unit
  | [] => pure ()
  | item :: rest => do
    stageValue directory item
    stageValues directory rest

end

/-- Puts an entry of a requirement in place. -/
def stage (interpreter : Interpreter) (directory : TaskDirectory) (context : ExprContext) :
    WorkDirEntry → FileWork Unit
  | .named source name _ => do
    let content ← ExprFault.orFail (evaluate interpreter source context)
    let name ← name.mapM fun n => liftM (ExprFault.orFail (evaluateString interpreter n context))
    stageEntry directory content name
  | .expression source => do
    stageValue directory (← ExprFault.orFail (evaluate interpreter source context))
  | .literal json => stageValue directory (Value.ofJson json)

/-- Puts the entries of a requirement in place, in order. -/
def stageAll (interpreter : Interpreter) (directory : TaskDirectory) (context : ExprContext)
    (listing : List WorkDirEntry) : FileWork Unit :=
  listing.forM (stage interpreter directory context)

end WorkflowEngine.Tool
