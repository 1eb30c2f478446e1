import WorkflowEngine.Configuration.Basic
import WorkflowEngine.Configuration.Toml

/-!
# Reading a configuration

* **`Configuration.ofText`** — the configuration of a text in TOML: known settings, each of its
  type, over the standard ones.
* **`Configuration.load`** — the configuration of a file.
-/

namespace WorkflowEngine.Configuration

open Toml (Setting Settings)

/-- The failure of a text that holds no configuration. -/
def invalid : Failure := .parse .document "invalid configuration"

/-- A setting read with a reader, if it is there. -/
def setting? {α : Type} (s : Settings) (reader : Setting → Option α) (name : String) :
    Outcome (Option α) :=
  match s.fields.find? name with
  | none => .ok none
  | some value =>
    match reader value with
    | some a => .ok (some a)
    | none => .error invalid

/-- Reads a text. -/
def textOf : Setting → Option String
  | .text s => some s
  | _ => none

/-- Reads a natural number. -/
def naturalOf : Setting → Option Nat
  | .integer n => if 0 ≤ n then some n.toNat else none
  | _ => none

/-- Reads a number. -/
def numberOf : Setting → Option Float
  | .number x => some x
  | .integer n => some (floatOfInt n)
  | _ => none

/-- The names of the settings that are texts, natural numbers and durations. -/
def textNames : List String :=
  ["work_root", "commons_data_root", "user_data_root", "default_image"]

/-- The names of the settings that are natural numbers. -/
def naturalNames : List String := ["load_contents_limit", "default_cores", "default_ram_mib"]

/-- The names of the settings that are durations in seconds. -/
def durationNames : List String :=
  ["poll_interval_secs", "max_poll_interval_secs", "unknown_status_timeout_secs",
    "task_timeout_secs"]

/-- Whether every setting is known and has its type. -/
def wellTyped (s : Settings) : Bool :=
  s.fields.all fun (name, value) =>
    if textNames.contains name then (textOf value).isSome
    else if naturalNames.contains name then (naturalOf value).isSome
    else durationNames.contains name && (numberOf value).isSome

/-- A number of seconds as a duration. -/
def secondsOf (x : Float) : Outcome Duration :=
  (Duration.ofSeconds x).mapError fun fault =>
    .parse .document ("invalid duration " ++ Decimal.Layout.plain.write x ++ ": " ++ fault.message)

/-- A duration of the settings, or a standard one. -/
def durationSetting (s : Settings) (name : String) (standard : Duration) : Outcome Duration := do
  match ← setting? s numberOf name with
  | some x => secondsOf x
  | none => return standard

/-- The configuration of some settings, not yet checked. -/
def ofSettings (tree : FileTree) (s : Settings) : Outcome Configuration := do
  if !wellTyped s then throw invalid
  let workRoot ← match ← setting? s textOf "work_root" with
    | some path => Files.absolute tree path
    | none => pure standard.workRoot
  let pollInterval ← durationSetting s "poll_interval_secs" standard.pollInterval
  let maxPollInterval ← durationSetting s "max_poll_interval_secs" standard.maxPollInterval
  let unknownTimeout ← durationSetting s "unknown_status_timeout_secs" standard.unknownTimeout
  let taskTimeout ← durationSetting s "task_timeout_secs" standard.taskTimeout
  return {
    workRoot, pollInterval, maxPollInterval, unknownTimeout, taskTimeout
    commonsRoot := (← setting? s textOf "commons_data_root").getD standard.commonsRoot
    userRoot := (← setting? s textOf "user_data_root").getD standard.userRoot
    defaultImage := (← setting? s textOf "default_image").getD standard.defaultImage
    contentsLimit := (← setting? s naturalOf "load_contents_limit").getD standard.contentsLimit
    defaultCores := (← setting? s naturalOf "default_cores").getD standard.defaultCores
    defaultRam := (← setting? s naturalOf "default_ram_mib").getD standard.defaultRam
    environment := s.environment }

/-- The configuration of a text. -/
def ofText (tree : FileTree) (text : String) : Outcome Configuration := do
  match Settings.parse? text with
  | none => throw invalid
  | some s =>
    let c ← ofSettings tree s
    match c.check with
    | .ok () => return c
    | .error defect => throw (.parse .document defect.message)

/-- The configuration of a file. -/
def load (tree : FileTree) (path : String) : Outcome Configuration := do
  ofText tree (← FileError.orFail .document path (tree.readText path))

end WorkflowEngine.Configuration
