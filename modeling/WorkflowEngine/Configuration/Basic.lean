import WorkflowEngine.Duration
import WorkflowEngine.Files.TaskDirectory
import WorkflowEngine.OrderedMap
import WorkflowEngine.Text.Blank

/-!
# Configuration of the engine

* **`Configuration`** — where runs live, what data locations stand for, which image tools run in and
  how they are polled.
* **`Configuration.check`** — what a configuration must satisfy, in the order of its messages.
-/

namespace WorkflowEngine

/-- The configuration of an engine. -/
structure Configuration where
  /-- The directory above all runs. -/
  workRoot : String
  /-- The directory that locations of shared data lie in. -/
  commonsRoot : String
  /-- The directory that locations of a user's data lie in. -/
  userRoot : String
  /-- The image of a tool that names none. -/
  defaultImage : String
  /-- The wait before the first poll of a tool. -/
  pollInterval : Duration
  /-- The longest wait between two polls. -/
  maxPollInterval : Duration
  /-- How long the status of a tool may stay unknown. -/
  unknownTimeout : Duration
  /-- How long a tool may run. -/
  taskTimeout : Duration
  /-- The number of bytes of a file that are loaded as its contents. -/
  contentsLimit : Nat
  defaultCores : Nat
  /-- In mebibytes. -/
  defaultRam : Nat
  /-- Variables that every tool sees. -/
  environment : OrderedMap String
  deriving Inhabited

namespace Configuration

/-- The configuration without any setting. -/
def standard : Configuration where
  workRoot := "/data"
  commonsRoot := "/commons-data/data/by-guid"
  userRoot := "/engine-workspace"
  defaultImage := "ubuntu"
  pollInterval := .ofWholeSeconds 1
  maxPollInterval := .ofWholeSeconds 30
  unknownTimeout := .ofWholeSeconds 600
  taskTimeout := .ofWholeSeconds (24 * 3600)
  contentsLimit := 64 * 1024
  defaultCores := 1
  defaultRam := 1024
  environment := []

/-- What is wrong with a configuration. -/
inductive Defect where
  | noPollInterval
  | pollIntervalsCross
  | noTaskTimeout
  | noImage
  deriving Repr, DecidableEq

/-- The message of a defect. -/
def Defect.message : Defect → String
  | .noPollInterval => "poll_interval must be greater than 0"
  | .pollIntervalsCross => "max_poll_interval must not be shorter than poll_interval"
  | .noTaskTimeout => "task_timeout must be greater than 0"
  | .noImage => "default_image must not be empty"

/-- The first defect of a configuration. -/
def check (c : Configuration) : Except Defect Unit :=
  if c.pollInterval.nanoseconds = 0 then .error .noPollInterval
  else if c.maxPollInterval.nanoseconds < c.pollInterval.nanoseconds then
    .error .pollIntervalsCross
  else if c.taskTimeout.nanoseconds = 0 then .error .noTaskTimeout
  else if Text.trim c.defaultImage = "" then .error .noImage
  else .ok ()

/-- Sets the work root; a relative one is seen from a directory. -/
def withWorkRoot (c : Configuration) (directory path : String) : Configuration :=
  { c with workRoot := (Path.absolute? directory path).getD path }

/-- Sets a variable of the environment. -/
def withVariable (c : Configuration) (name value : String) : Configuration :=
  { c with environment := c.environment.insert name value }

end Configuration

end WorkflowEngine
