import WorkflowEngine.Proofs.Blame
import WorkflowEngine.Proofs.Causes
import WorkflowEngine.Tool.LocalExecutor

/-!
# Failures of tools

What a tool fails with while it is prepared, run and its outputs are collected is fresh: no cancellation, and
no task is recorded for it yet.  The tool itself does not know its task; the scheduler records it.

**Outcomes and work.**  `FailsFresh` of a result, `WorksFresh` of work on a state, with a lemma for each way in
which they are put together.

**Parts of a tool.**  One lemma for each function that a tool goes through, in the order of the modules that
they come from.

**Turns.**  A turn of a tool fails freshly, or its executor failed, or the run was cancelled (`failsAs_start`,
`failsAs_resume`).

**Engines.**  The tools of an engine fail as its executor does, or freshly, or with the cancellation of the run
(`machine_failsAs`).  So when the failures of the executor name no task, every failed run blames a task of its tree
(`engine_blames_failed_task`); and when they are no cancellations, nor does a run report one that is not cancelled
(`engine_reports_no_cancellation`).  The executor that runs tools in place is of both kinds
(`localExecutor_failsAs_fresh`).
-/

namespace WorkflowEngine

/-! ## Outcomes and work -/

/-- The outcome is no failure, or a fresh one. -/
def FailsFresh {α : Type} (outcome : Outcome α) : Prop :=
  ∀ failure, outcome = .error failure → failure.IsFresh

/-- Whatever state some work finds, it fails freshly if at all. -/
def WorksFresh {σ α : Type} (work : ExceptT Failure (StateM σ) α) : Prop := ∀ s, FailsFresh (work s).1

namespace FailsFresh

variable {α β : Type} {x : Outcome α}

lemma ok (a : α) : FailsFresh (.ok a : Outcome α) := nofun

lemma error {failure : Failure} (h : failure.IsFresh) : FailsFresh (.error failure : Outcome α) := by
  rintro _ ⟨⟩
  exact h

lemma bind {f : α → Outcome β} (h : FailsFresh x) (hf : ∀ a, FailsFresh (f a)) : FailsFresh (x >>= f) := by
  intro failure hfailure
  rcases bind_eq_error.mp hfailure with hx | ⟨a, -, ha⟩
  · exact h failure hx
  · exact hf a failure ha

lemma map (h : FailsFresh x) (f : α → β) : FailsFresh (x.map f) :=
  fun failure hfailure => h failure (map_eq_error_iff.mp hfailure)

lemma mapM {f : α → Outcome β} {xs : List α} (h : ∀ a, FailsFresh (f a)) : FailsFresh (xs.mapM f) := by
  intro failure hfailure
  obtain ⟨a, -, ha⟩ := mapM_eq_error hfailure
  exact h a failure ha

lemma optionMapM {f : α → Outcome β} (h : ∀ a, FailsFresh (f a)) : ∀ a? : Option α, FailsFresh (a?.mapM f)
  | none => ok none
  | some a => by
      rw [Option.mapM_some]
      exact (h a).map some

lemma foldlM {f : β → α → Outcome β} {xs : List α} (h : ∀ b a, FailsFresh (f b a)) (b : β) :
    FailsFresh (xs.foldlM f b) := by
  intro failure hfailure
  obtain ⟨a, -, before, ha⟩ := foldlM_eq_error hfailure
  exact h before a failure ha

/-- Whatever interprets an expression. -/
lemma orFail (result : Except ExprFault α) : FailsFresh (ExprFault.orFail result) := by
  cases result with
  | ok a => exact ok a
  | error fault => exact error ⟨rfl, rfl⟩

lemma fileOrFail (component : Component) (path : String) (result : Except FileError α) :
    FailsFresh (FileError.orFail component path result) := by
  cases result with
  | ok a => exact ok a
  | error e => exact error ⟨rfl, rfl⟩

end FailsFresh

namespace WorksFresh

variable {σ α β : Type} {work : ExceptT Failure (StateM σ) α}

lemma pure (a : α) : WorksFresh (pure a : ExceptT Failure (StateM σ) α) := fun _ => .ok a

lemma throw {failure : Failure} (h : failure.IsFresh) :
    WorksFresh (throw failure : ExceptT Failure (StateM σ) α) := fun _ => .error h

lemma lift {x : Outcome α} (h : FailsFresh x) : WorksFresh (liftM x : ExceptT Failure (StateM σ) α) :=
  fun _ => h

lemma get : WorksFresh (get : ExceptT Failure (StateM σ) σ) := fun s => .ok s

lemma set (s : σ) : WorksFresh (set s : ExceptT Failure (StateM σ) Unit) := fun _ => .ok ()

lemma modify (f : σ → σ) : WorksFresh (modify f : ExceptT Failure (StateM σ) Unit) := fun _ => .ok ()

lemma bind {f : α → ExceptT Failure (StateM σ) β} (h : WorksFresh work) (hf : ∀ a, WorksFresh (f a)) :
    WorksFresh (work >>= f) := by
  intro s
  have hbind : (work >>= f) s = ExceptT.bindCont f (work s).1 (work s).2 := rfl
  have hwork := h s
  rw [hbind]
  generalize work s = reached at hwork ⊢
  obtain ⟨failure | a, after⟩ := reached
  · exact .error (hwork failure rfl)
  · exact hf a after

lemma mapM {f : α → ExceptT Failure (StateM σ) β} (h : ∀ a, WorksFresh (f a)) :
    ∀ xs : List α, WorksFresh (xs.mapM f)
  | [] => by
      rw [List.mapM_nil]
      exact pure []
  | a :: xs => by
      rw [List.mapM_cons]
      exact (h a).bind fun b => (mapM h xs).bind fun bs => pure (b :: bs)

lemma foldlM {f : β → α → ExceptT Failure (StateM σ) β} (h : ∀ b a, WorksFresh (f b a)) :
    ∀ (xs : List α) (b : β), WorksFresh (xs.foldlM f b)
  | [], b => by
      rw [List.foldlM_nil]
      exact pure b
  | a :: xs, b => by
      rw [List.foldlM_cons]
      exact (h b a).bind fun b => foldlM h xs b

lemma optionMapM {f : α → ExceptT Failure (StateM σ) β} (h : ∀ a, WorksFresh (f a)) :
    ∀ a? : Option α, WorksFresh (a?.mapM f)
  | none => pure none
  | some a => by
      rw [Option.mapM_some]
      exact (h a).bind fun b => pure (some b)

lemma forM {f : α → ExceptT Failure (StateM σ) Unit} (h : ∀ a, WorksFresh (f a)) :
    ∀ xs : List α, WorksFresh (xs.forM f)
  | [] => pure ()
  | a :: xs => (h a).bind fun _ => forM h xs

end WorksFresh

/-! ## Files -/

namespace Files

lemma worksFresh_makeDirectories (path : String) : WorksFresh (makeDirectories path) :=
  fun _ => .fileOrFail _ _ _

lemma worksFresh_writeFile (path : String) (bytes : Text.Bytes) : WorksFresh (writeFile path bytes) :=
  (worksFresh_makeDirectories _).bind fun _ => WorksFresh.get.bind fun _ =>
    (WorksFresh.lift (.fileOrFail _ _ _)).bind fun _ => .set _

lemma worksFresh_copyFile (source destination : String) : WorksFresh (copyFile source destination) := by
  have hcopy : WorksFresh (do
      let copied ← FileError.orFail .toolRunner source ((← get).copy source destination)
      set copied.2
      return copied.1 : FileAction Nat) :=
    WorksFresh.get.bind fun _ => (WorksFresh.lift (.fileOrFail _ _ _)).bind fun _ =>
      (WorksFresh.set _).bind fun _ => .pure _
  unfold copyFile
  split
  · exact (worksFresh_makeDirectories _).bind fun _ => hcopy
  · exact hcopy

lemma failsFresh_readText (tree : FileTree) (path : String) : FailsFresh (readText tree path) :=
  .fileOrFail _ _ _

lemma failsFresh_readPrefix (tree : FileTree) (path : String) (limit : Nat) (component : Component) :
    FailsFresh (readPrefix tree path limit component) := .fileOrFail _ _ _

end Files

/-! ## Inputs -/

namespace Value

variable {σ : Type} {f : FileValue → ExceptT Failure (StateM σ) FileValue}

mutual

lemma worksFresh_mapFilesM (h : ∀ file, WorksFresh (f file)) : ∀ v : Value, WorksFresh (v.mapFilesM f)
  | .file own => by
      rw [mapFilesM]
      exact (h own).bind fun _ => .pure _
  | .array items => by
      rw [mapFilesM]
      exact (worksFresh_mapFilesItemsM h items).bind fun _ => .pure _
  | .record fields => by
      rw [mapFilesM]
      exact (worksFresh_mapFilesFieldsM h fields).bind fun _ => .pure _
  | .null | .bool _ | .int _ | .float _ | .str _ | .directory _ => .pure _

lemma worksFresh_mapFilesItemsM (h : ∀ file, WorksFresh (f file)) :
    ∀ items : List Value, WorksFresh (mapFilesItemsM f items)
  | [] => .pure []
  | item :: rest => by
      rw [mapFilesItemsM]
      exact (worksFresh_mapFilesM h item).bind fun _ =>
        (worksFresh_mapFilesItemsM h rest).bind fun _ => .pure _

lemma worksFresh_mapFilesFieldsM (h : ∀ file, WorksFresh (f file)) :
    ∀ fields : List (String × Value), WorksFresh (mapFilesFieldsM f fields)
  | [] => .pure []
  | (_, value) :: rest => by
      rw [mapFilesFieldsM]
      exact (worksFresh_mapFilesM h value).bind fun _ =>
        (worksFresh_mapFilesFieldsM h rest).bind fun _ => .pure _

end

end Value

namespace Binding

lemma worksFresh_warn (message : String) : WorksFresh (Logged.warn message) := .modify _

lemma worksFresh_loadContents (tree : FileTree) (config : Configuration) (file : FileValue) :
    WorksFresh (loadContents tree config file) :=
  (WorksFresh.lift (Files.failsFresh_readPrefix _ _ _ _)).bind fun _ => .pure _

lemma worksFresh_attachSecondary (tree : FileTree) (pattern : String) (file : FileValue) :
    WorksFresh (attachSecondary tree pattern file) := by
  unfold attachSecondary
  dsimp only
  split_ifs
  · exact .pure _
  · exact .pure _
  · exact (worksFresh_warn _).bind fun _ => .pure _

lemma worksFresh_bindInput (tree : FileTree) (config : Configuration) (params : Values)
    (input : Document.Input) : WorksFresh (bindInput tree config params input) := by
  have hfiles (v : Value) : WorksFresh ((input.secondaryFiles.filter (!isExpressionPattern ·)).foldlM
      (fun value pattern => value.mapFilesM (attachSecondary tree pattern)) v) :=
    .foldlM (fun value pattern => Value.worksFresh_mapFilesM (worksFresh_attachSecondary tree pattern) value) _ v
  unfold bindInput
  dsimp only
  split_ifs
  · exact (WorksFresh.throw ⟨rfl, rfl⟩).bind fun _ =>
      (Value.worksFresh_mapFilesM (worksFresh_loadContents tree config) _).bind hfiles
  · exact (WorksFresh.throw ⟨rfl, rfl⟩).bind fun _ => (WorksFresh.pure _).bind hfiles
  · exact (Value.worksFresh_mapFilesM (worksFresh_loadContents tree config) _).bind hfiles
  · exact hfiles _

lemma worksFresh_bindInputs (interpreter : Interpreter) (tree : FileTree) (config : Configuration)
    (process : Document.Process) (params : Values) (runtime : Json) (library : List String) :
    WorksFresh (bindInputs (evaluator interpreter) tree config process params runtime library) := by
  have hprovide (context : ExprContext) (inputs : Values) (input : Document.Input) :
      FailsFresh (provide (evaluator interpreter) context inputs input) := by
    unfold provide
    split
    · exact .orFail _
    · exact .ok _
  refine (WorksFresh.foldlM (fun _ input => ?_) _ _).bind fun inputs => ?_
  · exact (worksFresh_bindInput tree config params input).bind fun _ => .pure _
  · refine (WorksFresh.foldlM (fun _ input => ?_) _ _).bind fun _ => .pure _
    exact (WorksFresh.lift (hprovide _ inputs input)).bind fun _ => .pure _

end Binding

/-! ## Command lines -/

namespace CommandLine

lemma failsFresh_wordOf (value : Value) : FailsFresh (wordOf value) := by
  unfold wordOf
  split <;> first
    | exact .ok _
    | exact .error ⟨rfl, rfl⟩

lemma failsFresh_itemWords (shell : Bool) (binding : Document.InputBinding) (item : Value) :
    FailsFresh (itemWords shell binding item) := by
  unfold itemWords
  split_ifs
  · exact .ok _
  · exact (failsFresh_wordOf item).map _

mutual

lemma failsFresh_render (shell : Bool) (binding : Document.InputBinding)
    (declared : Option Document.DataType) : ∀ value : Value, FailsFresh (render shell binding declared value)
  | .null => .ok _
  | .bool _ => .ok _
  | .array items => by
      rw [render]
      split_ifs
      · exact .ok _
      · split
        · exact (FailsFresh.mapM failsFresh_wordOf).bind fun _ => .ok _
        · split
          · exact (failsFresh_renderItems shell _ _ items).bind fun _ => .ok _
          · exact (FailsFresh.mapM (failsFresh_itemWords shell binding)).bind fun _ => .ok _
  | .record _ => .error ⟨rfl, rfl⟩
  | .int n => (failsFresh_wordOf (.int n)).map _
  | .float x => (failsFresh_wordOf (.float x)).map _
  | .str s => (failsFresh_wordOf (.str s)).map _
  | .file f => (failsFresh_wordOf (.file f)).map _
  | .directory d => (failsFresh_wordOf (.directory d)).map _

lemma failsFresh_renderItems (shell : Bool) (binding : Document.InputBinding)
    (declared : Option Document.DataType) :
    ∀ items : List Value, FailsFresh (renderItems shell binding declared items)
  | [] => .ok []
  | item :: rest => by
      rw [renderItems]
      exact (failsFresh_render shell binding declared item).bind fun _ =>
        (failsFresh_renderItems shell binding declared rest).bind fun _ => .ok _

end

lemma failsFresh_argumentFragments (interpreter : Interpreter) (shell : Bool) (context : ExprContext) :
    ∀ (index : Nat) (arguments : List Document.Argument),
      FailsFresh (argumentFragments interpreter shell context index arguments)
  | _, [] => .ok []
  | index, argument :: rest => by
      have hargument : FailsFresh (argumentFragment interpreter shell context index argument) := by
        unfold argumentFragment
        split
        · exact (FailsFresh.orFail _).bind fun _ => (failsFresh_render _ _ _ _).bind fun _ => .ok _
        · exact (FailsFresh.ok _).bind fun _ => (failsFresh_render _ _ _ _).bind fun _ => .ok _
      rw [argumentFragments]
      exact hargument.bind fun _ =>
        (failsFresh_argumentFragments interpreter shell context (index + 1) rest).bind fun _ => .ok _

lemma failsFresh_inputFragments (shell : Bool) (provided : Values) (inputs : List Document.Input) :
    FailsFresh (inputFragments shell provided inputs) := by
  refine (FailsFresh.mapM fun input => ?_).bind fun _ => .ok _
  unfold inputFragment?
  split
  · exact .ok _
  · exact (failsFresh_render _ _ _ _).bind fun _ => .ok _

lemma failsFresh_inputFile (interpreter : Interpreter) (context : ExprContext) (expression : String) :
    FailsFresh (inputFile interpreter context expression) := by
  refine (FailsFresh.orFail _).bind fun value => ?_
  split
  · exact .ok _
  · exact .ok _
  · exact .error ⟨rfl, rfl⟩

lemma failsFresh_captureFile (interpreter : Interpreter) (process : Document.Process) (stream : Stream)
    (field : Option String) (context : ExprContext) :
    FailsFresh (captureFile interpreter process stream field context) := by
  unfold captureFile
  split
  · exact (FailsFresh.orFail _).map _
  · split_ifs <;> exact .ok _

lemma failsFresh_assemble (interpreter : Interpreter) (process : Document.Process)
    (line : Document.CommandLine) (provided : Values) (context : ExprContext) (shell : Bool) :
    FailsFresh (assemble interpreter process line provided context shell) :=
  (failsFresh_argumentFragments interpreter shell context 0 line.arguments).bind fun _ =>
    (failsFresh_inputFragments shell provided process.inputs).bind fun _ =>
      (FailsFresh.optionMapM (failsFresh_inputFile interpreter context) line.stdin).bind fun _ =>
        (failsFresh_captureFile interpreter process .stdout line.stdout context).bind fun _ =>
          (failsFresh_captureFile interpreter process .stderr line.stderr context).bind fun _ => .ok _

end CommandLine

/-! ## Outputs -/

namespace Outputs

open Document (Output Process)

variable {site : Site}

lemma failsFresh_reported (output : Output) (fields : OrderedMap Json) (absent : String) :
    FailsFresh (reported output fields absent) := by
  unfold reported
  split
  · exact .ok _
  · split_ifs
    · exact .ok _
    · exact .error ⟨rfl, rfl⟩

lemma failsFresh_expressionOutputs (process : Process) (result : Json) :
    FailsFresh (expressionOutputs process result) := by
  unfold expressionOutputs
  split
  · exact .foldlM (fun _ output => (failsFresh_reported output _ _).bind fun _ => .ok _) _
  · exact .error ⟨rfl, rfl⟩

lemma failsFresh_patternsOf (output : Output) : FailsFresh (patternsOf site output) := by
  have hcaptured (stream : String) (file : Option String) : FailsFresh (captured output stream file) := by
    unfold captured
    split
    · exact .ok _
    · exact .error ⟨rfl, rfl⟩
  have hpatterns (expression : String) : FailsFresh (globPatterns site expression) := by
    refine (FailsFresh.orFail _).bind fun patterns => ?_
    split
    · exact .ok _
    · refine .mapM fun item => ?_
      split
      · exact .ok _
      · exact .error ⟨rfl, rfl⟩
    · exact .error ⟨rfl, rfl⟩
  unfold patternsOf
  split
  · exact (hcaptured _ _).map _
  · exact (hcaptured _ _).map _
  · exact (FailsFresh.mapM hpatterns).map _
  · split_ifs
    · exact .ok _
    · exact .error ⟨rfl, rfl⟩

lemma failsFresh_findAll (directories contents : Bool) (patterns : List String) :
    FailsFresh (findAll site directories contents patterns) := by
  refine (FailsFresh.mapM fun pattern => ?_).bind fun _ => .mapM fun path => ?_
  · unfold matchingPaths
    split
    · exact .error ⟨rfl, rfl⟩
    · exact .ok _
  · unfold foundValue
    dsimp only
    split_ifs
    · exact .ok _
    · exact (Files.failsFresh_readPrefix _ _ _ _).map _
    · exact .ok _

lemma worksFresh_withSecondary (output : Output) (v : Value) : WorksFresh (withSecondary site output v) := by
  have hcandidates (file : FileValue) (pattern : String) :
      FailsFresh (secondaryCandidates site file pattern) := by
    unfold secondaryCandidates
    split_ifs
    · refine (FailsFresh.orFail _).bind fun candidates => ?_
      split <;> exact .ok _
    · exact .ok _
  have hpath (file : FileValue) (candidate : Value) : FailsFresh (candidatePath file candidate) := by
    unfold candidatePath
    split
    · exact .ok _
    · exact .ok _
    · exact .error ⟨rfl, rfl⟩
  have hadd (file : FileValue) (candidate : Value) : WorksFresh (addCandidate site file candidate) := by
    refine (WorksFresh.lift (hpath file candidate)).bind fun path => ?_
    split_ifs
    · exact .pure _
    · exact (Binding.worksFresh_warn _).bind fun _ => .pure _
  unfold withSecondary
  split
  · refine (WorksFresh.foldlM (fun file pattern => ?_) _ _).bind fun _ => .pure _
    exact (WorksFresh.lift (hcandidates file pattern)).bind fun candidates => .foldlM hadd candidates file
  · exact .pure _

lemma failsFresh_single (output : Output) (found : List Value) (optional : Bool) :
    FailsFresh (reconcile.single output found optional) := by
  unfold reconcile.single
  split
  · exact .ok _
  · split_ifs
    · exact .ok _
    · exact .error ⟨rfl, rfl⟩
  · exact .error ⟨rfl, rfl⟩

lemma failsFresh_reconcile (output : Output) (found : List Value) : FailsFresh (reconcile output found) := by
  have hsingle := failsFresh_single output found
  unfold reconcile
  split
  · exact .ok _
  · exact hsingle _
  · exact hsingle _
  · exact hsingle _
  · exact hsingle _
  · exact hsingle _
  · exact .error ⟨rfl, rfl⟩

lemma failsFresh_evaluated (output : Output) (found : List Value) (expression : String) :
    FailsFresh (evaluated site output found expression) := by
  refine (FailsFresh.orFail _).bind fun value => ?_
  split_ifs
  · exact .ok _
  · exact .error ⟨rfl, rfl⟩

lemma worksFresh_collect (output : Output) : WorksFresh (collect site output) := by
  refine (WorksFresh.lift (failsFresh_patternsOf output)).bind fun patterns? => ?_
  split
  · exact .pure _
  · refine (WorksFresh.lift (failsFresh_findAll _ _ _)).bind fun found => ?_
    split
    · exact .lift (failsFresh_evaluated output found _)
    · exact (WorksFresh.mapM (worksFresh_withSecondary output) found).bind fun joined =>
        .lift (failsFresh_reconcile output joined)

lemma failsFresh_reportedOutputs (process : Process) (report : String) :
    FailsFresh (reportedOutputs site process report) := by
  refine (Files.failsFresh_readText _ _).bind fun text => ?_
  split
  · exact .error ⟨rfl, rfl⟩
  · exact .foldlM (fun _ output => (failsFresh_reported output _ _).bind fun _ => .ok _) _
  · exact .error ⟨rfl, rfl⟩

lemma worksFresh_toolOutputs (site : Site) (process : Process) : WorksFresh (toolOutputs site process) := by
  unfold toolOutputs
  dsimp only
  split_ifs
  · exact .lift (failsFresh_reportedOutputs process _)
  · exact .foldlM (fun _ output => (worksFresh_collect output).bind fun _ => .pure _) _ _

end Outputs

namespace Tool

/-! ## Preparation -/

namespace FileWork

variable {α : Type}

lemma worksFresh_act {action : FileAction α} (h : WorksFresh action) : WorksFresh (act action) :=
  fun s => h s.1

lemma worksFresh_record (level : Level) (message : String) : WorksFresh (record level message) := .modify _

lemma worksFresh_look {work : FileTree → Logged α} (h : ∀ files, WorksFresh (work files)) :
    WorksFresh (look work) := fun s => h s.1 []

end FileWork

open FileWork (worksFresh_act worksFresh_record worksFresh_look)

lemma failsFresh_stagingPath (directory : TaskDirectory) (name : String) :
    FailsFresh (stagingPath directory name) := by
  unfold stagingPath
  split_ifs
  · exact .ok _
  · exact .error ⟨rfl, rfl⟩

lemma worksFresh_stageFile (directory : TaskDirectory) (file : FileValue) (name : Option String) :
    WorksFresh (stageFile directory file name) := by
  have hcopy (target : String) : WorksFresh (FileWork.act (Files.copyFile file.path target)) :=
    worksFresh_act (Files.worksFresh_copyFile _ _)
  refine (WorksFresh.lift (failsFresh_stagingPath _ _)).bind fun target => ?_
  split
  · split_ifs
    · exact (worksFresh_act (Files.worksFresh_writeFile _ _)).bind fun _ => worksFresh_record _ _
    · exact (hcopy target).bind fun _ => worksFresh_record _ _
  · exact (hcopy target).bind fun _ => worksFresh_record _ _

lemma worksFresh_stageText (directory : TaskDirectory) (content : Value) (name : Option String) :
    WorksFresh (stageText directory content name) := by
  unfold stageText
  split
  · exact .throw ⟨rfl, rfl⟩
  · exact (WorksFresh.lift (failsFresh_stagingPath _ _)).bind fun _ => (worksFresh_record _ _).bind fun _ =>
      worksFresh_act (Files.worksFresh_writeFile _ _)

lemma worksFresh_stageEntry (directory : TaskDirectory) (content : Value) (name : Option String) :
    WorksFresh (stageEntry directory content name) := by
  unfold stageEntry
  split
  · exact worksFresh_stageFile _ _ _
  · exact .throw ⟨rfl, rfl⟩
  · exact worksFresh_stageText _ _ _

mutual

lemma worksFresh_stageValue (directory : TaskDirectory) : ∀ v : Value, WorksFresh (stageValue directory v)
  | .null => .pure ()
  | .file file => worksFresh_stageFile directory file none
  | .array items => worksFresh_stageValues directory items
  | .directory _ | .bool _ | .int _ | .float _ | .str _ | .record _ => .throw ⟨rfl, rfl⟩

lemma worksFresh_stageValues (directory : TaskDirectory) :
    ∀ items : List Value, WorksFresh (stageValues directory items)
  | [] => .pure ()
  | item :: rest =>
      (worksFresh_stageValue directory item).bind fun _ => worksFresh_stageValues directory rest

end

lemma worksFresh_stageAll (interpreter : Interpreter) (directory : TaskDirectory) (context : ExprContext)
    (listing : List Document.WorkDirEntry) : WorksFresh (stageAll interpreter directory context listing) := by
  refine .forM (fun entry => ?_) listing
  unfold stage
  split
  · refine (WorksFresh.lift (.orFail _)).bind fun content => ?_
    exact (WorksFresh.optionMapM (fun _ => .lift (.orFail _)) _).bind fun _ => worksFresh_stageEntry _ _ _
  · exact (WorksFresh.lift (.orFail _)).bind fun _ => worksFresh_stageValue _ _
  · exact worksFresh_stageValue _ _

section Requests

variable (interpreter : Interpreter) (info : Scheduling.TaskInfo) (config : Configuration)
  (directory : TaskDirectory) (context : ExprContext)

lemma failsFresh_amountOf (value : Json) : FailsFresh (amountOf value) := by
  unfold amountOf
  split
  · exact .ok _
  · exact .ok _
  · exact .ok _
  · exact .error ⟨rfl, rfl⟩

lemma failsFresh_limitOf (limit : Option Json) : FailsFresh (limitOf interpreter context limit) := by
  unfold limitOf
  split
  · exact (FailsFresh.ok _).bind failsFresh_amountOf
  · exact (FailsFresh.orFail _).bind failsFresh_amountOf
  · exact (FailsFresh.ok _).bind failsFresh_amountOf

lemma failsFresh_resourcesOf : FailsFresh (resourcesOf interpreter info context config) := by
  have hlimit := failsFresh_limitOf interpreter context
  unfold resourcesOf
  split
  · exact (hlimit _).bind fun _ => (hlimit _).bind fun _ => (hlimit _).bind fun _ =>
      (hlimit _).bind fun _ => .ok _
  · exact .ok _

lemma failsFresh_prepareTool (inputs : Values) (resources : Resources) (command : CommandLine.Command) :
    FailsFresh (prepareTool interpreter info config directory context inputs resources command) := by
  have hown : FailsFresh (ownVariables interpreter info context) := by
    unfold ownVariables
    split
    · exact .mapM fun _ => (FailsFresh.orFail _).map _
    · exact .ok _
  exact (hown.bind fun _ => .ok _).bind fun _ => .ok _

end Requests

variable {ε : Type} (setting : Setting ε) (info : Scheduling.TaskInfo)

lemma worksFresh_settleIn (params : Values) : WorksFresh (settleIn setting info params) := by
  have hcreate : WorksFresh (TaskDirectory.create setting.directory info.path) :=
    (Files.worksFresh_makeDirectories _).bind fun _ => (Files.worksFresh_makeDirectories _).bind fun _ => .pure _
  have hfilled : FailsFresh (Binding.fillDefaults info.process params) :=
    fun _ h => Binding.isFresh_of_fillDefaults h
  refine (worksFresh_act hcreate).bind fun directory => (WorksFresh.lift hfilled).bind fun _ => ?_
  refine (WorksFresh.lift (failsFresh_resourcesOf _ info setting.config _)).bind fun _ => ?_
  exact (worksFresh_look fun files => Binding.worksFresh_bindInputs _ files _ _ _ _ _).bind fun _ => .pure _

lemma worksFresh_stageIn (workplace : Workplace) : WorksFresh (stageIn setting.interpreter info workplace) := by
  unfold stageIn
  split
  · exact worksFresh_stageAll _ _ _ _
  · exact .pure _

lemma failsFresh_commandOf (workplace : Workplace) (line : Document.CommandLine) :
    FailsFresh (commandOf setting info workplace line) :=
  (CommandLine.failsFresh_assemble _ _ _ _ _ _).bind fun _ =>
    (failsFresh_prepareTool _ info setting.config _ _ _ _ _).bind fun _ => .ok _

/-! ## Turns -/

lemma failsFresh_onFiles {α : Type} (world : World ε) {work : FileWork α} (h : WorksFresh work) :
    FailsFresh (onFiles world work).1 := h (world.files, [])

lemma failsFresh_judge {config : Configuration} {p : Polling} {now : Nat} {status : ToolStatus}
    {result : Outcome Unit} (h : p.judge config now status = .ended result) : FailsFresh result := by
  have hcontinue (since : Option Nat) : p.continue_ config now since ≠ .ended result := by
    unfold Polling.continue_
    split_ifs <;> nofun
  cases status with
  | completed =>
      obtain rfl := Verdict.ended.inj h
      exact .ok ()
  | failed reason =>
      obtain rfl := Verdict.ended.inj h
      exact .error ⟨rfl, rfl⟩
  | running => exact absurd h (hcontinue none)
  | unknown =>
      rw [Polling.judge] at h
      split_ifs at h
      · obtain rfl := Verdict.ended.inj h
        exact .error ⟨rfl, rfl⟩
      · exact absurd h (hcontinue _)

/-- Every failure that an executor reports has some property. -/
structure Executor.FailsAs (executor : Executor ε) (P : Failure → Prop) : Prop where
  dispatch : ∀ tool world failure, (executor.dispatch tool world).1 = .error failure → P failure
  status : ∀ handle world failure, (executor.status handle world).1 = .error failure → P failure

section Turns

variable {setting info} {P : Failure → Prop} {failure : Failure} {world : World ε}
  (fresh : ∀ f : Failure, f.IsFresh → P f) (executor : setting.executor.FailsAs P)

include fresh executor

lemma failsAs_perform {workplace : Workplace}
    (h : (perform setting info workplace world).1 = .done (.error failure)) : P failure := by
  unfold perform at h
  split at h
  · refine fresh failure (FailsFresh.bind (.orFail _) (fun value => ?_) failure (Scheduling.Next.done.inj h))
    exact Outputs.failsFresh_expressionOutputs _ value
  · unfold dispatch at h
    split at h
    · next own hcommand =>
        obtain rfl := Except.error.inj (Scheduling.Next.done.inj h)
        exact fresh own (failsFresh_commandOf setting info workplace _ own hcommand)
    · next command prepared hcommand =>
        dsimp only at h
        split at h
        · next own after hdispatch =>
            obtain rfl := Except.error.inj (Scheduling.Next.done.inj h)
            exact executor.dispatch prepared world own (by rw [hdispatch])
        · cases h
  · obtain rfl := Except.error.inj (Scheduling.Next.done.inj h)
    exact fresh _ ⟨rfl, rfl⟩

lemma failsAs_start {params : Values}
    (h : (start setting info params world).1.next = .done (.error failure)) : P failure := by
  have hsettled := failsFresh_onFiles world (worksFresh_settleIn setting info params)
  unfold start at h
  generalize onFiles world (settleIn setting info params) = settled at h hsettled
  obtain ⟨own | workplace, events, after⟩ := settled
  · obtain rfl := Except.error.inj (Scheduling.Next.done.inj h)
    exact fresh own (hsettled own rfl)
  · dsimp only at h
    have hstaged := failsFresh_onFiles after (worksFresh_stageIn setting info workplace)
    generalize onFiles after (stageIn setting.interpreter info workplace) = staged at h hstaged
    obtain ⟨own | _, more, last⟩ := staged
    · obtain rfl := Except.error.inj (Scheduling.Next.done.inj h)
      exact fresh own (hstaged own rfl)
    · exact failsAs_perform fresh executor h

lemma failsAs_turn {p : Polling} (live : world.cancelled = true → P Polling.runCancelled)
    (h : (p.turn setting.executor setting.config world).1 = .ended (.error failure)) : P failure := by
  unfold Polling.turn at h
  split_ifs at h with hcancelled
  · obtain rfl := Except.error.inj (Polling.Progress.ended.inj h)
    exact live hcancelled
  · split at h
    · next own after hstatus =>
        obtain rfl := Except.error.inj (Polling.Progress.ended.inj h)
        exact executor.status p.handle world own (by rw [hstatus])
    · split at h
      · next result hjudge =>
          exact fresh failure (failsFresh_judge hjudge failure (Polling.Progress.ended.inj h))
      · cases h
      · obtain rfl := Except.error.inj (Polling.Progress.ended.inj h)
        exact fresh _ ⟨rfl, rfl⟩

lemma failsAs_resume {params : Values} {running : Running}
    (live : world.cancelled = true → P Polling.runCancelled)
    (h : (resume setting info params running world).1.next = .done (.error failure)) : P failure := by
  unfold resume at h
  have hturn {own : Failure}
      (h : (running.polling.turn setting.executor setting.config world).1 = .ended (.error own)) : P own :=
    failsAs_turn fresh executor live h
  generalize running.polling.turn setting.executor setting.config world = turned at h hturn
  obtain ⟨progress, events, after⟩ := turned
  cases progress with
  | again polling => cases h
  | ended result =>
      cases result with
      | error own =>
          obtain rfl := Except.error.inj (Scheduling.Next.done.inj h)
          exact hturn rfl
      | ok _ => exact fresh failure (Outputs.worksFresh_toolOutputs _ _ [] failure (Scheduling.Next.done.inj h))

end Turns

lemma isFresh_of_spawn {tool : PreparedTool} {now : Nat} {files : FileTree} {failure : Failure}
    (h : spawn tool now files = .error failure) : failure.IsFresh := by
  unfold spawn at h
  dsimp only at h
  split_ifs at h
  · split at h
    · cases h
    · obtain rfl := Except.error.inj h
      exact ⟨rfl, rfl⟩
  · obtain rfl := Except.error.inj h
    exact ⟨rfl, rfl⟩

/-- The executor that runs tools in place only fails to start their processes. -/
lemma localExecutor_failsAs_fresh (identifiers : Nat → String) :
    (localExecutor identifiers).FailsAs Failure.IsFresh where
  dispatch tool world failure h := by
    simp only [localExecutor] at h
    cases hspawn : spawn tool world.now world.files with
    | ok spawned =>
        rw [hspawn] at h
        cases h
    | error own =>
        rw [hspawn] at h
        obtain rfl := Except.error.inj h
        exact isFresh_of_spawn hspawn
  status handle world failure h := by
    cases h

end Tool

namespace Scheduling

open Machine (ready)

variable {ε : Type} {engine : Engine ε} {document : Document} {directory : RunDirectory}
  {c : Circumstances (Tool.World ε)}

/-- **How the tools of an engine fail**: freshly, or as its executor does, or with the cancellation of a run. -/
theorem machine_failsAs {P : Failure → Prop} (fresh : ∀ f : Failure, f.IsFresh → P f)
    (executor : engine.executor.FailsAs P)
    (live : ∀ world, c.admits world → world.cancelled = true → P Tool.Polling.runCancelled) :
    (engine.machine document directory).FailsAs c P := by
  let setting : Tool.Setting ε := ⟨evaluateJson, engine.config, directory, engine.executor⟩
  have hexecutor : setting.executor.FailsAs P := executor
  have hbehavior : (engine.machine document directory).behavior = Tool.behavior setting := rfl
  constructor
  · intro info params world failure _ h
    simp only [hbehavior, Tool.behavior] at h
    exact Tool.failsAs_start fresh hexecutor h
  · intro info params running world failure admitted h
    simp only [hbehavior, Tool.behavior] at h
    exact Tool.failsAs_resume fresh hexecutor (live world admitted) h

variable {root tree : RunTask} {params : Values} {failure : Failure}

/-- **The engine blames a failed task** in every run, also in one that is cancelled, as long as the failures of its
executor name no task: the reported failure is that of a task of the tree, and the reported id is the id of this
task, or of its step where its expressions failed. -/
theorem engine_blames_failed_task (executor : engine.executor.FailsAs fun f => f.task = none)
    (accepted : resolve document = .ok root)
    (run : (engine.machine document directory).Runs c (ready root params) tree)
    (returned : tree.phase = .returned) (reported : Engine.resultOf tree = .failed failure) :
    ∃ d ∈ tree.descendants, d.status = .failed failure ∧
      Blames (engine.machine document directory) d failure := by
  have tools : (engine.machine document directory).FailsAs c fun f => f.task = none :=
    machine_failsAs (fun _ fresh => fresh.2) executor fun _ _ _ => rfl
  have evaluator : (engine.machine document directory).evaluator.FailsAs fun f => f.task = none :=
    (Binding.evaluator_failsAs_fresh evaluateJson).imp fun _ fresh => fresh.2
  have hdone := ((Machine.sound_of_runs accepted run).here.2.returned returned).here.1
  exact exists_blamed (Machine.traced_of_runs accepted run tools evaluator)
    (Machine.status_of_resultOf hdone reported)

/-- **The engine reports real failures**: in a run that is not cancelled and in which no work breaks off, no
cancellation, as long as the failures of its executor are none. -/
theorem engine_reports_no_cancellation (executor : engine.executor.FailsAs fun f => f.isCancelled = false)
    (accepted : resolve document = .ok root)
    (run : (engine.machine document directory).Runs c (ready root params) tree)
    (live : ∀ world, c.admits world → world.cancelled = false) (calm : ¬ c.breaksOff)
    (returned : tree.phase = .returned) (reported : Engine.resultOf tree = .failed failure) :
    failure.isCancelled = false := by
  have tools : (engine.machine document directory).FailsAs c fun f => f.isCancelled = false :=
    machine_failsAs (fun _ fresh => fresh.1) executor fun world admitted hcancelled => by
      rw [live world admitted] at hcancelled
      cases hcancelled
  have evaluator : (engine.machine document directory).evaluator.FailsAs fun f => f.isCancelled = false :=
    (Binding.evaluator_failsAs_fresh evaluateJson).imp fun _ fresh => fresh.1
  obtain ⟨hcaused, hroot⟩ := Machine.caused_of_runs accepted run live calm tools evaluator
  have hfailed := Machine.status_of_resultOf (hcaused.here.ended returned) reported
  exact (hcaused.here.explained failure hfailed).real returned (hroot returned)

end Scheduling

end WorkflowEngine
