import WorkflowEngine.Proofs.CollectedFiles
import WorkflowEngine.Proofs.PlainPatterns

/-!
# Captured streams

An output of type `stdout` or `stderr` is the file that a tool's stream is captured in.  The name of this file
is used twice: the command line redirects the stream to it, and the output is searched for by it.

**Names.**  A command line names a file for every stream that an output stands for (`exists_captured`).

**Search.**  A name is a pattern when it is searched for.  If the path of the file has no special characters,
the file is found, and nothing else (`exists_collects`).

**Collection.**  So the output is the captured file, with its secondary files: `captured_streams_collected`.
With special characters the file is not found by its own name: `bracketed_stream_lost`.
-/

namespace WorkflowEngine

open Document (DataType Output Process)
open CommandLine (Command assemble captureFile)
open WorkflowEngine.Path (isAbsolute)
open Binding (isExpressionPattern)

/-! ## Names -/

namespace CommandLine

/-- The file that a stream is captured in. -/
def Command.captured (command : Command) : Stream → Option String
  | .stdout => command.stdout
  | .stderr => command.stderr

lemma Stream.eq_of_isTypeOf {stream : Stream} {type : DataType} (h : stream.isTypeOf type = true) :
    stream = .stdout ∧ type = .stdout ∨ stream = .stderr ∧ type = .stderr := by
  unfold isTypeOf at h
  split at h
  · exact .inl ⟨of_decide_eq_true h, rfl⟩
  · exact .inr ⟨of_decide_eq_true h, rfl⟩
  · cases h

variable {interpreter : Interpreter} {process : Process} {output : Output} {stream : Stream}
  {context : ExprContext}

lemma isSome_of_captureFile {field file : Option String} (declared : output ∈ process.outputs)
    (shorthand : stream.isTypeOf output.type.nonNull = true)
    (h : captureFile interpreter process stream field context = .ok file) : ∃ name, file = some name := by
  unfold captureFile at h
  split at h
  · obtain ⟨name, -, rfl⟩ := map_eq_ok_iff.mp h
    exact ⟨name, rfl⟩
  · rw [if_pos (List.any_eq_true.mpr ⟨output, declared, shorthand⟩)] at h
    exact ⟨_, (Except.ok.inj h).symm⟩

/-- **Every stream that an output stands for is captured.** -/
lemma exists_captured {line : Document.CommandLine} {provided : Values} {shell : Bool} {command : Command}
    (assembled : assemble interpreter process line provided context shell = .ok command)
    (declared : output ∈ process.outputs) (shorthand : stream.isTypeOf output.type.nonNull = true) :
    ∃ name, command.captured stream = some name := by
  obtain ⟨_, -, h⟩ := bind_eq_ok.mp assembled
  obtain ⟨_, -, h⟩ := bind_eq_ok.mp h
  obtain ⟨_, -, h⟩ := bind_eq_ok.mp h
  obtain ⟨stdout, hstdout, h⟩ := bind_eq_ok.mp h
  obtain ⟨stderr, hstderr, h⟩ := bind_eq_ok.mp h
  obtain rfl := Except.ok.inj h
  cases stream with
  | stdout => exact isSome_of_captureFile declared shorthand hstdout
  | stderr => exact isSome_of_captureFile declared shorthand hstderr

end CommandLine

namespace Outputs

lemma liftM_ok_bind {α β : Type} (a : α) (f : α → Logged β) :
    (liftM (.ok a : Outcome α) : Logged α) >>= f = f a := rfl

variable {site : Site} {output : Output} {stream : CommandLine.Stream}

/-! ## Search -/

/-- The pattern of an output is the file that its stream is captured in. -/
lemma patternsOf_of_isTypeOf {command : Command} {name : String} (hstdout : site.stdout = command.stdout)
    (hstderr : site.stderr = command.stderr) (shorthand : stream.isTypeOf output.type.nonNull = true)
    (hname : command.captured stream = some name) : patternsOf site output = .ok (some [name]) := by
  rcases CommandLine.Stream.eq_of_isTypeOf shorthand with ⟨rfl, htype⟩ | ⟨rfl, htype⟩
  · simp only [patternsOf, htype, hstdout.trans hname]
    rfl
  · simp only [patternsOf, htype, hstderr.trans hname]
    rfl

lemma wantsDirectories_of_isTypeOf (shorthand : stream.isTypeOf output.type.nonNull = true) :
    wantsDirectories output.type = false := by
  rcases CommandLine.Stream.eq_of_isTypeOf shorthand with ⟨-, htype⟩ | ⟨-, htype⟩ <;>
    rw [wantsDirectories, htype]

lemma reconcile_of_isTypeOf (shorthand : stream.isTypeOf output.type.nonNull = true) (v : Value) :
    reconcile output [v] = .ok v := by
  rcases CommandLine.Stream.eq_of_isTypeOf shorthand with ⟨-, htype⟩ | ⟨-, htype⟩
  · rw [reconcile, htype]
    rfl
  · rw [reconcile, htype]
    rfl

/-- A file is the one match of its own path. -/
lemma exists_matchingPaths (absolute : isAbsolute site.directory = true) {name : String}
    (there : site.tree.isFile (Path.join site.directory name) = true)
    (plain : Glob.IsPlain (Path.join site.directory name)) :
    ∃ found, matchingPaths site false name = .ok [found] ∧ isAbsolute found = true ∧
      Path.components found = Path.components (Path.join site.directory name) ∧
      site.tree.nodeAt found = site.tree.nodeAt (Path.join site.directory name) := by
  obtain ⟨found, hglob, hcomponents, hnode⟩ :=
    Glob.glob_of_plain (Path.isAbsolute_join absolute name) plain there
  have hfile : site.tree.isFile found = true := (FileTree.isFile_congr hnode).trans there
  have hmatching : matchingPaths site false name = .ok [found] := by
    unfold matchingPaths
    rw [hglob]
    simp [hfile]
  exact ⟨found, hmatching, isAbsolute_of_matchingPaths absolute hmatching found (List.mem_singleton_self _),
    hcomponents, hnode⟩

/-- A file that is there has a value. -/
lemma exists_foundValue {path : String} (absolute : isAbsolute path = true)
    (there : site.tree.isFile path = true) (contents : Bool) :
    ∃ f, foundValue site false contents path = .ok (.file f) ∧ f.path = path := by
  have hpath : (FileValue.ofPath site.tree path).path = path := by
    rw [(Bindable.ofPath absolute).path, FileValue.location_ofPath]
  rw [foundValue, if_neg Bool.false_ne_true]
  generalize FileValue.ofPath site.tree path = file at hpath ⊢
  cases contents with
  | false => exact ⟨file, rfl, hpath⟩
  | true =>
      rw [FileTree.isFile] at there
      split at there
      · next bytes hnode =>
          have hread : Files.readPrefix site.tree path site.config.contentsLimit .outputCollector =
              .ok (Text.decodeLossy (bytes.take site.config.contentsLimit)) := by
            rw [Files.readPrefix, hnode]
            rfl
          refine ⟨{ file with contents := some (Text.decodeLossy (bytes.take site.config.contentsLimit)) }, ?_,
            hpath⟩
          rw [hread]
          rfl
      · cases there

/-! ## Secondary files -/

/-- Another file is the same but for its secondary files. -/
def SameFile (f g : FileValue) : Prop := ∃ secondary, g = { f with secondaryFiles := secondary }

lemma SameFile.trans {f g h : FileValue} (hfg : SameFile f g) (hgh : SameFile g h) : SameFile f h := by
  obtain ⟨_, rfl⟩ := hfg
  obtain ⟨secondary, rfl⟩ := hgh
  exact ⟨secondary, rfl⟩

lemma sameFile_of_addCandidate {f g : FileValue} {candidate : Value} {before after : List Event}
    (h : (addCandidate site f candidate).run before = (.ok g, after)) : SameFile f g := by
  obtain ⟨path, -, rfl⟩ := addCandidate_eq_ok h
  split_ifs
  · exact ⟨_, rfl⟩
  · exact ⟨f.secondaryFiles, rfl⟩

lemma sameFile_of_addSecondary {f g : FileValue} {pattern : String} {before after : List Event}
    (h : (addSecondary site f pattern).run before = (.ok g, after)) : SameFile f g := by
  obtain ⟨candidates, _, -, h⟩ := Logged.bind_eq_ok.mp h
  exact Logged.foldlM_keeps (fun _ _ _ _ _ hsame hrun => hsame.trans (sameFile_of_addCandidate hrun))
    ⟨f.secondaryFiles, rfl⟩ h

/-- Secondary files are all that is added to a file. -/
lemma eq_of_withSecondary {f : FileValue} {v : Value} {before after : List Event}
    (h : (withSecondary site output (.file f)).run before = (.ok v, after)) :
    ∃ secondary, v = .file { f with secondaryFiles := secondary } := by
  obtain ⟨g, _, hg, h⟩ := Logged.bind_eq_ok.mp h
  obtain rfl : .file g = v := Except.ok.inj (Prod.mk.inj h).1
  have hsame : SameFile f g :=
    Logged.foldlM_keeps (fun _ _ _ _ _ hsame hrun => hsame.trans (sameFile_of_addSecondary hrun))
      ⟨f.secondaryFiles, rfl⟩ hg
  obtain ⟨secondary, rfl⟩ := hsame
  exact ⟨secondary, rfl⟩

/-- A name is always looked for. -/
lemma exists_of_addCandidate (site : Site) (f : FileValue) (name : String) (before : List Event) :
    ∃ g after, (addCandidate site f (.str name)).run before = (.ok g, after) := by
  by_cases hexists : site.tree.exists? (Path.join f.dirname name) = true
  · let secondary := (FileValue.ofPath site.tree (Path.join f.dirname name)).toJson
    refine ⟨{ f with secondaryFiles := f.secondaryFiles ++ [secondary] }, before,
      Logged.bind_eq_ok.mpr ⟨Path.join f.dirname name, before, rfl, ?_⟩⟩
    rw [if_pos hexists]
    rfl
  · let path := Path.join f.dirname name
    let missing : Event := ⟨.warning, "secondary file " ++ path ++ " of " ++ f.path ++ " not found"⟩
    refine ⟨f, before ++ [missing], Logged.bind_eq_ok.mpr ⟨path, before, rfl, ?_⟩⟩
    rw [if_neg hexists]
    rfl

/-- Secondary files that are named by suffixes are looked for without failure. -/
lemma exists_of_withSecondary (suffixes : ∀ p ∈ output.secondaryFiles, isExpressionPattern p = false)
    (f : FileValue) (before : List Event) :
    ∃ v after, (withSecondary site output (.file f)).run before = (.ok v, after) := by
  have hadd : ∀ p ∈ output.secondaryFiles, ∀ b : FileValue, True → ∀ own, ∃ b' rest,
      (addSecondary site b p).run own = (.ok b', rest) ∧ True := by
    intro p hp b _ own
    have hcandidates : secondaryCandidates site b p = .ok [.str (Path.secondaryPath b.path p)] := by
      rw [secondaryCandidates, suffixes p hp, if_neg Bool.false_ne_true]
    obtain ⟨b', rest, hrun⟩ := exists_of_addCandidate site b (Path.secondaryPath b.path p) own
    refine ⟨b', rest, Logged.bind_eq_ok.mpr ⟨_, own, by rw [hcandidates]; rfl, ?_⟩, trivial⟩
    rw [List.foldlM_cons]
    exact Logged.bind_eq_ok.mpr ⟨b', rest, hrun, rfl⟩
  obtain ⟨g, after, hrun, -⟩ := Logged.foldlM_ends hadd f trivial before
  exact ⟨.file g, after, Logged.bind_eq_ok.mpr ⟨g, after, hrun, rfl⟩⟩

/-! ## Collection -/

/-- An output is the file at a path: it is collected as the value of that file, to which the secondary files
are added.  The path of the value may have other slashes than the one that was asked for. -/
structure Collects (site : Site) (output : Output) (path : String) (f : FileValue) : Prop where
  components : Path.components f.path = Path.components path
  node : site.tree.nodeAt f.path = site.tree.nodeAt path
  value : foundValue site false (output.binding.elim false (·.loadContents)) f.path = .ok (.file f)
  collected : collect site output = withSecondary site output (.file f)

/-- **A captured file is collected**, if its path has no special characters. -/
lemma exists_collects {name : String} (patterns : patternsOf site output = .ok (some [name]))
    (shorthand : stream.isTypeOf output.type.nonNull = true)
    (unasked : output.binding.bind (·.outputEval) = none) (absolute : isAbsolute site.directory = true)
    (there : site.tree.isFile (Path.join site.directory name) = true)
    (plain : Glob.IsPlain (Path.join site.directory name)) :
    ∃ f, Collects site output (Path.join site.directory name) f := by
  obtain ⟨found, hmatching, hfound, hcomponents, hnode⟩ := exists_matchingPaths absolute there plain
  have hfile : site.tree.isFile found = true := (FileTree.isFile_congr hnode).trans there
  obtain ⟨f, hvalue, rfl⟩ := exists_foundValue hfound hfile (output.binding.elim false (·.loadContents))
  refine ⟨f, hcomponents, hnode, hvalue, ?_⟩
  have hall : findAll site false (output.binding.elim false (·.loadContents)) [name] = .ok [.file f] :=
    bind_eq_ok.mpr ⟨[[f.path]], mapM_eq_ok_iff.mpr (.cons hmatching .nil),
      mapM_eq_ok_iff.mpr (.cons hvalue .nil)⟩
  -- The one pattern has one match, so one value is left to be fitted to the type.
  rw [collect, patterns, liftM_ok_bind]
  dsimp only
  rw [wantsDirectories_of_isTypeOf shorthand, hall, liftM_ok_bind, unasked, List.mapM_cons, List.mapM_nil]
  simp only [pure_bind, bind_assoc, reconcile_of_isTypeOf shorthand]
  exact bind_pure _

namespace Collects

variable {path : String} {f : FileValue}

lemma eq_file (h : Collects site output path f) {v : Value} {before after : List Event}
    (run : (collect site output).run before = (.ok v, after)) :
    ∃ secondary, v = .file { f with secondaryFiles := secondary } := by
  rw [h.collected] at run
  exact eq_of_withSecondary run

lemma ends (h : Collects site output path f)
    (suffixes : ∀ p ∈ output.secondaryFiles, isExpressionPattern p = false) (before : List Event) :
    ∃ v after, (collect site output).run before = (.ok v, after) := by
  rw [h.collected]
  exact exists_of_withSecondary suffixes f before

variable {process : Process}

/-- The file is among the outputs of a tool that does not report them. -/
lemma find?_of_toolOutputs (h : Collects site output path f)
    (unreported : site.tree.isFile (Path.join site.directory reportName) = false)
    (last : OrderedMap.lastWith Output.id process.outputs output.id = some output) {outputs : Values}
    {before after : List Event} (run : (toolOutputs site process).run before = (.ok outputs, after)) :
    ∃ secondary, outputs.find? output.id = some (.file { f with secondaryFiles := secondary }) := by
  unfold toolOutputs at run
  dsimp only at run
  rw [unreported, if_neg Bool.false_ne_true] at run
  have hfind := Logged.find?_of_collect (k := output.id) run
  rw [last] at hfind
  obtain ⟨v, ⟨_, _, hrun⟩, hv⟩ := hfind
  obtain ⟨secondary, rfl⟩ := h.eq_file hrun
  exact ⟨secondary, hv⟩

lemma toolOutputs_ends (h : Collects site output path f)
    (suffixes : ∀ p ∈ output.secondaryFiles, isExpressionPattern p = false)
    (unreported : site.tree.isFile (Path.join site.directory reportName) = false)
    (others : ∀ other ∈ process.outputs, other ≠ output →
      ∀ own, ∃ v rest, (collect site other).run own = (.ok v, rest)) (before : List Event) :
    ∃ outputs after, (toolOutputs site process).run before = (.ok outputs, after) := by
  unfold toolOutputs
  dsimp only
  rw [unreported, if_neg Bool.false_ne_true]
  refine Logged.collect_ends Output.id (fun other hother own => ?_) [] before
  by_cases hsame : other = output
  · exact hsame ▸ h.ends suffixes own
  · exact others other hother hsame own

end Collects

/-- **Outputs of the types `stdout` and `stderr` are the captured files.**  A command line names a file for
them.  If it is in the working directory, and its path has no special characters, then the output is this file
and no other; only an expression for secondary files can fail. -/
theorem captured_streams_collected {interpreter : Interpreter} {process : Process}
    {line : Document.CommandLine} {provided : Values} {context : ExprContext} {shell : Bool}
    {command : Command}
    (assembled : assemble interpreter process line provided context shell = .ok command)
    (declared : output ∈ process.outputs) (shorthand : stream.isTypeOf output.type.nonNull = true)
    (unasked : output.binding.bind (·.outputEval) = none)
    (hstdout : site.stdout = command.stdout) (hstderr : site.stderr = command.stderr)
    (absolute : isAbsolute site.directory = true) :
    ∃ name, command.captured stream = some name ∧
      (site.tree.isFile (Path.join site.directory name) = true →
        Glob.IsPlain (Path.join site.directory name) →
        ∃ f, Collects site output (Path.join site.directory name) f ∧
          (∀ v before after, (collect site output).run before = (.ok v, after) →
            ∃ secondary, v = .file { f with secondaryFiles := secondary }) ∧
          ((∀ p ∈ output.secondaryFiles, isExpressionPattern p = false) →
            ∀ before, ∃ v after, (collect site output).run before = (.ok v, after)) ∧
          (site.tree.isFile (Path.join site.directory reportName) = false →
            (OrderedMap.lastWith Output.id process.outputs output.id = some output →
              ∀ outputs before after, (toolOutputs site process).run before = (.ok outputs, after) →
                ∃ secondary, outputs.find? output.id = some (.file { f with secondaryFiles := secondary })) ∧
            ((∀ p ∈ output.secondaryFiles, isExpressionPattern p = false) →
              (∀ other ∈ process.outputs, other ≠ output →
                ∀ own, ∃ v rest, (collect site other).run own = (.ok v, rest)) →
              ∀ before, ∃ outputs after, (toolOutputs site process).run before = (.ok outputs, after)))) := by
  obtain ⟨name, hname⟩ := CommandLine.exists_captured assembled declared shorthand
  refine ⟨name, hname, fun there plain => ?_⟩
  have hpatterns := patternsOf_of_isTypeOf hstdout hstderr shorthand hname
  obtain ⟨f, hf⟩ := exists_collects hpatterns shorthand unasked absolute there plain
  exact ⟨f, hf, fun _ _ _ => hf.eq_file, hf.ends, fun unreported =>
    ⟨fun last _ _ _ => hf.find?_of_toolOutputs unreported last,
      fun suffixes => hf.toolOutputs_ends suffixes unreported⟩⟩

/-- A tool that prints a number. -/
def printTool (id : String) : Process :=
  { countTool (.commandLineTool ⟨["count"], [], none, none, none⟩) .stdout none with id }

/-- Its output. -/
def printOutput : Output := ⟨"n", .stdout, none, [], []⟩

/-- A directory in which it has printed one. -/
def printSite (name : String) : Site := { workSite name "3" with stdout := some name }

/-- The command line of the tool. -/
def printCommand (id : String) : Outcome Command :=
  assemble evaluateJson (printTool id) ⟨["count"], [], none, none, none⟩ [] (.ofInputs []) false

/-- What was printed is found behind two slashes. -/
theorem count_stdout_collected :
    ∃ outputs after f,
      (toolOutputs { printSite "count.stdout" with directory := "//work/" } (printTool "#count")).run [] =
        (.ok outputs, after) ∧
      outputs.find? "n" = some (.file f) ∧
      Path.components f.path = [.root, .normal "work", .normal "count.stdout"] := by
  let site : Site := { printSite "count.stdout" with directory := "//work/" }
  have assembled : printCommand "#count" =
      .ok ⟨["\"count\"", "1>>", "\"count.stdout\""], none, some "count.stdout", none⟩ := by decide +kernel
  have shorthand : CommandLine.Stream.stdout.isTypeOf printOutput.type.nonNull = true := rfl
  have hstdout : site.stdout = some "count.stdout" := rfl
  obtain ⟨name, hname, hcollects⟩ := captured_streams_collected assembled (List.mem_singleton_self printOutput)
    shorthand rfl hstdout rfl (by decide +kernel)
  obtain rfl : "count.stdout" = name := Option.some.inj hname
  obtain ⟨f, hf, -, -, houtputs⟩ := hcollects (by decide +kernel) (by decide +kernel)
  have unreported : site.tree.isFile (Path.join site.directory reportName) = false := by decide +kernel
  obtain ⟨hvalue, hends⟩ := houtputs unreported
  obtain ⟨outputs, after, run⟩ := hends (fun _ hp => absurd hp List.not_mem_nil)
    (fun other hother hne => absurd (List.mem_singleton.mp hother) hne) []
  obtain ⟨secondary, hfind⟩ := hvalue rfl outputs [] after run
  exact ⟨outputs, after, _, run, hfind, hf.components.trans (by decide +kernel)⟩

/-- A tool that is called `tool[1]` prints to a file that its output does not find: as a pattern, the name of
the file stands for `tool1.stdout`. -/
theorem bracketed_stream_lost :
    ∃ command, printCommand "#tool[1]" = .ok command ∧ command.stdout = some "tool[1].stdout" ∧
      (printSite "tool[1].stdout").tree.isFile "/work/tool[1].stdout" = true ∧
      (printSite "tool[1].stdout").tree.isFile (Path.join "/work" reportName) = false ∧
      ((collect (printSite "tool[1].stdout") printOutput).run []).1 =
        .error (.output "output 'n' of type stdout matched 0 files, expected exactly one") := by
  refine ⟨⟨["\"count\"", "1>>", "\"tool[1].stdout\""], none, some "tool[1].stdout", none⟩,
    by decide +kernel, rfl, by decide +kernel, by decide +kernel,
    (map_eq_error_iff (f := fun _ => ())).mp ?_⟩
  decide +kernel

end Outputs

end WorkflowEngine
