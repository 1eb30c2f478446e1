import WorkflowEngine.Proofs.AbsolutePaths
import WorkflowEngine.Proofs.Normalization
import WorkflowEngine.Proofs.ObtainedValues
import WorkflowEngine.Proofs.RoundTrips

/-!
# Collected files as inputs

What one tool leaves in its working directory is the input of the next one.  It is written as JSON, read
again, and bound: its location is expanded, its names are derived again and its secondary files are attached.
None of this changes a file that was searched for.

**Collection.**  A search in an absolute directory gives files that are `Bindable`: they have an absolute path
for a location, the names that follow from it, and list every secondary file that there is
(`bindable_of_collect`).  Each step of a collection keeps this.

**Binding.**  A bindable file is read as it was written (`Bindable.ofJson_toJson`), stands for no shared data
(`Bindable.normalizeFiles_eq`), and needs none of the secondary files that it was collected with
(`Bindable.attachSecondary_run`).

**Both.**  `collected_files_bind_unmodified`: a file that was collected for an output is bound as it is to
every input that takes the output.
-/

namespace WorkflowEngine

open Document (Input Output Process)
open WorkflowEngine.Path (isAbsolute secondaryPath)
open Binding (listsSecondary isExpressionPattern)

/-! ## Bindable files -/

lemma not_prefix_of_head? {opening cs : List Char} {c d : Char} (hopening : opening.head? = some c)
    (hcs : cs.head? = some d) (hne : c ≠ d) : ¬ opening <+: cs := by
  rintro ⟨rest, rfl⟩
  rw [List.head?_append, hopening, Option.some_or] at hcs
  exact hne (Option.some.inj hcs)

/-- An absolute path is no URL. -/
lemma FileUrl.locationPath_of_isAbsolute {location : String} (h : isAbsolute location = true) :
    locationPath location = location := by
  have hscheme : ¬ scheme <+: location.toList :=
    not_prefix_of_head? (c := 'f') (by decide +kernel) (Path.isAbsolute_iff.mp h) (by decide)
  rw [locationPath, if_neg]
  rwa [List.isPrefixOf_iff_prefix]

/-- The names of a file do not depend on what it holds. -/
lemma FileValue.locate_update (f : FileValue) (contents : Option String) (size : Option Nat)
    (secondaryFiles : List Json) (location : String) :
    locate { f with contents, size, secondaryFiles } location =
      { f.locate location with contents, size, secondaryFiles } := by
  rw [locate_eq, locate_eq]

lemma FileValue.field?_location_toJson (f : FileValue) :
    f.toJson.field? "location" = some (.str f.location) := rfl

lemma FileValue.location_ofPath (tree : FileTree) (path : String) :
    (ofPath tree path).location = path := by
  rw [ofPath, ofLocation, location_locate]

/-- A file that binding leaves alone: its location is an absolute path, its names are those of the location,
and it lists the secondary files that some patterns name. -/
structure Bindable (tree : FileTree) (patterns : List String) (f : FileValue) : Prop where
  absolute : isAbsolute f.location = true
  located : f.locate f.location = f
  listed : ∀ p ∈ patterns, isExpressionPattern p = false →
    tree.exists? (secondaryPath f.path p) = true → listsSecondary f (secondaryPath f.path p) = true

namespace Bindable

variable {tree : FileTree} {patterns : List String} {f : FileValue}

lemma path (h : Bindable tree patterns f) : f.path = f.location := by
  have hpath : (f.locate f.location).path = FileUrl.locationPath f.location := by
    rw [FileValue.locate_eq]
  rwa [h.located, FileUrl.locationPath_of_isAbsolute h.absolute] at hpath

/-- A file may get contents, a size and further secondary files. -/
lemma extend (h : Bindable tree patterns f) (contents : Option String) (size : Option Nat)
    {secondaryFiles : List Json} (hsecondary : f.secondaryFiles ⊆ secondaryFiles) :
    Bindable tree patterns { f with contents, size, secondaryFiles } := by
  refine ⟨h.absolute, ?_, fun p hp hsuffix hexists => ?_⟩
  · rw [FileValue.locate_update, h.located]
  · obtain ⟨secondary, hmem, hlocation⟩ := List.any_eq_true.mp (h.listed p hp hsuffix hexists)
    exact List.any_eq_true.mpr ⟨secondary, hsecondary hmem, hlocation⟩

/-- A file lists what one more pattern names. -/
lemma listing (h : Bindable tree patterns f) {p : String}
    (hp : isExpressionPattern p = false → tree.exists? (secondaryPath f.path p) = true →
      listsSecondary f (secondaryPath f.path p) = true) :
    Bindable tree (patterns ++ [p]) f := by
  refine ⟨h.absolute, h.located, fun q hq => ?_⟩
  rcases List.mem_append.mp hq with hq | hq
  · exact h.listed q hq
  · obtain rfl := List.mem_singleton.mp hq
    exact hp

lemma ofPath {path : String} (h : isAbsolute path = true) : Bindable tree [] (.ofPath tree path) := by
  have hplace : Bindable tree [] (.ofLocation path) := by
    refine ⟨?_, ?_, fun p hp => absurd hp List.not_mem_nil⟩
    · rwa [FileValue.ofLocation, FileValue.location_locate]
    · rw [FileValue.ofLocation, FileValue.location_locate, FileValue.locate_locate]
  exact hplace.extend _ _ (List.Subset.refl _)

end Bindable

/-! ## Collection -/

namespace Outputs

variable {site : Site} {output : Output}

/-- The files of a value are bindable. -/
def AllBindable (site : Site) (patterns : List String) (v : Value) : Prop :=
  ∀ f ∈ v.files, Bindable site.tree patterns f

lemma allBindable_directory (patterns : List String) (d : DirectoryValue) :
    AllBindable site patterns (.directory d) :=
  fun _ hf => absurd hf List.not_mem_nil

lemma allBindable_file {patterns : List String} {f : FileValue} (h : Bindable site.tree patterns f) :
    AllBindable site patterns (.file f) :=
  fun _ hf => List.mem_singleton.mp hf ▸ h

/-- Patterns are seen from the working directory. -/
lemma isAbsolute_of_matchingPaths (absolute : isAbsolute site.directory = true) {directories : Bool}
    {pattern : String} {paths : List String}
    (h : matchingPaths site directories pattern = .ok paths) : ∀ p ∈ paths, isAbsolute p = true := by
  unfold matchingPaths at h
  split at h
  case h_1 => cases h
  case h_2 found hglob =>
    obtain rfl := Except.ok.inj h
    intro p hp
    have hkept := List.mem_of_mem_filter (List.mem_mergeSort.mp hp)
    exact Glob.isAbsolute_of_glob (Path.isAbsolute_join absolute pattern) hglob p hkept

lemma allBindable_of_foundValue {directories contents : Bool} {path : String} {v : Value}
    (habsolute : isAbsolute path = true) (h : foundValue site directories contents path = .ok v) :
    AllBindable site [] v := by
  have hfile : Bindable site.tree [] (.ofPath site.tree path) := .ofPath habsolute
  unfold foundValue at h
  dsimp only at h
  split_ifs at h
  · obtain rfl := Except.ok.inj h
    exact allBindable_directory [] _
  · obtain ⟨text, -, rfl⟩ := map_eq_ok_iff.mp h
    exact allBindable_file (hfile.extend (some text) _ (List.Subset.refl _))
  · obtain rfl := Except.ok.inj h
    exact allBindable_file hfile

lemma allBindable_of_findAll (absolute : isAbsolute site.directory = true) {directories contents : Bool}
    {patterns : List String} {found : List Value}
    (h : findAll site directories contents patterns = .ok found) :
    ∀ v ∈ found, AllBindable site [] v := by
  obtain ⟨paths, hpaths, h⟩ := bind_eq_ok.mp h
  intro v hv
  obtain ⟨path, hpath, hvalue⟩ := forall₂_mem_right (mapM_eq_ok_iff.mp h) hv
  obtain ⟨own, hown, hmem⟩ := List.mem_flatten.mp hpath
  obtain ⟨pattern, -, hpattern⟩ := forall₂_mem_right (mapM_eq_ok_iff.mp hpaths) hown
  exact allBindable_of_foundValue (isAbsolute_of_matchingPaths absolute hpattern path hmem) hvalue

/-! ### Secondary files -/

/-- A candidate that exists is added at the end, and nothing else changes. -/
lemma addCandidate_eq_ok {f f' : FileValue} {candidate : Value} {before after : List Event}
    (h : (addCandidate site f candidate).run before = (.ok f', after)) :
    ∃ path, candidatePath f candidate = .ok path ∧
      f' = if site.tree.exists? path then
        { f with secondaryFiles := f.secondaryFiles ++ [(FileValue.ofPath site.tree path).toJson] }
      else f := by
  obtain ⟨path, _, hpath, h⟩ := Logged.bind_eq_ok.mp h
  refine ⟨path, Logged.liftM_eq_ok hpath, ?_⟩
  dsimp only at h
  split_ifs at h ⊢
  · exact (Except.ok.inj (Prod.mk.inj h).1).symm
  · obtain ⟨_, _, -, h⟩ := Logged.bind_eq_ok.mp h
    exact (Except.ok.inj (Prod.mk.inj h).1).symm

lemma bindable_of_addCandidate {patterns : List String} {f f' : FileValue} {candidate : Value}
    {before after : List Event} (hf : Bindable site.tree patterns f)
    (h : (addCandidate site f candidate).run before = (.ok f', after)) :
    Bindable site.tree patterns f' := by
  obtain ⟨path, -, rfl⟩ := addCandidate_eq_ok h
  split_ifs
  · exact hf.extend f.contents f.size (List.subset_append_left _ _)
  · exact hf

/-- The candidate of a pattern is listed under its own path: that is absolute already, and is not looked for
in the directory of the file. -/
lemma listsSecondary_of_addCandidate {patterns : List String} {f f' : FileValue} {p : String}
    {before after : List Event} (hf : Bindable site.tree patterns f)
    (h : (addCandidate site f (.str (secondaryPath f.path p))).run before = (.ok f', after))
    (hexists : site.tree.exists? (secondaryPath f.path p) = true) :
    f'.path = f.path ∧ listsSecondary f' (secondaryPath f.path p) = true := by
  have hsecondary : isAbsolute (secondaryPath f.path p) = true :=
    Path.isAbsolute_secondaryPath (hf.path ▸ hf.absolute) p
  obtain ⟨path, hpath, rfl⟩ := addCandidate_eq_ok h
  rw [candidatePath, Path.join_of_isAbsolute hsecondary] at hpath
  obtain rfl := Except.ok.inj hpath
  rw [if_pos hexists]
  refine ⟨rfl, ?_⟩
  have hlocation : ((FileValue.ofPath site.tree (secondaryPath f.path p)).toJson.field?
      "location").bind Json.str? = some (secondaryPath f.path p) := by
    rw [FileValue.field?_location_toJson, FileValue.location_ofPath]
    rfl
  rw [listsSecondary, List.any_append, List.any_cons, hlocation, decide_eq_true rfl, Bool.true_or,
    Bool.or_true]

lemma bindable_of_addSecondary {patterns : List String} {f f' : FileValue} {p : String}
    {before after : List Event} (hf : Bindable site.tree patterns f)
    (h : (addSecondary site f p).run before = (.ok f', after)) :
    Bindable site.tree (patterns ++ [p]) f' := by
  obtain ⟨candidates, _, hcandidates, hfold⟩ := Logged.bind_eq_ok.mp h
  have hf' : Bindable site.tree patterns f' :=
    Logged.foldlM_keeps (fun _ _ _ _ _ => bindable_of_addCandidate) hf hfold
  refine hf'.listing fun hsuffix hexists => ?_
  have hone : secondaryCandidates site f p = .ok candidates := Logged.liftM_eq_ok hcandidates
  rw [secondaryCandidates, hsuffix, if_neg Bool.false_ne_true] at hone
  obtain rfl := Except.ok.inj hone
  -- The pattern names its one candidate after the path, which stays while the file is added to.
  rw [List.foldlM_cons] at hfold
  obtain ⟨f₁, _, hadd, hrest⟩ := Logged.bind_eq_ok.mp hfold
  obtain rfl : f₁ = f' := Except.ok.inj (Prod.mk.inj hrest).1
  have hpath : f₁.path = f.path := by
    obtain ⟨path, -, rfl⟩ := addCandidate_eq_ok hadd
    split_ifs <;> rfl
  rw [hpath] at hexists ⊢
  exact (listsSecondary_of_addCandidate hf hadd hexists).2

lemma bindable_of_addAll : ∀ {ps patterns : List String} {f f' : FileValue} {before after : List Event},
    Bindable site.tree patterns f → (ps.foldlM (addSecondary site) f).run before = (.ok f', after) →
      Bindable site.tree (patterns ++ ps) f'
  | [], patterns, f, f', _, _, hf, h => by
      obtain rfl : f = f' := Except.ok.inj (Prod.mk.inj h).1
      rwa [List.append_nil]
  | p :: ps, patterns, f, f', _, _, hf, h => by
      rw [List.foldlM_cons] at h
      obtain ⟨f₁, _, hadd, h⟩ := Logged.bind_eq_ok.mp h
      have hrest := bindable_of_addAll (bindable_of_addSecondary hf hadd) h
      rwa [List.append_assoc] at hrest

lemma allBindable_of_withSecondary {directories : Bool} {v w : Value} {before after : List Event}
    (hmatch : IsMatch directories v) (hv : AllBindable site [] v)
    (h : (withSecondary site output v).run before = (.ok w, after)) :
    AllBindable site output.secondaryFiles w := by
  unfold IsMatch at hmatch
  split_ifs at hmatch
  · obtain ⟨d, rfl⟩ := hmatch
    obtain rfl : .directory d = w := Except.ok.inj (Prod.mk.inj h).1
    exact allBindable_directory _ d
  · obtain ⟨f, rfl⟩ := hmatch
    obtain ⟨f', _, hf', h⟩ := Logged.bind_eq_ok.mp h
    obtain rfl : .file f' = w := Except.ok.inj (Prod.mk.inj h).1
    exact allBindable_file (bindable_of_addAll (hv f (List.mem_singleton_self f)) hf')

/-! ### Outputs -/

lemma allBindable_of_reconcile {patterns : List String} {found : List Value} {v : Value}
    (hfound : ∀ w ∈ found, AllBindable site patterns w) (h : reconcile output found = .ok v) :
    AllBindable site patterns v := by
  rcases reconcile_eq_ok h with ⟨_, _, -, rfl⟩ | ⟨-, hv | ⟨-, rfl⟩⟩
  · intro f hf
    rw [Value.files, Value.filesItems_eq] at hf
    obtain ⟨item, hitem, hf⟩ := List.mem_flatMap.mp hf
    exact hfound item hitem f hf
  · exact hfound v hv
  · exact fun f hf => absurd hf List.not_mem_nil

/-- **What is searched for in an absolute directory is bindable.** -/
lemma allBindable_of_collect (absolute : isAbsolute site.directory = true)
    (unasked : output.binding.bind (·.outputEval) = none) {v : Value} {before after : List Event}
    (h : (collect site output).run before = (.ok v, after)) :
    AllBindable site output.secondaryFiles v := by
  unfold collect at h
  obtain ⟨patterns, _, -, h⟩ := Logged.bind_eq_ok.mp h
  cases patterns with
  | none =>
      obtain rfl : .null = v := Except.ok.inj (Prod.mk.inj h).1
      exact fun f hf => absurd hf List.not_mem_nil
  | some patterns =>
      obtain ⟨found, _, hfound, h⟩ := Logged.bind_eq_ok.mp h
      have hfound := Logged.liftM_eq_ok hfound
      rw [unasked] at h
      obtain ⟨joined, _, hjoined, h⟩ := Logged.bind_eq_ok.mp h
      refine allBindable_of_reconcile (fun w hw => ?_) (Logged.liftM_eq_ok h)
      obtain ⟨x, hx, _, _, hxw⟩ := forall₂_mem_right (Logged.mapM_eq_ok hjoined) hw
      exact allBindable_of_withSecondary (isMatch_of_findAll hfound x hx)
        (allBindable_of_findAll absolute hfound x hx) hxw

/-- The files of an output that a tool does not report. -/
lemma allBindable_of_toolOutputs {process : Process} {outputs : Values} {before after : List Event}
    {id : String} {v : Value} (absolute : isAbsolute site.directory = true)
    (unreported : site.tree.isFile (Path.join site.directory reportName) = false)
    (run : (toolOutputs site process).run before = (.ok outputs, after))
    (declared : OrderedMap.lastWith Output.id process.outputs id = some output)
    (unasked : output.binding.bind (·.outputEval) = none) (hv : outputs.find? id = some v) :
    AllBindable site output.secondaryFiles v := by
  unfold toolOutputs at run
  dsimp only at run
  rw [unreported, if_neg Bool.false_ne_true] at run
  have hfind := Logged.find?_of_collect (k := id) run
  rw [declared] at hfind
  obtain ⟨w, ⟨_, _, hcollect⟩, hw⟩ := hfind
  obtain rfl : v = w := Option.some.inj (hv.symm.trans hw)
  exact allBindable_of_collect absolute unasked hcollect

end Outputs

/-! ## Binding -/

namespace Bindable

open Binding (normalizeFiles attachSecondary bindInput)

variable {tree : FileTree} {patterns : List String} {f : FileValue}

lemma location_ne_empty (h : Bindable tree patterns f) : f.location ≠ "" := by
  intro hempty
  have habsolute := h.absolute
  rw [hempty] at habsolute
  cases habsolute

/-- A bindable file is read as it was written. -/
lemma ofJson_toJson (h : Bindable tree patterns f) : Value.ofJson (Value.toJson (.file f)) = .file f := by
  have hcomplete : f.complete = f := by
    rw [FileValue.complete, if_neg h.location_ne_empty, if_neg h.location_ne_empty, h.located]
  have hread : FileValue.ofJson? f.toJson = some f := by
    rw [(FileValue.reads_toJson f).ofJson?_eq, hcomplete]
  rw [Value.toJson]
  exact Value.ofJson_toJson_file hread

/-- Normalization leaves a bindable file alone. -/
lemma normalizeFiles_eq (h : Bindable tree patterns f) (config : Configuration) :
    normalizeFiles config (.file f) = .file f := by
  have hslash := Path.isAbsolute_iff.mp h.absolute
  have hunaddressed : ¬ Binding.IsAddress f.location := by
    rintro (hopens | hopens)
    · exact not_prefix_of_head? (c := 'C') (by decide +kernel) hslash (by decide) hopens
    · exact not_prefix_of_head? (c := 'U') (by decide +kernel) hslash (by decide) hopens
  rw [normalizeFiles, Value.mapFiles, Binding.expandLocation_of_not_isAddress config hunaddressed, h.located]

/-- A secondary file that was looked for in the same tree is listed already, or is not there. -/
lemma attachSecondary_run (h : Bindable tree patterns f) {p : String} (hp : p ∈ patterns)
    (hsuffix : isExpressionPattern p = false) (events : List Event) :
    ∃ rest, (attachSecondary tree p f).run events = (.ok f, rest) := by
  unfold attachSecondary
  dsimp only
  by_cases hlisted : listsSecondary f (secondaryPath f.path p) = true
  · rw [if_pos hlisted]
    exact ⟨events, rfl⟩
  · have hmissing : ¬ tree.exists? (secondaryPath f.path p) = true :=
      fun hexists => hlisted (h.listed p hp hsuffix hexists)
    rw [if_neg hlisted, if_neg hmissing]
    exact ⟨_, rfl⟩

lemma attachAll_run (h : Bindable tree patterns f) {ps : List String}
    (hps : ∀ p ∈ ps, p ∈ patterns ∧ isExpressionPattern p = false) (events : List Event) :
    ∃ rest, (ps.foldlM (fun (value : Value) p => value.mapFilesM (attachSecondary tree p))
      (.file f)).run events = (.ok (.file f), rest) := by
  have hturn : ∀ p ∈ ps, ∀ v : Value, v = .file f → ∀ before, ∃ v' after,
      (v.mapFilesM (attachSecondary tree p)).run before = (.ok v', after) ∧ v' = .file f := by
    rintro p hp _ rfl before
    obtain ⟨after, hattach⟩ := h.attachSecondary_run (hps p hp).1 (hps p hp).2 before
    refine ⟨.file f, after, ?_, rfl⟩
    rw [Value.mapFilesM]
    exact Logged.bind_eq_ok.mpr ⟨f, after, hattach, rfl⟩
  obtain ⟨_, rest, hrun, rfl⟩ := Logged.foldlM_ends hturn (.file f) rfl events
  exact ⟨rest, hrun⟩

end Bindable

namespace Binding

/-- An input takes what an output gives: it is a file whose contents are not loaded, and it looks for no
secondary files but those of the output. -/
structure Takes (output : Output) (input : Input) : Prop where
  type : input.type = .file
  unloaded : input.loadContents = false
  patterns : ∀ p ∈ input.secondaryFiles, isExpressionPattern p = false → p ∈ output.secondaryFiles

/-- A bindable file is bound as it is. -/
lemma bindInput_run {tree : FileTree} {output : Output} {input : Input} {params : Values} {f : FileValue}
    (hf : Bindable tree output.secondaryFiles f) (takes : Takes output input)
    (given : params.find? input.id = some (.file f)) (config : Configuration) (events : List Event) :
    ∃ rest, (bindInput tree config params input).run events = (.ok (.file f), rest) := by
  have hconforms : conforms (.file f) input.type = true := by
    rw [takes.type]
    rfl
  have hpatterns : ∀ p ∈ input.secondaryFiles.filter (!isExpressionPattern ·),
      p ∈ output.secondaryFiles ∧ isExpressionPattern p = false := by
    intro p hp
    obtain ⟨hmem, hsuffix⟩ := List.mem_filter.mp hp
    have hsuffix : isExpressionPattern p = false := by simpa using hsuffix
    exact ⟨takes.patterns p hmem hsuffix, hsuffix⟩
  obtain ⟨rest, hattach⟩ := hf.attachAll_run hpatterns events
  refine ⟨rest, ?_⟩
  unfold bindInput
  rw [given, Option.getD_some, hf.normalizeFiles_eq config]
  dsimp only
  rw [hconforms, Bool.not_true, if_neg Bool.false_ne_true, takes.unloaded, if_neg Bool.false_ne_true]
  exact hattach

/-- Of the inputs with an id, one is bound last. -/
lemma exists_last {process : Process} {id : String} (h : ∃ input ∈ process.inputs, input.id = id) :
    ∃ last, OrderedMap.lastWith Input.id (inOrder process) id = some last ∧ last ∈ process.inputs ∧
      last.id = id := by
  obtain ⟨input, mem, rfl⟩ := h
  have hordered : input ∈ inOrder process := List.mem_mergeSort.mpr mem
  have hsome : (OrderedMap.lastWith Input.id (inOrder process) input.id).isSome = true :=
    OrderedMap.lastWith_isSome hordered
  obtain ⟨last, hlast⟩ := Option.isSome_iff_exists.mp hsome
  obtain ⟨hmem, hid⟩ := OrderedMap.mem_of_lastWith hlast
  exact ⟨last, hlast, List.mem_mergeSort.mp hmem, hid⟩

lemma provide_of_plain {eval : Evaluator} {context : ExprContext} {inputs : Values} {input : Input}
    (plain : input.binding.bind (·.valueFrom) = none) :
    provide eval context inputs input = .ok ((inputs.find? input.id).getD .null) := by
  unfold provide
  dsimp only
  rw [plain]

/-- All inputs are bound when each of them is and no expression replaces one. -/
lemma bindInputs_run {eval : Evaluator} {tree : FileTree} {config : Configuration} {process : Process}
    {params : Values} {runtime : Json} {library : List String}
    (each : ∀ input ∈ process.inputs, ∀ before, ∃ v after,
      (bindInput tree config params input).run before = (.ok v, after))
    (plain : ∀ input ∈ process.inputs, input.binding.bind (·.valueFrom) = none) (events : List Event) :
    ∃ bound rest,
      (bindInputs eval tree config process params runtime library).run events = (.ok bound, rest) := by
  have hordered : ∀ input ∈ inOrder process, input ∈ process.inputs := fun _ => List.mem_mergeSort.mp
  obtain ⟨inputs, between, hinputs⟩ := Logged.collect_ends Input.id
    (fun input mem => each input (hordered input mem)) [] events
  have hprovide : ∀ input ∈ inOrder process, ∀ before, ∃ v after,
      (liftM (provide eval { ExprContext.ofInputs inputs with runtime, library } inputs input)
        : Logged Value).run before = (.ok v, after) := by
    intro input mem before
    rw [provide_of_plain (plain input (hordered input mem))]
    exact ⟨_, before, rfl⟩
  obtain ⟨provided, rest, hprovided⟩ := Logged.collect_ends Input.id hprovide [] between
  exact ⟨⟨inputs, provided⟩, rest, Logged.bind_eq_ok.mpr ⟨inputs, between, hinputs,
    Logged.bind_eq_ok.mpr ⟨provided, rest, hprovided, rfl⟩⟩⟩

end Binding

/-! ## Collected files -/

namespace Outputs

open Binding (Takes Evaluator bindInput bindInputs inOrder)

/-- **Collected files bind unmodified.**  A file that was found for an output in an absolute working directory
is written as JSON, read again and bound to an input that takes the output, in the same tree of files and with
any configuration: the input is the same file.  So is what the command line sees, unless an expression replaces
it; and binding fails for no other reason than another input or an expression. -/
theorem collected_files_bind_unmodified {site : Site} {process : Process} {output : Output}
    {before after : List Event} {outputs : Values} {v : Value} {f : FileValue}
    (absolute : isAbsolute site.directory = true)
    (unreported : site.tree.isFile (Path.join site.directory reportName) = false)
    (run : (toolOutputs site process).run before = (.ok outputs, after))
    (declared : OrderedMap.lastWith Output.id process.outputs output.id = some output)
    (unasked : output.binding.bind (·.outputEval) = none)
    (hv : outputs.find? output.id = some v) (hf : f ∈ v.files)
    {consumer : Process} {id : String} {params : Values}
    (declares : ∃ input ∈ consumer.inputs, input.id = id)
    (takes : ∀ input ∈ consumer.inputs, input.id = id → Takes output input)
    (given : params.find? id = some (.ofJson (Value.toJson (.file f)))) (config : Configuration)
    (eval : Evaluator) (runtime : Json) (library : List String) (events : List Event) :
    (∀ input ∈ consumer.inputs, input.id = id → ∃ rest,
      (bindInput site.tree config params input).run events = (.ok (.file f), rest)) ∧
    (∀ bound rest,
      (bindInputs eval site.tree config consumer params runtime library).run events = (.ok bound, rest) →
        bound.inputs.find? id = some (.file f) ∧
        ((∀ input ∈ consumer.inputs, input.id = id → input.binding.bind (·.valueFrom) = none) →
          bound.provided.find? id = some (.file f))) ∧
    ((∀ input ∈ consumer.inputs, input.id ≠ id → ∀ own, ∃ w rest,
        (bindInput site.tree config params input).run own = (.ok w, rest)) →
      (∀ input ∈ consumer.inputs, input.binding.bind (·.valueFrom) = none) →
        ∃ bound rest,
          (bindInputs eval site.tree config consumer params runtime library).run events = (.ok bound, rest)) := by
  have hbindable : Bindable site.tree output.secondaryFiles f :=
    allBindable_of_toolOutputs absolute unreported run declared unasked hv f hf
  rw [hbindable.ofJson_toJson] at given
  have hinput (input : Input) (mem : input ∈ consumer.inputs) (hid : input.id = id) (own : List Event) :
      ∃ rest, (bindInput site.tree config params input).run own = (.ok (.file f), rest) :=
    Binding.bindInput_run hbindable (takes input mem hid) (hid ▸ given) config own
  refine ⟨fun input mem hid => hinput input mem hid events, fun bound rest h => ?_, fun others plain => ?_⟩
  · obtain ⟨inputs, _, hinputs, h⟩ := Logged.bind_eq_ok.mp h
    obtain ⟨provided, _, hprovided, h⟩ := Logged.bind_eq_ok.mp h
    obtain rfl := Except.ok.inj (Prod.mk.inj h).1
    -- Inputs are bound in order of their ids, and of several with one id the last counts.
    obtain ⟨last, hlast, mem, hid⟩ := Binding.exists_last declares
    have hfind := Logged.find?_of_collect (k := id) hinputs
    rw [hlast] at hfind
    obtain ⟨w, ⟨own, _, hrun⟩, hw⟩ := hfind
    obtain ⟨_, hrun'⟩ := hinput last mem hid own
    obtain rfl : w = .file f := Except.ok.inj (Prod.mk.inj (hrun.symm.trans hrun')).1
    refine ⟨hw, fun plain => ?_⟩
    have hfind := Logged.find?_of_collect (k := id) hprovided
    rw [hlast] at hfind
    obtain ⟨w, ⟨_, _, hrun⟩, hprovide⟩ := hfind
    have hvalue := Logged.liftM_eq_ok hrun
    rw [Binding.provide_of_plain (plain last mem hid), hid, hw] at hvalue
    obtain rfl := Except.ok.inj hvalue
    exact hprovide
  · refine Binding.bindInputs_run (fun input mem own => ?_) plain events
    by_cases hid : input.id = id
    · exact ⟨_, hinput input mem hid own⟩
    · exact others input mem hid own

/-- A tool that leaves an alignment with its index. -/
def alignTool : Process where
  id := "#align"
  body := .commandLineTool ⟨["align"], [], none, none, none⟩
  inputs := []
  outputs := [⟨"aligned", .file, some { Document.OutputBinding.plain with glob := ["*.bam"] },
    [".bai", "^.log"], []⟩]
  requirements := []
  hints := []

/-- Its working directory, which holds no log. -/
def alignSite : Site :=
  { workSite "x.bam" "reads" with
    tree := ⟨["work"], [(["work"], .directory), (["work", "x.bam"], .file (Text.encode "reads")),
      (["work", "x.bam.bai"], .file (Text.encode "index"))]⟩ }

/-- A tool that takes an alignment with its index. -/
def viewTool : Process where
  id := "#view"
  body := .commandLineTool ⟨["view"], [], none, none, none⟩
  inputs := [⟨"alignment", .file, none, none, ["^.log", ".bai"], false⟩]
  outputs := []
  requirements := []
  hints := []

/-- The alignment is handed over with its index. -/
theorem alignment_binds_unmodified :
    ∃ outputs after v f, (toolOutputs alignSite alignTool).run [] = (.ok outputs, after) ∧
      outputs.find? "aligned" = some v ∧ f ∈ v.files ∧ f.secondaryFiles.length = 1 ∧
      ∃ bound rest,
        (bindInputs (Binding.evaluator evaluateJson) alignSite.tree .standard viewTool
          [("alignment", .ofJson (Value.toJson (.file f)))] .null []).run [] = (.ok bound, rest) ∧
        bound.inputs.find? "alignment" = some (.file f) := by
  obtain ⟨outputs, after, run, hfound⟩ := exists_of_any ((toolOutputs alignSite alignTool).run [])
    (fun outputs => (outputs.find? "aligned").any fun v =>
      v.files.any fun f => f.secondaryFiles.length == 1) (by decide +kernel)
  obtain ⟨v, hv, hfiles⟩ := (Option.any_eq_true _ _).mp hfound
  obtain ⟨f, hf, hsecondary⟩ := List.any_eq_true.mp hfiles
  have absolute : isAbsolute alignSite.directory = true := by decide +kernel
  have unreported : alignSite.tree.isFile (Path.join alignSite.directory reportName) = false := by
    decide +kernel
  have declares : ∃ input ∈ viewTool.inputs, input.id = "alignment" := ⟨_, List.mem_singleton_self _, rfl⟩
  have takes : ∀ input ∈ viewTool.inputs, input.id = "alignment" → Takes alignTool.outputs[0] input := by
    intro input mem _
    obtain rfl := List.mem_singleton.mp mem
    exact ⟨rfl, rfl, by decide⟩
  have given : OrderedMap.find? [("alignment", Value.ofJson (Value.toJson (.file f)))] "alignment" =
      some (.ofJson (Value.toJson (.file f))) := rfl
  obtain ⟨-, hsame, hbinds⟩ := collected_files_bind_unmodified absolute unreported run rfl rfl hv hf declares
    takes given .standard (Binding.evaluator evaluateJson) .null [] []
  obtain ⟨bound, rest, hbound⟩ := hbinds
    (fun input mem hid => absurd (by obtain rfl := List.mem_singleton.mp mem; rfl) hid)
    (fun input mem => by obtain rfl := List.mem_singleton.mp mem; rfl)
  exact ⟨outputs, after, v, f, run, hv, hf, by simpa using hsecondary, bound, rest, hbound,
    (hsame bound rest hbound).1⟩

end Outputs

end WorkflowEngine
