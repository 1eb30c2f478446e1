import WorkflowEngine.Proofs.FileNames
import WorkflowEngine.Proofs.OutputTypes

/-!
# Where values come from

Values are read from JSON, and then bound to the inputs of tools, returned by expressions, collected from
working directories, scattered and gathered.

**Binding.**  The inputs of a tool have files with names that follow from their locations, because every
file is located again (`Binding.allNamed_of_bindInputs`).

**Collection.**  So have the outputs of expressions and of tools, be they searched for or reported
(`Outputs.allNamed_expressionOutputs`, `Outputs.allNamed_toolOutputs`).

**All values.**  Whatever a value has been through, the names of its files follow from their locations:
`names_follow`.
-/

namespace WorkflowEngine

open Document (Process Input Output)

/-- What every turn of a loop with events keeps, the loop keeps. -/
lemma Logged.foldlM_keeps {α β : Type} {P : β → Prop} {f : β → α → Logged β}
    (hf : ∀ b x b' own rest, P b → (f b x).run own = (.ok b', rest) → P b') :
    ∀ {xs : List α} {b b' : β} {before after : List Event}, P b →
      (xs.foldlM f b).run before = (.ok b', after) → P b'
  | [], b, b', _, _, hb, h => by
      obtain rfl : b = b' := Except.ok.inj (Prod.mk.inj h).1
      exact hb
  | x :: xs, b, b', _, _, hb, h => by
      rw [List.foldlM_cons] at h
      obtain ⟨between, _, hx, h⟩ := Logged.bind_eq_ok.mp h
      exact foldlM_keeps hf (hf b x between _ _ hb hx) h

/-- A loop with events comes to its end when every turn does, and keeps what they keep. -/
lemma Logged.foldlM_ends {α β : Type} {P : β → Prop} {f : β → α → Logged β} :
    ∀ {xs : List α},
      (∀ x ∈ xs, ∀ b, P b → ∀ before, ∃ b' after, (f b x).run before = (.ok b', after) ∧ P b') →
      ∀ b, P b → ∀ before, ∃ b' after, (xs.foldlM f b).run before = (.ok b', after) ∧ P b'
  | [], _, b, hb, before => ⟨b, before, rfl, hb⟩
  | x :: xs, hf, b, hb, before => by
      obtain ⟨hx, hxs⟩ := List.forall_mem_cons.mp hf
      obtain ⟨own, between, hrun, hown⟩ := hx b hb before
      obtain ⟨b', after, hrest, hb'⟩ := foldlM_ends hxs own hown between
      refine ⟨b', after, ?_, hb'⟩
      rw [List.foldlM_cons]
      exact Logged.bind_eq_ok.mpr ⟨own, between, hrun, hrest⟩

/-- All is collected when each part of it is. -/
lemma Logged.collect_ends {α β : Type} (key : β → String) {f : β → Logged α} {xs : List β}
    (hf : ∀ x ∈ xs, ∀ before, ∃ v after, (f x).run before = (.ok v, after)) (init : OrderedMap α)
    (before : List Event) :
    ∃ m after, (xs.foldlM (fun map x => do return OrderedMap.insert map (key x) (← f x)) init).run before =
      (.ok m, after) := by
  have hturn : ∀ x ∈ xs, ∀ map : OrderedMap α, True → ∀ before, ∃ map' after,
      (do return OrderedMap.insert map (key x) (← f x) : Logged (OrderedMap α)).run before =
        (.ok map', after) ∧ True := by
    intro x hx map _ before
    obtain ⟨v, after, hrun⟩ := hf x hx before
    exact ⟨_, after, Logged.bind_eq_ok.mpr ⟨v, after, hrun, rfl⟩, trivial⟩
  obtain ⟨m, after, hrun, -⟩ := foldlM_ends hturn init trivial before
  exact ⟨m, after, hrun⟩

/-! ## Binding -/

namespace Binding

lemma named_of_evaluate {interpreter : Interpreter} {expression : String} {context : ExprContext}
    {v : Value} (h : ExprFault.orFail (evaluate interpreter expression context) = .ok v) : v.Named := by
  rw [evaluate] at h
  cases hjson : interpreter expression context with
  | error fault =>
      rw [hjson] at h
      cases h
  | ok json =>
      rw [hjson] at h
      obtain rfl : .ofJson json = v := Except.ok.inj h
      exact Value.named_ofJson json

lemma named_normalizeFiles (config : Configuration) (v : Value) : (normalizeFiles config v).Named := by
  intro f hf
  rw [normalizeFiles, Value.files_mapFiles] at hf
  obtain ⟨own, -, rfl⟩ := List.mem_map.mp hf
  exact FileValue.named_locate own (expandLocation config own.location)

lemma named_of_loadContents {tree : FileTree} {config : Configuration} {f f' : FileValue}
    {before after : List Event} (hf : f.Named)
    (h : (loadContents tree config f).run before = (.ok f', after)) : f'.Named := by
  obtain ⟨contents, _, -, h⟩ := Logged.bind_eq_ok.mp h
  obtain rfl := Except.ok.inj (Prod.mk.inj h).1
  exact hf.update (some contents) f.size f.secondaryFiles

lemma named_of_attachSecondary {tree : FileTree} {pattern : String} {f f' : FileValue}
    {before after : List Event} (hf : f.Named)
    (h : (attachSecondary tree pattern f).run before = (.ok f', after)) : f'.Named := by
  unfold attachSecondary at h
  dsimp only at h
  split_ifs at h
  · obtain rfl := Except.ok.inj (Prod.mk.inj h).1
    exact hf
  · obtain rfl := Except.ok.inj (Prod.mk.inj h).1
    exact hf.update f.contents f.size _
  · obtain ⟨_, _, -, h⟩ := Logged.bind_eq_ok.mp h
    obtain rfl := Except.ok.inj (Prod.mk.inj h).1
    exact hf

lemma named_of_bindInput {tree : FileTree} {config : Configuration} {params : Values} {input : Input}
    {v : Value} {before after : List Event}
    (h : (bindInput tree config params input).run before = (.ok v, after)) : v.Named := by
  have hsecondary (w w' : Value) (pattern : String) (own rest : List Event) (hw : w.Named)
      (hrun : (w.mapFilesM (attachSecondary tree pattern)).run own = (.ok w', rest)) : w'.Named :=
    Value.named_mapFilesM (fun _ _ _ _ hf hff' => named_of_attachSecondary hf hff') hw hrun
  have hnormal := named_normalizeFiles config ((params.find? input.id).getD .null)
  unfold bindInput at h
  dsimp only at h
  split_ifs at h
  · cases (Prod.mk.inj h).1
  · cases (Prod.mk.inj h).1
  · obtain ⟨loaded, _, hloaded, h⟩ := Logged.bind_eq_ok.mp h
    refine Logged.foldlM_keeps (fun w pattern w' own rest => hsecondary w w' pattern own rest) ?_ h
    exact Value.named_mapFilesM (fun _ _ _ _ hf hff' => named_of_loadContents hf hff') hnormal hloaded
  · obtain ⟨loaded, _, hloaded, h⟩ := Logged.bind_eq_ok.mp h
    obtain rfl := Except.ok.inj (Prod.mk.inj hloaded).1
    exact Logged.foldlM_keeps (fun w pattern w' own rest => hsecondary w w' pattern own rest) hnormal h

/-- Every value of a map has the names that follow from the locations of its files. -/
def AllNamed (values : Values) : Prop := ∀ id v, values.find? id = some v → v.Named

lemma AllNamed.getD {values : Values} (h : AllNamed values) (id : String) :
    ((values.find? id).getD .null).Named := by
  cases hv : values.find? id with
  | none => exact Value.named_of_files rfl
  | some v => exact h id v hv

lemma allNamed_of_find {γ : Type} {P : γ → Value → Prop} {at? : String → Option γ} {values : Values}
    (h : ∀ id, match at? id with
      | some x => ∃ v, P x v ∧ values.find? id = some v
      | none => values.find? id = none)
    (hP : ∀ x v, P x v → v.Named) : AllNamed values := by
  intro id v hv
  have hid := h id
  cases hx : at? id with
  | none => simp [hx, hv] at hid
  | some x =>
      rw [hx] at hid
      obtain ⟨w, hw, hfind⟩ := hid
      obtain rfl : v = w := Option.some.inj (hv.symm.trans hfind)
      exact hP x v hw

lemma named_of_provide {interpreter : Interpreter} {context : ExprContext} {inputs : Values}
    {input : Input} {v : Value} (hinputs : AllNamed inputs)
    (h : provide (evaluator interpreter) context inputs input = .ok v) : v.Named := by
  unfold provide at h
  split at h
  · exact named_of_evaluate h
  · obtain rfl := Except.ok.inj h
    exact hinputs.getD input.id

lemma allNamed_of_bindInputs {interpreter : Interpreter} {tree : FileTree} {config : Configuration}
    {process : Process} {params : Values} {runtime : Json} {library : List String} {bound : BoundInputs}
    {before after : List Event}
    (h : (bindInputs (evaluator interpreter) tree config process params runtime library).run before
      = (.ok bound, after)) : AllNamed bound.inputs ∧ AllNamed bound.provided := by
  obtain ⟨inputs, _, hinputs, h⟩ := Logged.bind_eq_ok.mp h
  obtain ⟨provided, _, hprovided, h⟩ := Logged.bind_eq_ok.mp h
  obtain rfl := Except.ok.inj (Prod.mk.inj h).1
  have hnamed : AllNamed inputs :=
    allNamed_of_find (fun id => Logged.find?_of_collect (k := id) hinputs)
      fun _ _ ⟨_, _, hrun⟩ => named_of_bindInput hrun
  exact ⟨hnamed, allNamed_of_find (fun id => Logged.find?_of_collect (k := id) hprovided)
    fun _ _ ⟨_, _, hrun⟩ => named_of_provide hnamed (Logged.liftM_eq_ok hrun)⟩

end Binding

/-! ## Collection -/

namespace Outputs

open Binding (AllNamed allNamed_of_find named_of_evaluate)

variable {site : Site} {process : Process} {output : Output} {outputs : Values}

lemma named_of_reported {fields : OrderedMap Json} {absent : String} {v : Value}
    (h : reported output fields absent = .ok v) : v.Named := by
  unfold reported at h
  split at h
  · obtain rfl := Except.ok.inj h
    exact Value.named_ofJson _
  · split_ifs at h
    obtain rfl := Except.ok.inj h
    exact Value.named_of_files rfl

lemma allNamed_expressionOutputs {result : Json} (h : expressionOutputs process result = .ok outputs) :
    AllNamed outputs := by
  unfold expressionOutputs at h
  split at h
  · exact allNamed_of_find (OrderedMap.find?_of_collect _ _ h) fun _ _ => named_of_reported
  · cases h

lemma named_settle {f : FileValue} (h : f.Named) : (settle site f).Named := by
  unfold settle
  dsimp only
  split_ifs
  · exact h
  · exact (FileValue.named_locate f _).update _ _ _

lemma allNamed_reportedOutputs {report : String}
    (h : reportedOutputs site process report = .ok outputs) : AllNamed outputs := by
  obtain ⟨text, -, h⟩ := bind_eq_ok.mp h
  split at h
  · cases h
  · refine allNamed_of_find (OrderedMap.find?_of_collect_map _ _ _ h) ?_
    rintro output _ ⟨v, hv, rfl⟩
    exact Value.named_mapFiles (fun f hf => named_settle hf) (named_of_reported hv)
  · cases h

lemma named_of_foundValue {directories contents : Bool} {path : String} {v : Value}
    (h : foundValue site directories contents path = .ok v) : v.Named := by
  unfold foundValue at h
  dsimp only at h
  split_ifs at h
  · obtain rfl := Except.ok.inj h
    exact Value.named_of_files rfl
  · obtain ⟨text, -, rfl⟩ := map_eq_ok_iff.mp h
    exact Value.named_file ((FileValue.named_ofPath site.tree path).update _ _ _)
  · obtain rfl := Except.ok.inj h
    exact Value.named_file (FileValue.named_ofPath site.tree path)

lemma named_of_addCandidate {f f' : FileValue} {candidate : Value} {before after : List Event}
    (hf : f.Named) (h : (addCandidate site f candidate).run before = (.ok f', after)) : f'.Named := by
  obtain ⟨path, _, -, h⟩ := Logged.bind_eq_ok.mp h
  dsimp only at h
  split_ifs at h
  · obtain rfl := Except.ok.inj (Prod.mk.inj h).1
    exact hf.update f.contents f.size _
  · obtain ⟨_, _, -, h⟩ := Logged.bind_eq_ok.mp h
    obtain rfl := Except.ok.inj (Prod.mk.inj h).1
    exact hf

lemma named_of_addSecondary {f f' : FileValue} {pattern : String} {before after : List Event}
    (hf : f.Named) (h : (addSecondary site f pattern).run before = (.ok f', after)) : f'.Named := by
  obtain ⟨candidates, _, -, h⟩ := Logged.bind_eq_ok.mp h
  exact Logged.foldlM_keeps (fun _ _ _ _ _ => named_of_addCandidate) hf h

lemma named_of_withSecondary {v w : Value} {before after : List Event} (hv : v.Named)
    (h : (withSecondary site output v).run before = (.ok w, after)) : w.Named := by
  unfold withSecondary at h
  split at h
  case h_1 f =>
    obtain ⟨f', _, hf', h⟩ := Logged.bind_eq_ok.mp h
    obtain rfl : .file f' = w := Except.ok.inj (Prod.mk.inj h).1
    refine Value.named_file (Logged.foldlM_keeps (fun _ _ _ _ _ => named_of_addSecondary) ?_ hf')
    exact hv f (List.mem_singleton_self f)
  case h_2 =>
    obtain rfl := Except.ok.inj (Prod.mk.inj h).1
    exact hv

lemma named_of_reconcile {found : List Value} {v : Value} (hfound : ∀ w ∈ found, w.Named)
    (h : reconcile output found = .ok v) : v.Named := by
  rcases reconcile_eq_ok h with ⟨_, _, -, rfl⟩ | ⟨-, hv | ⟨-, rfl⟩⟩
  · exact Value.named_array hfound
  · exact hfound v hv
  · exact Value.named_of_files rfl

lemma named_of_collect {v : Value} {before after : List Event}
    (h : (collect site output).run before = (.ok v, after)) : v.Named := by
  unfold collect at h
  obtain ⟨patterns, _, -, h⟩ := Logged.bind_eq_ok.mp h
  cases patterns with
  | none =>
      obtain rfl : .null = v := Except.ok.inj (Prod.mk.inj h).1
      exact Value.named_of_files rfl
  | some patterns =>
      obtain ⟨found, _, hfound, h⟩ := Logged.bind_eq_ok.mp h
      obtain ⟨paths, -, hpaths⟩ := bind_eq_ok.mp (Logged.liftM_eq_ok hfound)
      split at h
      · obtain ⟨w, hw, hfit⟩ := bind_eq_ok.mp (Logged.liftM_eq_ok h)
        split_ifs at hfit
        obtain rfl := Except.ok.inj hfit
        exact named_of_evaluate hw
      · obtain ⟨joined, _, hjoined, h⟩ := Logged.bind_eq_ok.mp h
        refine named_of_reconcile (fun w hw => ?_) (Logged.liftM_eq_ok h)
        obtain ⟨x, hx, _, _, hxw⟩ := forall₂_mem_right (Logged.mapM_eq_ok hjoined) hw
        obtain ⟨path, -, hpath⟩ := forall₂_mem_right (mapM_eq_ok_iff.mp hpaths) hx
        exact named_of_withSecondary (named_of_foundValue hpath) hxw

lemma allNamed_toolOutputs {before after : List Event}
    (h : (toolOutputs site process).run before = (.ok outputs, after)) : AllNamed outputs := by
  unfold toolOutputs at h
  dsimp only at h
  split_ifs at h
  · exact allNamed_reportedOutputs (Logged.liftM_eq_ok h)
  · exact allNamed_of_find (fun id => Logged.find?_of_collect (k := id) h)
      fun _ _ ⟨_, _, hrun⟩ => named_of_collect hrun

end Outputs

/-! ## Values on their way -/

/-- The values that come from JSON by being read, moved, bound, collected, taken apart and gathered, in
any order. -/
inductive Obtained : Value → Prop where
  /-- A value that was read. -/
  | read (json : Json) : Obtained (.ofJson json)
  /-- A value whose files are moved to other locations. -/
  | located {v : Value} (location : FileValue → String) (hv : Obtained v) :
      Obtained (v.mapFiles fun f => f.locate (location f))
  /-- A value whose locations are expanded. -/
  | normalized {v : Value} (config : Configuration) (hv : Obtained v) :
      Obtained (Binding.normalizeFiles config v)
  /-- An input of a tool, as expressions see it or as the command line shows it. -/
  | bound {interpreter : Interpreter} {tree : FileTree} {config : Configuration} {process : Process}
      {params : Values} {runtime : Json} {library : List String} {inputs : Binding.BoundInputs}
      {before after : List Event} {id : String} {v : Value}
      (hparams : ∀ name w, params.find? name = some w → Obtained w)
      (h : (Binding.bindInputs (Binding.evaluator interpreter) tree config process params runtime
        library).run before = (.ok inputs, after))
      (hv : inputs.inputs.find? id = some v ∨ inputs.provided.find? id = some v) : Obtained v
  /-- An output of an expression. -/
  | returned {process : Process} {result : Json} {outputs : Values} {id : String} {v : Value}
      (h : Outputs.expressionOutputs process result = .ok outputs) (hv : outputs.find? id = some v) :
      Obtained v
  /-- An output of a tool. -/
  | collected {site : Outputs.Site} {process : Process} {outputs : Values} {before after : List Event}
      {id : String} {v : Value}
      (h : (Outputs.toolOutputs site process).run before = (.ok outputs, after))
      (hv : outputs.find? id = some v) : Obtained v
  /-- An item of an array. -/
  | item {items : List Value} {v : Value} (hv : v ∈ items) (h : Obtained (.array items)) : Obtained v
  /-- An array of values. -/
  | gathered {items : List Value} (h : ∀ v ∈ items, Obtained v) : Obtained (.array items)

/-- **The names of files follow from their locations**, whatever a value has been through. -/
theorem names_follow {v : Value} (h : Obtained v) :
    ∀ f ∈ v.files, f.location ≠ "" → f.NamesFollow := by
  change v.Named
  induction h with
  | read json => exact Value.named_ofJson json
  | located location _ ih => exact Value.named_mapFiles (fun f _ => FileValue.named_locate f _) ih
  | normalized config _ _ => exact Binding.named_normalizeFiles config _
  | bound _ hrun hv _ =>
      obtain ⟨hinputs, hprovided⟩ := Binding.allNamed_of_bindInputs hrun
      rcases hv with hv | hv
      · exact hinputs _ _ hv
      · exact hprovided _ _ hv
  | returned hrun hv => exact Outputs.allNamed_expressionOutputs hrun _ _ hv
  | collected hrun hv => exact Outputs.allNamed_toolOutputs hrun _ _ hv
  | item hv _ ih => exact Value.named_item ih hv
  | gathered _ ih => exact Value.named_array ih

/-- A file that a tool has left in its working directory. -/
theorem log_names_follow :
    ∃ outputs after v f, (Outputs.toolOutputs (Outputs.workSite "a.log" "")
        (Outputs.countLogs .file)).run [] = (.ok outputs, after) ∧
      outputs.find? "n" = some v ∧ f ∈ v.files ∧ f.location ≠ "" ∧ f.nameext = ".log" ∧
      f.NamesFollow := by
  obtain ⟨outputs, after, run, hlog⟩ := Outputs.exists_of_any
    ((Outputs.toolOutputs (Outputs.workSite "a.log" "") (Outputs.countLogs .file)).run [])
    (fun outputs => (outputs.find? "n").any fun v =>
      v.files.any fun f => f.location != "" && f.nameext == ".log") (by decide +kernel)
  obtain ⟨v, hv, hfiles⟩ := (Option.any_eq_true _ _).mp hlog
  obtain ⟨f, hf, hnames⟩ := List.any_eq_true.mp hfiles
  obtain ⟨hlocation, hext⟩ : f.location ≠ "" ∧ f.nameext = ".log" := by simpa using hnames
  exact ⟨outputs, after, v, f, run, hv, hf, hlocation, hext,
    names_follow (.collected run hv) f hf hlocation⟩

end WorkflowEngine
