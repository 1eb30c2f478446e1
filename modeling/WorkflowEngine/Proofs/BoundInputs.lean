import Mathlib.Data.List.Sort
import Mathlib.Data.String.Basic
import WorkflowEngine.Proofs.CollectedFiles

/-!
# Bound inputs

The inputs of a tool are bound one after the other, in order of their ids.  What a tool sees has the declared
types, and does not depend on the order in which inputs are declared or parameters are given.

**Order.**  A list without ties has one sorted form (`mergeSort_eq_of_perm`), and a map with different keys
is read alike in every order (`OrderedMap.find?_eq_of_perm`).

**Types.**  Contents and secondary files go into the files of a value and leave its outline alone
(`Value.outline_of_mapFilesM`).  A type sees no more than the outline, so that an input conforms to its type
also after they were added (`Binding.conforms_of_bindInput`).

**Tools.**  `inputs_bound_by_type`, for every tool, all parameters and all trees of files.
-/

namespace WorkflowEngine

open Document (Input Process)

/-! ## Order -/

section Order

variable {α : Type}

/-- A list no two elements of which are tied is sorted in one way. -/
lemma mergeSort_eq_of_perm {le : α → α → Bool} (trans : ∀ a b c, le a b → le b c → le a c)
    (total : ∀ a b, le a b || le b a) {xs ys : List α} (h : xs.Perm ys)
    (antisymm : ∀ a ∈ xs, ∀ b ∈ xs, le a b → le b a → a = b) : xs.mergeSort le = ys.mergeSort le := by
  have hsorted : (xs.mergeSort le).Perm (ys.mergeSort le) :=
    (List.mergeSort_perm xs le).trans (h.trans (List.mergeSort_perm ys le).symm)
  refine List.Perm.eq_of_pairwise (fun a b ha hb => ?_) (List.pairwise_mergeSort trans total xs)
    (List.pairwise_mergeSort trans total ys) hsorted
  exact antisymm a (List.mem_mergeSort.mp ha) b (h.mem_iff.mpr (List.mem_mergeSort.mp hb))

/-- A map whose keys are all different is read alike in every order. -/
lemma OrderedMap.find?_eq_of_perm {m n : OrderedMap α} (hm : (keys m).Nodup) (h : m.Perm n)
    (key : String) : find? m key = find? n key := by
  have hn : (keys n).Nodup := (h.map Prod.fst).nodup_iff.mp hm
  refine Option.ext fun v => ?_
  rw [find?_eq_some_iff hm, find?_eq_some_iff hn, h.mem_iff]

end Order

/-! ## Outlines -/

namespace Value

/-- The value with a blank file in the place of each file. -/
def outline (v : Value) : Value := v.mapFiles fun _ => .blank

variable {g : FileValue → Logged FileValue}

mutual

/-- What happens to the files of a value leaves its outline alone. -/
lemma outline_of_mapFilesM : ∀ {v w : Value} {before after : List Event},
    (v.mapFilesM g).run before = (.ok w, after) → w.outline = v.outline
  | .file _, w, before, after, h => by
      rw [mapFilesM] at h
      obtain ⟨f, _, -, h⟩ := Logged.bind_eq_ok.mp h
      obtain rfl : .file f = w := Except.ok.inj (Prod.mk.inj h).1
      rfl
  | .array items, w, before, after, h => by
      rw [mapFilesM] at h
      obtain ⟨items', _, hitems, h⟩ := Logged.bind_eq_ok.mp h
      obtain rfl : .array items' = w := Except.ok.inj (Prod.mk.inj h).1
      exact congrArg array (outline_of_mapFilesItemsM hitems)
  | .record fields, w, before, after, h => by
      rw [mapFilesM] at h
      obtain ⟨fields', _, hfields, h⟩ := Logged.bind_eq_ok.mp h
      obtain rfl : .record fields' = w := Except.ok.inj (Prod.mk.inj h).1
      exact congrArg record (outline_of_mapFilesFieldsM hfields)
  | .null, w, _, _, h | .bool _, w, _, _, h | .int _, w, _, _, h | .float _, w, _, _, h
  | .str _, w, _, _, h | .directory _, w, _, _, h => by
      obtain rfl := Except.ok.inj (Prod.mk.inj h).1
      rfl

lemma outline_of_mapFilesItemsM : ∀ {items items' : List Value} {before after : List Event},
    (mapFilesItemsM g items).run before = (.ok items', after) →
      mapFilesItems (fun _ => .blank) items' = mapFilesItems (fun _ => .blank) items
  | [], items', before, after, h => by
      obtain rfl : [] = items' := Except.ok.inj (Prod.mk.inj h).1
      rfl
  | item :: rest, items', before, after, h => by
      rw [mapFilesItemsM] at h
      obtain ⟨first, _, hfirst, h⟩ := Logged.bind_eq_ok.mp h
      obtain ⟨others, _, hothers, h⟩ := Logged.bind_eq_ok.mp h
      obtain rfl : first :: others = items' := Except.ok.inj (Prod.mk.inj h).1
      exact congrArg₂ List.cons (outline_of_mapFilesM hfirst) (outline_of_mapFilesItemsM hothers)

lemma outline_of_mapFilesFieldsM : ∀ {fields fields' : List (String × Value)} {before after : List Event},
    (mapFilesFieldsM g fields).run before = (.ok fields', after) →
      mapFilesFields (fun _ => .blank) fields' = mapFilesFields (fun _ => .blank) fields
  | [], fields', before, after, h => by
      obtain rfl : [] = fields' := Except.ok.inj (Prod.mk.inj h).1
      rfl
  | (key, v) :: rest, fields', before, after, h => by
      rw [mapFilesFieldsM] at h
      obtain ⟨first, _, hfirst, h⟩ := Logged.bind_eq_ok.mp h
      obtain ⟨others, _, hothers, h⟩ := Logged.bind_eq_ok.mp h
      obtain rfl : (key, first) :: others = fields' := Except.ok.inj (Prod.mk.inj h).1
      exact congrArg₂ List.cons (congrArg (Prod.mk key) (outline_of_mapFilesM hfirst))
        (outline_of_mapFilesFieldsM hothers)

end

end Value

namespace Binding

/-! ## Types -/

/-- Values with the same outline fit the same types. -/
lemma conforms_of_outline {v w : Value} (h : w.outline = v.outline) (t : Document.DataType) :
    conforms w t = conforms v t := by
  rw [← conforms_mapFiles (fun _ => .blank) t w, ← conforms_mapFiles (fun _ => .blank) t v]
  exact congrArg (conforms · t) h

section Inputs

variable {tree : FileTree} {config : Configuration} {params : Values} {input : Input}

lemma outline_of_attachAll {patterns : List String} {v w : Value} {before after : List Event}
    (h : (patterns.foldlM (fun (u : Value) pattern => u.mapFilesM (attachSecondary tree pattern)) v).run
      before = (.ok w, after)) : w.outline = v.outline := by
  have hturn (u : Value) (pattern : String) (u' : Value) (own rest : List Event)
      (hu : u.outline = v.outline)
      (hrun : (u.mapFilesM (attachSecondary tree pattern)).run own = (.ok u', rest)) :
      u'.outline = v.outline :=
    (Value.outline_of_mapFilesM hrun).trans hu
  exact Logged.foldlM_keeps hturn rfl h

/-- **A bound input fits its type**, although it has got contents and secondary files since it was checked. -/
lemma conforms_of_bindInput {v : Value} {before after : List Event}
    (h : (bindInput tree config params input).run before = (.ok v, after)) :
    conforms v input.type = true := by
  unfold bindInput at h
  dsimp only at h
  split_ifs at h with hmisfit
  · cases (Prod.mk.inj h).1
  · cases (Prod.mk.inj h).1
  all_goals
    obtain ⟨loaded, _, hloaded, h⟩ := Logged.bind_eq_ok.mp h
    rw [conforms_of_outline (outline_of_attachAll h)]
    have hfits : conforms (normalizeFiles config ((params.find? input.id).getD .null)) input.type = true := by
      simpa using hmisfit
  · rwa [conforms_of_outline (Value.outline_of_mapFilesM hloaded)]
  · obtain rfl := Except.ok.inj (Prod.mk.inj hloaded).1
    exact hfits

end Inputs

/-! ## Tools -/

section Tools

variable {process : Process}

lemma inOrder_perm (process : Process) : (inOrder process).Perm process.inputs :=
  List.mergeSort_perm _ _

lemma idLe_trans (a b c : Input) (hab : decide (a.id ≤ b.id) = true) (hbc : decide (b.id ≤ c.id) = true) :
    decide (a.id ≤ c.id) = true := by
  rw [decide_eq_true_eq] at hab hbc ⊢
  exact hab.trans hbc

lemma idLe_total (a b : Input) : (decide (a.id ≤ b.id) || decide (b.id ≤ a.id)) = true := by
  rw [Bool.or_eq_true, decide_eq_true_eq, decide_eq_true_eq]
  exact le_total a.id b.id

/-- The ids of the inputs in order ascend. -/
lemma pairwise_inOrder (ids : (process.inputs.map Input.id).Nodup) :
    ((inOrder process).map Input.id).Pairwise (· < ·) := by
  have hle : ((inOrder process).map Input.id).Pairwise (· ≤ ·) := by
    rw [List.pairwise_map]
    exact (List.pairwise_mergeSort idLe_trans idLe_total process.inputs).imp of_decide_eq_true
  have hne : ((inOrder process).map Input.id).Pairwise (· ≠ ·) :=
    ((inOrder_perm process).map Input.id).nodup_iff.mpr ids
  exact (hle.and hne).imp fun ⟨hle, hne⟩ => lt_of_le_of_ne hle hne

/-- Inputs with different ids are taken in the same order however they are declared. -/
lemma inOrder_eq_of_perm {process' : Process} (ids : (process.inputs.map Input.id).Nodup)
    (h : process'.inputs.Perm process.inputs) : inOrder process' = inOrder process := by
  refine (mergeSort_eq_of_perm idLe_trans idLe_total h.symm fun a ha b hb hab hba => ?_).symm
  exact List.inj_on_of_nodup_map ids ha hb (le_antisymm (of_decide_eq_true hab) (of_decide_eq_true hba))

/-- What a tool sees is what it declares: its ids in ascending order, each with a value of the declared type,
and on the command line the same values but for those that an expression replaces. -/
structure BoundByType (process : Process) (bound : BoundInputs) : Prop where
  declared : bound.inputs.keys.Perm (process.inputs.map Input.id)
  ascending : bound.inputs.keys.Pairwise (· < ·)
  provided : bound.provided.keys = bound.inputs.keys
  conform : ∀ input ∈ process.inputs, ∃ v, bound.inputs.find? input.id = some v ∧
    conforms v input.type = true ∧
    (input.binding.bind (·.valueFrom) = none → bound.provided.find? input.id = some v)

variable {eval : Evaluator} {tree : FileTree} {config : Configuration} {params : Values} {runtime : Json}
  {library : List String}

lemma boundByType_of_bindInputs (ids : (process.inputs.map Input.id).Nodup) {bound : BoundInputs}
    {before after : List Event}
    (h : (bindInputs eval tree config process params runtime library).run before = (.ok bound, after)) :
    BoundByType process bound := by
  obtain ⟨inputs, _, hinputs, h⟩ := Logged.bind_eq_ok.mp h
  obtain ⟨provided, _, hprovided, h⟩ := Logged.bind_eq_ok.mp h
  obtain rfl : BoundInputs.mk inputs provided = bound := Except.ok.inj (Prod.mk.inj h).1
  have hperm : ((inOrder process).map Input.id).Perm (process.inputs.map Input.id) :=
    (inOrder_perm process).map Input.id
  have hkeys : inputs.keys = (inOrder process).map Input.id :=
    (Logged.keys_of_collect hinputs).trans (OrderedMap.firstKeys_eq_map (hperm.nodup_iff.mpr ids))
  refine ⟨?_, ?_, ?_, fun input mem => ?_⟩
  · rwa [hkeys]
  · rw [hkeys]
    exact pairwise_inOrder ids
  · exact (Logged.keys_of_collect hprovided).trans (Logged.keys_of_collect hinputs).symm
  · obtain ⟨last, hlast, mem', hid⟩ := exists_last ⟨input, mem, rfl⟩
    obtain rfl : last = input := List.inj_on_of_nodup_map ids mem' mem hid
    have hfind := Logged.find?_of_collect (k := last.id) hinputs
    rw [hlast] at hfind
    obtain ⟨v, ⟨_, _, hrun⟩, hv⟩ := hfind
    refine ⟨v, hv, conforms_of_bindInput hrun, fun plain => ?_⟩
    have hfind := Logged.find?_of_collect (k := last.id) hprovided
    rw [hlast] at hfind
    obtain ⟨w, ⟨_, _, hrun⟩, hw⟩ := hfind
    have hvalue := Logged.liftM_eq_ok hrun
    rw [provide_of_plain plain, hv] at hvalue
    obtain rfl : v = w := Except.ok.inj hvalue
    exact hw

/-- **Inputs are bound by their types, in whatever order they come.**  For a tool whose inputs have different
ids, all parameters and any tree of files: when binding succeeds, the tool sees its declared ids in ascending
order, each with a value that conforms to the declared type, and provides the same values unless an expression
replaces one.  Another order of the inputs or of the parameters gives the same result, the same failure and the
same events. -/
theorem inputs_bound_by_type (eval : Evaluator) (tree : FileTree) (config : Configuration)
    (ids : (process.inputs.map Input.id).Nodup) (names : params.keys.Nodup) (runtime : Json)
    (library : List String) :
    (∀ bound before after,
      (bindInputs eval tree config process params runtime library).run before = (.ok bound, after) →
        BoundByType process bound) ∧
    (∀ (process' : Process) (params' : Values), process'.inputs.Perm process.inputs → params'.Perm params →
      bindInputs eval tree config process' params' runtime library =
        bindInputs eval tree config process params runtime library) := by
  refine ⟨fun bound before after h => boundByType_of_bindInputs ids h, ?_⟩
  intro process' params' hinputs hparams
  have hbind : bindInput tree config params' = bindInput tree config params := by
    funext input
    unfold bindInput
    rw [OrderedMap.find?_eq_of_perm names hparams.symm]
  unfold bindInputs
  rw [hbind, inOrder_eq_of_perm ids hinputs]

/-- A tool that declares its reads, whose contents it loads, before the depth, which an expression replaces. -/
def depthTool : Process where
  id := "#depth"
  body := .commandLineTool ⟨["depth"], [], none, none, none⟩
  inputs := [⟨"reads", .union [.null, .array .file none], none, none, [".bai"], true⟩,
    ⟨"depth", .int, none, some { Document.InputBinding.plain with valueFrom := some "deep" }, [], false⟩]
  outputs := []
  requirements := []
  hints := []

/-- Reads with their index. -/
def readsTree : FileTree :=
  ⟨["work"], [(["work"], .directory), (["work", "x.bam"], .file (Text.encode "reads")),
    (["work", "x.bam.bai"], .file (Text.encode "index"))]⟩

/-- The parameters of the tool, and one that it does not declare. -/
def depthParams : Values :=
  [("reads", .array [.file (.ofLocation "/work/x.bam")]), ("note", .null), ("depth", .int 30)]

/-- The reads conform to their type with their contents, and the order plays no part. -/
theorem depth_bound_by_type : ∃ bound after,
    (bindInputs (evaluator evaluateJson) readsTree .standard depthTool depthParams .null []).run [] =
        (.ok bound, after) ∧
      BoundByType depthTool bound ∧
      bindInputs (evaluator evaluateJson) readsTree .standard { depthTool with inputs := depthTool.inputs.reverse }
          depthParams.reverse .null [] =
        bindInputs (evaluator evaluateJson) readsTree .standard depthTool depthParams .null [] := by
  have ids : (depthTool.inputs.map Input.id).Nodup := by decide
  have names : depthParams.keys.Nodup := by decide
  obtain ⟨hbound, hsame⟩ := inputs_bound_by_type (evaluator evaluateJson) readsTree .standard ids names .null []
  have hordered : inOrder depthTool = depthTool.inputs.reverse := by
    simp [inOrder, depthTool, List.mergeSort]
  have hbinds : (((bindInputs (evaluator evaluateJson) readsTree .standard depthTool depthParams .null
      []).run []).1.toOption.any fun bound => bound.inputs.keys == ["depth", "reads"]) = true := by
    unfold bindInputs
    rw [hordered]
    decide +kernel
  obtain ⟨bound, after, run, -⟩ := Outputs.exists_of_any _ _ hbinds
  exact ⟨bound, after, run, hbound bound [] after run,
    hsame _ _ (List.reverse_perm _) (List.reverse_perm _)⟩

end Tools

end Binding

end WorkflowEngine
