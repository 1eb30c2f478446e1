import WorkflowEngine.Proofs.Conformance
import WorkflowEngine.Proofs.Publication

/-!
# Types of outputs

A step reads the outputs of others as values of their declared types.  They are, but for two gaps.

**Searches.**  What an output's own expression gives is checked against the type, and a single file or
directory, or any value, can stand for what was found.  An array is taken as it was found: when its items are
declared to be no files, it is `Misfiled`.  This is the only gap of a search: `conforms_iff_of_collect`.

**Tellings.**  The object that an expression returns, and the report that a tool leaves, are not checked at
all.  So an output fits its type exactly when what was told does: `conforms_iff_of_reported`.

**Collections.**  `collected_outputs_fit` puts the two together.  Both gaps occur: `mistyped_outputs`.
-/

namespace WorkflowEngine

open Document (DataType Output Process)
open Binding (conforms)

/-! ## Collection -/

namespace OrderedMap

variable {ε α β γ : Type}

/-- A map may be collected from entries that are changed when they are stored. -/
lemma find?_of_collect_map (key : γ → String) (f : γ → Except ε β) (g : β → α) {xs : List γ}
    {m : OrderedMap α}
    (h : xs.foldlM (fun map x => do return insert map (key x) (g (← f x))) [] = .ok m) (k : String) :
    match lastWith key xs k with
    | some x => ∃ v, (∃ w, f x = .ok w ∧ g w = v) ∧ m.find? k = some v
    | none => m.find? k = none := by
  have hstored : (fun (map : OrderedMap α) x => (do return insert map (key x) (g (← f x)) : Except ε _)) =
      fun map x => do return insert map (key x) (← (f x).map g) := by
    funext map x
    exact (bind_map_ok (f x) g fun v => pure (insert map (key x) v)).symm
  rw [hstored] at h
  have hfind := find?_of_collect key (fun x => (f x).map g) h k
  cases hl : lastWith key xs k with
  | none => simpa [hl] using hfind
  | some x =>
      rw [hl] at hfind
      obtain ⟨v, hv, hfind⟩ := hfind
      exact ⟨v, map_eq_ok_iff.mp hv, hfind⟩

/-- Two lookups are related when what is found is. -/
lemma rel_of_find {P R : α → β → Prop} {x? : Option α} {y? : Option β}
    (h : match x? with
      | some x => ∃ y, P x y ∧ y? = some y
      | none => y? = none)
    (hR : ∀ x y, P x y → R x y) : Option.Rel R x? y? := by
  cases x? with
  | none =>
      obtain rfl := h
      exact .none
  | some x =>
      obtain ⟨y, hxy, rfl⟩ := h
      exact .some (hR x y hxy)

end OrderedMap

namespace Logged

variable {α β : Type}

lemma find?_of_collect {key : β → String} {f : β → Logged α} {k : String} :
    ∀ {xs : List β} {init m : OrderedMap α} {before after : List Event},
      (xs.foldlM (fun map x => do return OrderedMap.insert map (key x) (← f x)) init).run before =
        (.ok m, after) →
      match OrderedMap.lastWith key xs k with
      | some x => ∃ v, (∃ own rest, (f x).run own = (.ok v, rest)) ∧ m.find? k = some v
      | none => m.find? k = init.find? k
  | [], init, m, before, after, h => by
      obtain rfl : init = m := Except.ok.inj (Prod.mk.inj h).1
      simp [OrderedMap.lastWith]
  | x :: xs, init, m, before, after, h => by
      rw [List.foldlM_cons] at h
      obtain ⟨between, events, hx, h⟩ := bind_eq_ok.mp h
      obtain ⟨v, _, hv, hbetween⟩ := bind_eq_ok.mp hx
      obtain rfl := Except.ok.inj (Prod.mk.inj hbetween).1
      have hrest := find?_of_collect (k := k) h
      rw [OrderedMap.lastWith_cons]
      cases hl : OrderedMap.lastWith key xs k with
      | some y => simpa [hl] using hrest
      | none =>
          rw [hl, OrderedMap.find?_insert] at hrest
          by_cases hk : key x = k
          · simpa [hk] using ⟨v, ⟨_, _, hv⟩, by simpa [hk] using hrest⟩
          · simpa [hk] using hrest

lemma mapM_eq_ok {f : α → Logged β} :
    ∀ {xs : List α} {ys : List β} {before after : List Event},
      (xs.mapM f).run before = (.ok ys, after) →
      List.Forall₂ (fun x y => ∃ own rest, (f x).run own = (.ok y, rest)) xs ys
  | [], ys, before, after, h => by
      rw [List.mapM_nil] at h
      obtain rfl : [] = ys := Except.ok.inj (Prod.mk.inj h).1
      exact .nil
  | x :: xs, ys, before, after, h => by
      rw [List.mapM_cons] at h
      obtain ⟨y, _, hy, h⟩ := bind_eq_ok.mp h
      obtain ⟨rest, _, hrest, h⟩ := bind_eq_ok.mp h
      obtain rfl : y :: rest = ys := Except.ok.inj (Prod.mk.inj h).1
      exact .cons ⟨_, _, hy⟩ (mapM_eq_ok hrest)

end Logged

namespace Outputs

variable {site : Site} {output : Output} {process : Process} {outputs : Values}

/-- A value that a pattern can stand for. -/
def IsMatch (directories : Bool) (v : Value) : Prop :=
  if directories then ∃ d, v = .directory d else ∃ f, v = .file f

lemma isMatch_of_foundValue {directories contents : Bool} {path : String} {v : Value}
    (h : foundValue site directories contents path = .ok v) : IsMatch directories v := by
  unfold foundValue at h
  dsimp only at h
  split_ifs at h with hd hc
  · obtain rfl := Except.ok.inj h
    exact (if_pos hd).mpr ⟨_, rfl⟩
  · obtain ⟨text, -, rfl⟩ := map_eq_ok_iff.mp h
    exact (if_neg hd).mpr ⟨_, rfl⟩
  · obtain rfl := Except.ok.inj h
    exact (if_neg hd).mpr ⟨_, rfl⟩

lemma isMatch_of_findAll {directories contents : Bool} {patterns : List String} {found : List Value}
    (h : findAll site directories contents patterns = .ok found) : ∀ v ∈ found, IsMatch directories v := by
  obtain ⟨paths, -, h⟩ := bind_eq_ok.mp h
  intro v hv
  obtain ⟨path, -, hpath⟩ := forall₂_mem_right (mapM_eq_ok_iff.mp h) hv
  exact isMatch_of_foundValue hpath

lemma isMatch_of_withSecondary {directories : Bool} {v w : Value} {before after : List Event}
    (hv : IsMatch directories v) (h : (withSecondary site output v).run before = (.ok w, after)) :
    IsMatch directories w := by
  unfold IsMatch at hv ⊢
  split_ifs at hv ⊢ with hd
  · obtain ⟨d, rfl⟩ := hv
    obtain rfl : .directory d = w := Except.ok.inj (Prod.mk.inj h).1
    exact ⟨d, rfl⟩
  · obtain ⟨f, rfl⟩ := hv
    obtain ⟨g, _, -, h⟩ := Logged.bind_eq_ok.mp h
    obtain rfl : .file g = w := Except.ok.inj (Prod.mk.inj h).1
    exact ⟨g, rfl⟩

lemma isOptional_of_patternsOf (h : patternsOf site output = .ok none) :
    output.type.isOptional = true ∧ output.binding = none := by
  unfold patternsOf at h
  split at h
  · obtain ⟨_, -, h⟩ := map_eq_ok_iff.mp h
    cases h
  · obtain ⟨_, -, h⟩ := map_eq_ok_iff.mp h
    cases h
  · obtain ⟨_, -, h⟩ := map_eq_ok_iff.mp h
    cases h
  · split_ifs at h with hopt
    exact ⟨hopt, by assumption⟩

lemma conforms_of_evaluated {found : List Value} {expression : String} {v : Value}
    (h : evaluated site output found expression = .ok v) : conforms v output.type = true := by
  obtain ⟨w, -, h⟩ := bind_eq_ok.mp h
  split_ifs at h with hw
  obtain rfl := Except.ok.inj h
  exact hw

lemma mem_of_single {found : List Value} {optional : Bool} {v : Value}
    (h : reconcile.single output found optional = .ok v) :
    v ∈ found ∨ optional = true ∧ v = .null := by
  unfold reconcile.single at h
  split at h
  · exact .inl (by simp [Except.ok.inj h])
  · split_ifs at h with hopt
    · exact .inr ⟨hopt, (Except.ok.inj h).symm⟩
    · cases h
  · cases h

/-- What is found becomes an array, or one value of it is taken, or null where none is needed. -/
lemma reconcile_eq_ok {found : List Value} {v : Value} (h : reconcile output found = .ok v) :
    (∃ items binding, output.type.nonNull = .array items binding ∧ v = .array found) ∨
      (output.type.isFile = true ∨ output.type.nonNull = .directory ∨ output.type.nonNull = .any) ∧
        (v ∈ found ∨ output.type.isOptional = true ∧ v = .null) := by
  unfold reconcile at h
  split at h
  case h_1 items binding htype => exact .inl ⟨items, binding, htype, (Except.ok.inj h).symm⟩
  case h_2 htype => exact .inr ⟨.inl (by simp [DataType.isFile, htype]), mem_of_single h⟩
  case h_3 htype => exact .inr ⟨.inl (by simp [DataType.isFile, htype]), mem_of_single h⟩
  case h_4 htype => exact .inr ⟨.inl (by simp [DataType.isFile, htype]), mem_of_single h⟩
  case h_5 htype => exact .inr ⟨.inr (.inl htype), mem_of_single h⟩
  case h_6 htype =>
    refine .inr ⟨.inr (.inr htype), (mem_of_single h).imp_right ?_⟩
    rintro ⟨⟨⟩, -⟩
  case h_7 => cases h

/-! ## Misfits -/

/-- Files stand in an array whose items are declared to be something else, and no expression was asked. -/
structure Misfiled (output : Output) (v : Value) : Prop where
  unasked : output.binding.bind (·.outputEval) = none
  items : ∃ items binding, output.type.nonNull = .array items binding ∧
    conforms (.file .blank) items = false
  file : ∃ file rest, v = .array (.file file :: rest)

lemma not_misfiled {v : Value} (h : output.type.isArray = false) : ¬ Misfiled output v := by
  rintro ⟨-, ⟨items, binding, htype, -⟩, -⟩
  rw [DataType.isArray, htype] at h
  cases h

lemma isNull_of_isMatch {directories : Bool} {v : Value} (h : IsMatch directories v) :
    v.isNull = false := by
  unfold IsMatch at h
  split_ifs at h <;> obtain ⟨_, rfl⟩ := h <;> rfl

/-- What is found for a file or a directory fits, and so does anything where anything is allowed. -/
lemma conforms_of_isMatch {v : Value} (hv : IsMatch (wantsDirectories output.type) v)
    (h : output.type.isFile = true ∨ output.type.nonNull = .directory ∨ output.type.nonNull = .any) :
    conforms v output.type = true := by
  rw [← Binding.conforms_nonNull (isNull_of_isMatch hv)]
  rcases h with h | h | h
  · unfold DataType.isFile at h
    split at h
    case h_4 => cases h
    all_goals
      next htype =>
        simp only [IsMatch, wantsDirectories, htype] at hv
        obtain ⟨f, rfl⟩ := hv
        rw [htype]
        rfl
  · simp only [IsMatch, wantsDirectories, h, if_true] at hv
    obtain ⟨d, rfl⟩ := hv
    rw [h]
    rfl
  · rw [h]
    rfl

lemma nonNull_items {items : DataType} {binding : Option Document.InputBinding} {type : DataType}
    (htype : type.nonNull = .array items binding) (hd : wantsDirectories type = true) :
    items.nonNull = .directory := by
  unfold wantsDirectories at hd
  rw [htype] at hd
  dsimp only at hd
  split at hd
  · assumption
  · cases hd

/-- Files fit a type together, or there is none. -/
lemma all_conform_iff_of_files {items : DataType} {found : List Value}
    (hfound : ∀ x ∈ found, IsMatch false x) :
    (∀ x ∈ found, conforms x items = true) ↔
      ¬ (conforms (.file .blank) items = false ∧ ∃ file rest, found = .file file :: rest) := by
  constructor
  · rintro h ⟨hitems, file, rest, rfl⟩
    have hfile := h _ List.mem_cons_self
    rw [Binding.conforms_file file .blank, hitems] at hfile
    cases hfile
  · intro h x hx
    obtain ⟨f, rfl⟩ := hfound x hx
    rw [Binding.conforms_file f .blank]
    by_contra hitems
    obtain ⟨first, rest, rfl⟩ := List.exists_cons_of_ne_nil (List.ne_nil_of_mem hx)
    obtain ⟨g, rfl⟩ := hfound _ List.mem_cons_self
    exact h ⟨by simpa using hitems, g, rest, rfl⟩

/-- What is found for an array fits unless it is made of files and the items are not. -/
lemma conforms_array_iff {items : DataType} {binding : Option Document.InputBinding}
    (htype : output.type.nonNull = .array items binding) {found : List Value}
    (hfound : ∀ x ∈ found, IsMatch (wantsDirectories output.type) x)
    (unasked : output.binding.bind (·.outputEval) = none) :
    conforms (.array found) output.type = true ↔ ¬ Misfiled output (.array found) := by
  rw [← Binding.conforms_nonNull rfl, htype, conforms, List.all_eq_true]
  cases hd : wantsDirectories output.type with
  | true =>
      rw [hd] at hfound
      refine iff_of_true (fun x hx => ?_) ?_
      · obtain ⟨d, rfl⟩ := hfound x hx
        rw [← Binding.conforms_nonNull rfl, nonNull_items htype hd]
        rfl
      · rintro ⟨-, -, ⟨file, rest, h⟩⟩
        obtain rfl := Value.array.inj h
        obtain ⟨d, hd⟩ := hfound _ List.mem_cons_self
        cases hd
  | false =>
      rw [hd] at hfound
      rw [all_conform_iff_of_files hfound, not_iff_not]
      constructor
      · rintro ⟨hitems, file, rest, rfl⟩
        exact ⟨unasked, ⟨items, binding, htype, hitems⟩, file, rest, rfl⟩
      · rintro ⟨-, ⟨items', _, htype', hitems⟩, file, rest, hfile⟩
        obtain ⟨rfl, -⟩ := DataType.array.inj (htype.symm.trans htype')
        exact ⟨hitems, file, rest, Value.array.inj hfile⟩

lemma conforms_iff_of_reconcile {found : List Value} {v : Value}
    (unasked : output.binding.bind (·.outputEval) = none)
    (hfound : ∀ x ∈ found, IsMatch (wantsDirectories output.type) x)
    (h : reconcile output found = .ok v) :
    conforms v output.type = true ↔ ¬ Misfiled output v := by
  rcases reconcile_eq_ok h with ⟨items, binding, htype, rfl⟩ | ⟨htype, hv⟩
  · exact conforms_array_iff htype hfound unasked
  · have harray : output.type.isArray = false := by
      rcases htype with h | h | h
      · unfold DataType.isFile at h
        unfold DataType.isArray
        split at h <;> simp_all
      · simp [DataType.isArray, h]
      · simp [DataType.isArray, h]
    refine iff_of_true ?_ (not_misfiled harray)
    rcases hv with hv | ⟨hopt, rfl⟩
    · exact conforms_of_isMatch (hfound v hv) htype
    · rw [Binding.conforms_null, hopt]

/-- What a search gives fits its type unless it is misfiled. -/
lemma conforms_iff_of_collect {v : Value} {before after : List Event}
    (h : (collect site output).run before = (.ok v, after)) :
    conforms v output.type = true ↔ ¬ Misfiled output v := by
  unfold collect at h
  obtain ⟨patterns, _, hp, h⟩ := Logged.bind_eq_ok.mp h
  have hpatterns := Logged.liftM_eq_ok hp
  cases patterns with
  | none =>
      obtain rfl : .null = v := Except.ok.inj (Prod.mk.inj h).1
      refine iff_of_true ?_ ?_
      · rw [Binding.conforms_null, (isOptional_of_patternsOf hpatterns).1]
      · rintro ⟨-, -, ⟨_, _, ⟨⟩⟩⟩
  | some patterns =>
      obtain ⟨found, _, hf, h⟩ := Logged.bind_eq_ok.mp h
      have hfound := isMatch_of_findAll (Logged.liftM_eq_ok hf)
      split at h
      case h_1 expression asked =>
        refine iff_of_true (conforms_of_evaluated (Logged.liftM_eq_ok h)) ?_
        rintro ⟨unasked, -, -⟩
        rw [asked] at unasked
        cases unasked
      case h_2 unasked =>
        obtain ⟨joined, _, hj, h⟩ := Logged.bind_eq_ok.mp h
        refine conforms_iff_of_reconcile unasked (fun w hw => ?_) (Logged.liftM_eq_ok h)
        obtain ⟨x, hx, _, _, hxw⟩ := forall₂_mem_right (Logged.mapM_eq_ok hj) hw
        exact isMatch_of_withSecondary (hfound x hx) hxw

/-! ## Origins -/

/-- Where the outputs of a tool come from: it has told them, or they were searched for. -/
inductive Origin where
  | told (fields : OrderedMap Json)
  | found

/-- What keeps the value of an output from its type.  Of what is told nothing is checked. -/
def Origin.Unfit (output : Output) (v : Value) : Origin → Prop
  | .told fields => ∃ json, fields.find? output.id = some json ∧
      conforms (.ofJson json) output.type = false
  | .found => Misfiled output v

/-- The outputs of a process are of their types, up to what is wrong with their origin.  Of several outputs
with one id the last counts. -/
def Fits (process : Process) (origin : Origin) (outputs : Values) : Prop :=
  ∀ id, Option.Rel (fun output v => conforms v output.type = true ↔ ¬ origin.Unfit output v)
    (OrderedMap.lastWith Output.id process.outputs id) (outputs.find? id)

lemma Fits.find? {origin : Origin} (h : Fits process origin outputs) (id : String)
    (ho : OrderedMap.lastWith Output.id process.outputs id = some output) :
    ∃ v, outputs.find? id = some v ∧ (conforms v output.type = true ↔ ¬ origin.Unfit output v) := by
  have hid := h id
  rw [ho] at hid
  cases hv : outputs.find? id with
  | none => rw [hv] at hid; cases hid
  | some v =>
      rw [hv] at hid
      cases hid with
      | some hfits => exact ⟨v, rfl, hfits⟩

/-- A told value fits when what was told does, and a missing one is null where that is allowed. -/
lemma conforms_iff_of_reported {fields : OrderedMap Json} {absent : String} {v : Value}
    (h : reported output fields absent = .ok v) :
    conforms v output.type = true ↔ ¬ (Origin.told fields).Unfit output v := by
  unfold reported at h
  rw [Origin.Unfit]
  split at h
  case h_1 json hjson =>
    obtain rfl := Except.ok.inj h
    simp [hjson]
  case h_2 hjson =>
    split_ifs at h with hopt
    obtain rfl := Except.ok.inj h
    simp [hjson, Binding.conforms_null, hopt]

lemma fits_expressionOutputs {fields : OrderedMap Json}
    (h : expressionOutputs process (.obj fields) = .ok outputs) : Fits process (.told fields) outputs :=
  fun id => OrderedMap.rel_of_find (OrderedMap.find?_of_collect _ _ h id)
    fun _ _ => conforms_iff_of_reported

/-- The paths of reported files are settled, which makes no difference to types. -/
lemma fits_reportedOutputs {report : String} (h : reportedOutputs site process report = .ok outputs) :
    ∃ text fields, Files.readText site.tree report = .ok text ∧ Json.parse? text = some (.obj fields) ∧
      Fits process (.told fields) outputs := by
  obtain ⟨text, htext, h⟩ := bind_eq_ok.mp h
  split at h
  case h_1 => cases h
  case h_3 => cases h
  case h_2 fields hfields =>
    refine ⟨text, fields, htext, hfields, fun id => ?_⟩
    refine OrderedMap.rel_of_find
      (OrderedMap.find?_of_collect_map _ (fun output => reported output fields _) _ h id) ?_
    rintro output _ ⟨v, hv, rfl⟩
    rw [Binding.conforms_mapFiles]
    exact conforms_iff_of_reported hv

lemma fits_of_collect {before after : List Event}
    (h : (process.outputs.foldlM (fun (outputs : Values) output => do
      return outputs.insert output.id (← collect site output)) []).run before = (.ok outputs, after)) :
    Fits process .found outputs := by
  intro id
  refine OrderedMap.rel_of_find (Logged.find?_of_collect (k := id) h) ?_
  rintro output v ⟨_, _, hv⟩
  exact conforms_iff_of_collect hv

/-- **Outputs are of their types**, unless they are told and what is told is not, or they are misfiled. -/
theorem collected_outputs_fit (process : Process) :
    (∀ result outputs, expressionOutputs process result = .ok outputs →
      ∃ fields, result = .obj fields ∧ Fits process (.told fields) outputs) ∧
    ∀ site before after outputs, (toolOutputs site process).run before = (.ok outputs, after) →
      if site.tree.isFile (Path.join site.directory reportName) then
        ∃ text fields, Files.readText site.tree (Path.join site.directory reportName) = .ok text ∧
          Json.parse? text = some (.obj fields) ∧ Fits process (.told fields) outputs
      else Fits process .found outputs := by
  refine ⟨fun result outputs h => ?_, fun site before after outputs h => ?_⟩
  · cases result with
    | obj fields => exact ⟨fields, rfl, fits_expressionOutputs h⟩
    | _ => cases h
  · unfold toolOutputs at h
    dsimp only at h
    split_ifs at h ⊢
    · exact fits_reportedOutputs (Logged.liftM_eq_ok h)
    · exact fits_of_collect h

/-! ## Tools that count -/

/-- A tool with one output. -/
def countTool (body : Document.Body) (type : DataType) (binding : Option Document.OutputBinding) :
    Process where
  id := "#count"
  body := body
  inputs := []
  outputs := [⟨"n", type, binding, [], []⟩]
  requirements := []
  hints := []

/-- A tool that evaluates an expression. -/
def countExpression : Process := countTool (.expressionTool "$({})") .int none

/-- A command line tool that is to report a number. -/
def countCommand : Process := countTool (.commandLineTool ⟨["count"], [], none, none, none⟩) .int none

/-- A command line tool that leaves its output in files. -/
def countLogs (items : DataType) : Process :=
  countTool (.commandLineTool ⟨["count"], [], none, none, none⟩) (.array items none)
    (some { Document.OutputBinding.plain with glob := ["*.log"] })

/-- A working directory with one file. -/
def workSite (name text : String) : Site where
  interpreter := evaluateJson
  tree := ⟨["work"], [(["work"], .directory), (["work", name], .file (Text.encode text))]⟩
  config := .standard
  directory := "/work"
  stdout := none
  stderr := none
  context := .ofInputs []

/-- Work that ends well, with a result that passes a check. -/
lemma exists_of_any {α : Type} (x : Outcome α × List Event) (check : α → Bool)
    (h : (x.1.toOption.any check) = true) : ∃ result after, x = (.ok result, after) ∧ check result = true := by
  obtain ⟨outcome, after⟩ := x
  cases outcome with
  | error e => cases h
  | ok result => exact ⟨result, after, rfl, h⟩

/-- An expression that tells a number, and files that are searched for, fit. -/
theorem counted_outputs_fit :
    (∃ outputs v, expressionOutputs countExpression (.obj [("n", .int 5)]) = .ok outputs ∧
      outputs.find? "n" = some v ∧ conforms v .int = true) ∧
    ∃ outputs after v,
      (toolOutputs (workSite "a.log" "") (countLogs .file)).run [] = (.ok outputs, after) ∧
        outputs.find? "n" = some v ∧ conforms v (.array .file none) = true := by
  constructor
  · have run : expressionOutputs countExpression (.obj [("n", .int 5)]) = .ok [("n", .int 5)] := rfl
    obtain ⟨fields, hfields, fits⟩ := (collected_outputs_fit countExpression).1 _ _ run
    obtain rfl := Json.obj.inj hfields
    obtain ⟨v, hv, hfit⟩ := fits.find? "n" rfl
    refine ⟨_, v, run, hv, hfit.mpr ?_⟩
    rintro ⟨json, hjson, hunfit⟩
    obtain rfl : .int 5 = json := Option.some.inj hjson
    cases hunfit
  · have unreported : ¬ (workSite "a.log" "").tree.isFile
        (Path.join (workSite "a.log" "").directory reportName) = true := by
      decide +kernel
    obtain ⟨outputs, after, run, -⟩ := exists_of_any
      ((toolOutputs (workSite "a.log" "") (countLogs .file)).run []) (fun _ => true) (by decide +kernel)
    have fits := (collected_outputs_fit (countLogs .file)).2 (workSite "a.log" "") [] after outputs run
    rw [if_neg unreported] at fits
    obtain ⟨v, hv, hfit⟩ := fits.find? "n" rfl
    refine ⟨outputs, after, v, run, hv, hfit.mpr ?_⟩
    rintro ⟨-, ⟨items, binding, htype, hitems⟩, -⟩
    obtain ⟨rfl, -⟩ := DataType.array.inj htype
    cases hitems

/-- The outputs of a process are of their types. -/
def Conform (process : Process) (outputs : Values) : Prop :=
  ∀ output ∈ process.outputs, ∀ v, outputs.find? output.id = some v → conforms v output.type = true

/-- Whether the one output of a tool that counts is not of its type. -/
def miscounts (type : DataType) (outputs : Values) : Bool :=
  (outputs.find? "n").any fun v => !conforms v type

lemma not_conform_of_miscounts {body : Document.Body} {type : DataType}
    {binding : Option Document.OutputBinding} (h : miscounts type outputs = true) :
    ¬ Conform (countTool body type binding) outputs := by
  intro conform
  obtain ⟨v, hv, hmistyped⟩ := (Option.any_eq_true _ _).mp h
  have hfits : conforms v type = true := conform _ List.mem_cons_self v hv
  rw [hfits] at hmistyped
  cases hmistyped

/-- A text is told where a number is declared, by an expression or in a report, and a file is found where
an array of numbers is. -/
theorem mistyped_outputs :
    (∃ outputs, expressionOutputs countExpression (.obj [("n", .str "five")]) = .ok outputs ∧
      ¬ Conform countExpression outputs) ∧
    (∃ outputs after, (toolOutputs (workSite reportName "\x7b\"n\":\"five\"\x7d") countCommand).run [] =
      (.ok outputs, after) ∧ ¬ Conform countCommand outputs) ∧
    ∃ outputs after, (toolOutputs (workSite "a.log" "") (countLogs .int)).run [] =
      (.ok outputs, after) ∧ ¬ Conform (countLogs .int) outputs := by
  refine ⟨⟨[("n", .str "five")], rfl, not_conform_of_miscounts rfl⟩, ?_, ?_⟩
  · obtain ⟨outputs, after, run, hmiscounts⟩ := exists_of_any
      ((toolOutputs (workSite reportName "\x7b\"n\":\"five\"\x7d") countCommand).run []) (miscounts .int)
      (by decide +kernel)
    exact ⟨outputs, after, run, not_conform_of_miscounts hmiscounts⟩
  · obtain ⟨outputs, after, run, hmiscounts⟩ := exists_of_any
      ((toolOutputs (workSite "a.log" "") (countLogs .int)).run []) (miscounts (.array .int none))
      (by decide +kernel)
    exact ⟨outputs, after, run, not_conform_of_miscounts hmiscounts⟩

end Outputs

end WorkflowEngine
