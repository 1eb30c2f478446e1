import WorkflowEngine.Proofs.Changes
import WorkflowEngine.Proofs.Validation

/-!
# Supplies

What the steps of a workflow are fed.

**Waiting.**  A value can only be pending because a step that produces it has not ended:
`Supply.feed_ne_none`.

**Fed values.**  `readSource` and `fedValue` say outright what a step is fed; `feed_eq_ok` shows that
gathering comes to the same, and that every producer has succeeded by then.

**Later supplies.**  What a step has been fed, it is fed later too, for its producers have ended:
`value_later`, `Supply.feed_later`.

**Failed supplies.**  A step cannot be fed when one of its sources failed (`exists_value_of_feed`), and
this failure is a cancellation: `isCancelled_of_feed`.
-/

namespace WorkflowEngine.Scheduling

open Document (Step StepInput)
open Machine (find?_steps_ofTask)

variable {κ : Type}

/-! ## Waiting -/

/-- A value that need not be waited for, or a failure. -/
def Awaited.Settled {α : Type} (x : Awaited α) : Prop := x.run ≠ none

lemma settled_pure {α : Type} (a : α) : Awaited.Settled (pure a : Awaited α) := by
  simp [Awaited.Settled, pure, ExceptT.pure, ExceptT.mk, ExceptT.run]

lemma settled_throw {α : Type} (failure : Failure) :
    Awaited.Settled (throw failure : Awaited α) := by
  simp [Awaited.Settled]

lemma settled_bind {α β : Type} {x : Awaited α} {f : α → Awaited β} (hx : x.Settled)
    (hf : ∀ a, (f a).Settled) : Awaited.Settled (x >>= f) := by
  unfold Awaited.Settled at hx ⊢
  rw [ExceptT.run_bind]
  cases hrun : x.run with
  | none => exact absurd hrun hx
  | some result =>
      cases result with
      | error failure => simp
      | ok a =>
          have ha := hf a
          unfold Awaited.Settled at ha
          simpa using ha

lemma settled_mapM {α β : Type} {f : α → Awaited β} :
    ∀ {xs : List α}, (∀ x ∈ xs, (f x).Settled) → Awaited.Settled (xs.mapM f)
  | [], _ => settled_pure []
  | x :: xs, h => by
      rw [List.mapM_cons]
      exact settled_bind (h x (by simp)) fun _ =>
        settled_bind (settled_mapM fun y hy => h y (by simp [hy])) fun _ => settled_pure _

lemma settled_foldlM {α β : Type} {f : β → α → Awaited β} :
    ∀ {xs : List α} {b : β}, (∀ b, ∀ x ∈ xs, (f b x).Settled) → Awaited.Settled (xs.foldlM f b)
  | [], b, _ => settled_pure b
  | x :: xs, b, h => by
      rw [List.foldlM_cons]
      exact settled_bind (h b x (by simp)) fun _ =>
        settled_foldlM fun c y hy => h c y (by simp [hy])

namespace Supply

/-- The step that a source comes from has ended. -/
def Ended (s : Supply) (source : String) : Prop :=
  ∀ producer status outputs, s.producers.find? source = some producer →
    s.steps.find? producer = some (status, outputs) → status.isFinal = true

lemma settled_value {s : Supply} {source : String} (h : s.Ended source) :
    (s.value source).Settled := by
  unfold value
  split
  · next producer hp =>
      unfold outputOf
      split
      · exact settled_throw _
      · exact settled_throw _
      · exact settled_pure _
      · next entry hfailed hsucceeded hs =>
          obtain ⟨status, outputs⟩ := entry
          have hfinal := h producer _ _ hp hs
          cases status <;> simp_all [Status.isFinal]
  · exact settled_pure _

lemma settled_gather {s : Supply} {sources : List String} (h : ∀ source ∈ sources, s.Ended source) :
    (s.gather sources).Settled := by
  unfold gather
  split
  · exact settled_pure _
  · exact settled_value (h _ (by simp))
  · exact settled_bind (settled_mapM fun source hs => settled_value (h source hs))
      fun _ => settled_pure _

/-- **A step whose producers have ended is not kept waiting.** -/
lemma feed_ne_none {s : Supply} {step : Step}
    (h : ∀ source ∈ sourcesOf step, s.Ended source) : s.feed step ≠ none := by
  refine settled_foldlM fun values input hi => settled_bind (settled_bind ?_ fun _ => ?_) fun _ => ?_
  · refine settled_gather fun source hs => h source ?_
    exact List.mem_flatMap.mpr ⟨input, hi, hs⟩
  · exact settled_pure _
  · exact settled_pure _

end Supply

/-! ## Fed values -/

/-- The value of a source, from an output of its producer or a parameter of the workflow. -/
def readSource (workflow : Task κ) (source : String) : Value :=
  let name := Ident.localName source
  match (outputSteps workflow.info.process).find? source with
  | some producer =>
    ((workflow.children.find? producer).bind fun task => task.state.outputs.find? name).getD .null
  | none => (workflow.state.parameters.find? name).getD .null

/-- The value of some sources: null for none, the value of one, and an array of several in order. -/
def readSources (workflow : Task κ) : List String → Value
  | [] => .null
  | [source] => readSource workflow source
  | sources => .array (sources.map (readSource workflow))

/-- What an input of a step is fed: the value of its sources, or its default in place of null. -/
def fedValue (workflow : Task κ) (input : StepInput) : Value :=
  match readSources workflow input.sources with
  | .null => input.default.getD .null
  | value => value

/-- What a step is fed: one value for each of its inputs. -/
def fedValues (workflow : Task κ) (step : Step) : Values :=
  OrderedMap.ofList (step.inputs.map fun input => (input.id, fedValue workflow input))

/-- The step that a source comes from has succeeded. -/
def Supplied (workflow : Task κ) (source : String) : Prop :=
  ∀ producer, (outputSteps workflow.info.process).find? source = some producer →
    ∃ task, workflow.children.find? producer = some task ∧ task.status = .succeeded

section Fed

variable {cancelled : Bool} {workflow : Task κ}

lemma awaited_bind_eq_ok {α β : Type} {x : Awaited α} {f : α → Awaited β} {b : β} :
    (x >>= f).run = some (.ok b) ↔ ∃ a, x.run = some (.ok a) ∧ (f a).run = some (.ok b) := by
  rw [ExceptT.run_bind]
  cases x.run with
  | none => simp
  | some r => cases r <;> simp

lemma awaited_bind_eq_error {α β : Type} {x : Awaited α} {f : α → Awaited β} {failure : Failure} :
    (x >>= f).run = some (.error failure) ↔ x.run = some (.error failure) ∨
      ∃ a, x.run = some (.ok a) ∧ (f a).run = some (.error failure) := by
  rw [ExceptT.run_bind]
  cases x.run with
  | none => simp
  | some r => cases r <;> simp

/-- What becomes of a source whose producer is some task. -/
def produced (cancelled : Bool) (producer source : String) (task : Task κ) : Awaited Value :=
  match task.status with
  | .succeeded => return (task.state.outputs.find? (Ident.localName source)).getD .null
  | .failed failure => throw (Supply.producerFailed producer failure)
  | _ => if cancelled then throw Supply.runCancelled else Awaited.pending

lemma value_of_input {source : String} (hp : (outputSteps workflow.info.process).find? source = none) :
    (Supply.ofTask cancelled workflow).value source =
      pure ((workflow.state.parameters.find? (Ident.localName source)).getD .null) := by
  have hproducers : (Supply.ofTask cancelled workflow).producers.find? source = none := hp
  rw [Supply.value, hproducers]
  rfl

lemma value_of_producer {source producer : String} {task : Task κ}
    (hp : (outputSteps workflow.info.process).find? source = some producer)
    (hc : workflow.children.find? producer = some task) :
    (Supply.ofTask cancelled workflow).value source = produced cancelled producer source task := by
  have hproducers : (Supply.ofTask cancelled workflow).producers.find? source = some producer := hp
  rw [Supply.value, hproducers]
  dsimp only
  rw [Supply.outputOf, find?_steps_ofTask, hc, Option.map_some, produced]
  cases task.status <;> rfl

lemma value_of_missing {source producer : String}
    (hp : (outputSteps workflow.info.process).find? source = some producer)
    (hc : workflow.children.find? producer = none) :
    (Supply.ofTask cancelled workflow).value source =
      throw (.resolve .stepScheduler ("no task for step '" ++ producer ++ "'")) := by
  have hproducers : (Supply.ofTask cancelled workflow).producers.find? source = some producer := hp
  rw [Supply.value, hproducers]
  dsimp only
  rw [Supply.outputOf, find?_steps_ofTask, hc, Option.map_none]

/-- **A source can be read once its producer has succeeded.** -/
lemma value_eq_ok {source : String} {v : Value}
    (h : ((Supply.ofTask cancelled workflow).value source).run = some (.ok v)) :
    Supplied workflow source ∧ v = readSource workflow source := by
  unfold Supplied readSource
  cases hp : (outputSteps workflow.info.process).find? source with
  | none =>
      rw [value_of_input hp] at h
      have hv : (workflow.state.parameters.find? (Ident.localName source)).getD .null = v := by
        simpa using h
      exact ⟨by simp, hv.symm⟩
  | some producer =>
      cases hc : workflow.children.find? producer with
      | none =>
          rw [value_of_missing hp hc] at h
          simp at h
      | some task =>
          rw [value_of_producer hp hc, produced] at h
          cases hs : task.status with
          | succeeded =>
              have hv : (task.state.outputs.find? (Ident.localName source)).getD .null = v := by
                simpa [hs] using h
              refine ⟨fun p hp => ⟨task, ?_, hs⟩, by simp [hc, hv]⟩
              obtain rfl : producer = p := Option.some.inj hp
              exact hc
          | failed failure => simp [hs] at h
          | pending => cases cancelled <;> simp [hs, Awaited.pending] at h
          | running => cases cancelled <;> simp [hs, Awaited.pending] at h

lemma awaited_mapM_eq_ok {α β : Type} {f : α → Awaited β} :
    ∀ {xs : List α} {ys : List β}, (xs.mapM f).run = some (.ok ys) →
      List.Forall₂ (fun x y => (f x).run = some (.ok y)) xs ys
  | [], ys, h => by
      obtain rfl : [] = ys := by simpa using h
      exact .nil
  | x :: xs, ys, h => by
      rw [List.mapM_cons] at h
      obtain ⟨y, hy, h⟩ := awaited_bind_eq_ok.mp h
      obtain ⟨rest, hrest, h⟩ := awaited_bind_eq_ok.mp h
      obtain rfl : y :: rest = ys := by simpa using h
      exact .cons hy (awaited_mapM_eq_ok hrest)

lemma awaited_mapM_eq_error {α β : Type} {f : α → Awaited β} {failure : Failure} :
    ∀ {xs : List α}, (xs.mapM f).run = some (.error failure) →
      ∃ x ∈ xs, (f x).run = some (.error failure)
  | [], h => by simp at h
  | x :: xs, h => by
      rw [List.mapM_cons] at h
      rcases awaited_bind_eq_error.mp h with he | ⟨y, -, h⟩
      · exact ⟨x, by simp, he⟩
      · rcases awaited_bind_eq_error.mp h with he | ⟨rest, -, h⟩
        · obtain ⟨z, hz, hf⟩ := awaited_mapM_eq_error he
          exact ⟨z, List.mem_cons_of_mem _ hz, hf⟩
        · simp at h

/-- What is collected, one awaited entry for each element, when all entries are there. -/
lemma awaited_collect_eq_ok {α : Type} {key : α → String} {f : α → Awaited Value} {g : α → Value}
    {P : α → Prop} :
    ∀ {xs : List α} {init out : Values},
      (∀ x ∈ xs, ∀ v, (f x).run = some (.ok v) → P x ∧ v = g x) →
      (xs.foldlM (fun (values : Values) x => do return values.insert (key x) (← f x)) init).run
        = some (.ok out) →
      (∀ x ∈ xs, P x) ∧ out = xs.foldl (fun values x => values.insert (key x) (g x)) init
  | [], init, out, _, h => by
      obtain rfl : init = out := by simpa using h
      exact ⟨by simp, rfl⟩
  | x :: xs, init, out, hf, h => by
      rw [List.foldlM_cons] at h
      obtain ⟨next, hnext, h⟩ := awaited_bind_eq_ok.mp h
      obtain ⟨v, hv, hnext⟩ := awaited_bind_eq_ok.mp hnext
      obtain ⟨hx, rfl⟩ := hf x (by simp) v hv
      obtain rfl : init.insert (key x) (g x) = next := by simpa using hnext
      obtain ⟨hrest, hout⟩ := awaited_collect_eq_ok (fun y hy => hf y (by simp [hy])) h
      refine ⟨fun y hy => ?_, hout⟩
      rcases List.mem_cons.mp hy with rfl | hy
      · exact hx
      · exact hrest y hy

lemma awaited_collect_eq_error {α : Type} {key : α → String} {f : α → Awaited Value}
    {failure : Failure} :
    ∀ {xs : List α} {init : Values},
      (xs.foldlM (fun (values : Values) x => do return values.insert (key x) (← f x)) init).run
        = some (.error failure) → ∃ x ∈ xs, (f x).run = some (.error failure)
  | [], init, h => by simp at h
  | x :: xs, init, h => by
      rw [List.foldlM_cons] at h
      rcases awaited_bind_eq_error.mp h with he | ⟨next, -, h⟩
      · rcases awaited_bind_eq_error.mp he with he | ⟨v, -, h⟩
        · exact ⟨x, by simp, he⟩
        · simp at h
      · obtain ⟨y, hy, hf⟩ := awaited_collect_eq_error h
        exact ⟨y, List.mem_cons_of_mem _ hy, hf⟩

lemma gather_eq_ok {sources : List String} {v : Value}
    (h : ((Supply.ofTask cancelled workflow).gather sources).run = some (.ok v)) :
    (∀ source ∈ sources, Supplied workflow source) ∧ v = readSources workflow sources := by
  match sources, h with
  | [], h =>
      obtain rfl : Value.null = v := by simpa [Supply.gather] using h
      exact ⟨by simp, rfl⟩
  | [source], h =>
      obtain ⟨hs, rfl⟩ := value_eq_ok h
      exact ⟨by simpa using hs, rfl⟩
  | s₁ :: s₂ :: rest, h =>
      obtain ⟨values, hvalues, h⟩ := awaited_bind_eq_ok.mp h
      obtain rfl : Value.array values = v := by simpa using h
      have hall := awaited_mapM_eq_ok hvalues
      refine ⟨fun source hs => ?_, ?_⟩
      · obtain ⟨value, -, hv⟩ := forall₂_mem_left hall hs
        exact (value_eq_ok hv).1
      · have hmap := map_eq_of_forall₂ (f := readSource workflow) (g := id)
          (hall.imp fun source value hv => (value_eq_ok hv).2)
        rw [List.map_id] at hmap
        rw [hmap]
        rfl

lemma stepInput_eq_ok {input : StepInput} {v : Value}
    (h : ((Supply.ofTask cancelled workflow).stepInput input).run = some (.ok v)) :
    (∀ source ∈ input.sources, Supplied workflow source) ∧ v = fedValue workflow input := by
  obtain ⟨gathered, hg, h⟩ := awaited_bind_eq_ok.mp h
  obtain ⟨hsupplied, rfl⟩ := gather_eq_ok hg
  refine ⟨hsupplied, ?_⟩
  have hv : (if (readSources workflow input.sources).isNull then input.default.getD .null
      else readSources workflow input.sources) = v := by simpa using h
  rw [← hv, fedValue]
  cases readSources workflow input.sources <;> rfl

/-- **What a step is fed**, once the steps that it takes values from have succeeded. -/
theorem feed_eq_ok {step : Step} {fed : Values}
    (h : (Supply.ofTask cancelled workflow).feed step = some (.ok fed)) :
    (∀ source ∈ sourcesOf step, Supplied workflow source) ∧ fed = fedValues workflow step := by
  obtain ⟨hall, hfed⟩ := awaited_collect_eq_ok (fun input _ v hv => stepInput_eq_ok hv) h
  refine ⟨fun source hs => ?_, ?_⟩
  · obtain ⟨input, hi, hs⟩ := List.mem_flatMap.mp hs
    exact hall input hi source hs
  · rw [hfed, fedValues, OrderedMap.ofList, List.foldl_map]

end Fed

/-! ## Later supplies -/

/-- What has been awaited here is the same there. -/
def Awaited.Later {α : Type} (x y : Awaited α) : Prop :=
  ∀ result, x.run = some result → y.run = some result

lemma Awaited.Later.refl {α : Type} (x : Awaited α) : x.Later x := fun _ h => h

lemma later_pending {α : Type} (y : Awaited α) : Awaited.pending.Later y := by
  intro result h
  cases h

lemma later_bind {α β : Type} {x y : Awaited α} {f g : α → Awaited β} (h : x.Later y)
    (hf : ∀ a, (f a).Later (g a)) : Awaited.Later (x >>= f) (y >>= g) := by
  intro result hr
  rw [ExceptT.run_bind] at hr ⊢
  cases hx : x.run with
  | none =>
      rw [hx] at hr
      cases hr
  | some outcome =>
      rw [hx] at hr
      rw [h outcome hx]
      cases outcome with
      | error failure => exact hr
      | ok a => exact hf a result hr

lemma later_mapM {α β : Type} {f g : α → Awaited β} :
    ∀ {xs : List α}, (∀ x ∈ xs, (f x).Later (g x)) → Awaited.Later (xs.mapM f) (xs.mapM g)
  | [], _ => .refl _
  | x :: xs, h => by
      rw [List.mapM_cons, List.mapM_cons]
      exact later_bind (h x (by simp)) fun _ =>
        later_bind (later_mapM fun y hy => h y (by simp [hy])) fun _ => .refl _

lemma later_foldlM {α β : Type} {f g : β → α → Awaited β} :
    ∀ {xs : List α} {b : β}, (∀ b, ∀ x ∈ xs, (f b x).Later (g b x)) →
      Awaited.Later (xs.foldlM f b) (xs.foldlM g b)
  | [], b, _ => .refl _
  | x :: xs, b, h => by
      rw [List.foldlM_cons, List.foldlM_cons]
      exact later_bind (h b x (by simp)) fun _ =>
        later_foldlM fun c y hy => h c y (by simp [hy])

lemma Supply.gather_later {s t : Supply} {sources : List String}
    (h : ∀ source ∈ sources, (s.value source).Later (t.value source)) :
    (s.gather sources).Later (t.gather sources) := by
  match sources, h with
  | [], _ => exact .refl _
  | [source], h => exact h source (by simp)
  | s₁ :: s₂ :: rest, h => exact later_bind (later_mapM h) fun _ => .refl _

/-- **A step is fed the same later**, when the values of its sources are. -/
lemma Supply.feed_later {s t : Supply} {step : Step}
    (h : ∀ source ∈ sourcesOf step, (s.value source).Later (t.value source)) :
    Awaited.Later (s.feed step) (t.feed step) := by
  refine later_foldlM fun values input hi => later_bind (later_bind ?_ fun _ => .refl _) fun _ => .refl _
  exact gather_later fun source hs => h source (List.mem_flatMap.mpr ⟨input, hi, hs⟩)

/-- **A value keeps once its producer has ended.** -/
lemma value_later {earlier later : Task κ} {source : String} (info : later.info = earlier.info)
    (params : later.state.parameters = earlier.state.parameters)
    (kept : ∀ producer, (outputSteps earlier.info.process).find? source = some producer →
      ∃ old new, earlier.children.find? producer = some old ∧
        later.children.find? producer = some new ∧ (old.isDone = true → new.facts = old.facts)) :
    ((Supply.ofTask false earlier).value source).Later ((Supply.ofTask false later).value source) := by
  cases hp : (outputSteps earlier.info.process).find? source with
  | none =>
      rw [value_of_input hp, value_of_input (info ▸ hp), params]
      exact .refl _
  | some producer =>
      obtain ⟨old, new, hold, hnew, hkept⟩ := kept producer hp
      rw [value_of_producer hp hold, value_of_producer (info ▸ hp) hnew]
      cases hdone : old.isDone with
      | true =>
          have hfacts := hkept hdone
          have hstatus : new.status = old.status := congrArg Task.Facts.status hfacts
          have houtputs : new.state.outputs = old.state.outputs := congrArg Task.Facts.outputs hfacts
          rw [produced, produced, hstatus, houtputs]
          exact .refl _
      | false =>
          have hpending : produced false producer source old = Awaited.pending := by
            rw [Task.isDone] at hdone
            cases hs : old.status <;> simp_all [produced, Status.isFinal]
          rw [hpending]
          exact later_pending _

/-! ## Failed supplies -/

section Cancelled

variable {s : Supply}

/-- Values that cannot be gathered have a source that failed. -/
lemma exists_value_of_gather {sources : List String} {failure : Failure}
    (h : (s.gather sources).run = some (.error failure)) :
    ∃ source ∈ sources, (s.value source).run = some (.error failure) := by
  match sources, h with
  | [], h => simp [Supply.gather] at h
  | [source], h => exact ⟨source, by simp, h⟩
  | s₁ :: s₂ :: rest, h =>
      rcases awaited_bind_eq_error.mp h with he | ⟨values, -, h⟩
      · exact awaited_mapM_eq_error he
      · simp at h

/-- A step that cannot be fed has a source that failed. -/
lemma exists_value_of_feed {step : Step} {failure : Failure}
    (h : s.feed step = some (.error failure)) :
    ∃ source ∈ sourcesOf step, (s.value source).run = some (.error failure) := by
  obtain ⟨input, hinput, hi⟩ := awaited_collect_eq_error h
  rcases awaited_bind_eq_error.mp hi with hg | ⟨value, -, h⟩
  · obtain ⟨source, hsource, hv⟩ := exists_value_of_gather hg
    exact ⟨source, List.mem_flatMap.mpr ⟨input, hinput, hsource⟩, hv⟩
  · simp at h

/-- In a run that is not cancelled a source fails only with its producer. -/
lemma value_eq_error {workflow : Task κ} {source : String} {failure : Failure}
    (h : ((Supply.ofTask false workflow).value source).run = some (.error failure)) :
    ∃ producer, (outputSteps workflow.info.process).find? source = some producer ∧
      ∀ task, workflow.children.find? producer = some task →
        ∃ cause, task.status = .failed cause ∧ failure = Supply.producerFailed producer cause := by
  cases hp : (outputSteps workflow.info.process).find? source with
  | none =>
      rw [value_of_input hp] at h
      simp at h
  | some producer =>
      refine ⟨producer, rfl, fun task hc => ?_⟩
      rw [value_of_producer hp hc, produced] at h
      cases hs : task.status with
      | failed cause =>
          have hf : Supply.producerFailed producer cause = failure := by simpa [hs] using h
          exact ⟨cause, rfl, hf.symm⟩
      | succeeded => simp [hs] at h
      | pending => simp [hs, Awaited.pending] at h
      | running => simp [hs, Awaited.pending] at h

lemma isCancelled_of_value (staffed : s.Staffed) {source : String} {failure : Failure}
    (h : (s.value source).run = some (.error failure)) : failure.isCancelled = true := by
  unfold Supply.value at h
  cases hp : s.producers.find? source with
  | none => simp [hp] at h
  | some producer =>
      obtain ⟨⟨status, outputs⟩, he⟩ := Option.isSome_iff_exists.mp (staffed source producer hp)
      rw [hp] at h
      dsimp only at h
      rw [Supply.outputOf, he] at h
      cases status with
      | succeeded => simp at h
      | failed own =>
          obtain rfl : Supply.producerFailed producer own = failure := by simpa using h
          rfl
      | _ =>
          cases hc : s.cancelled with
          | false => simp [hc, Awaited.pending] at h
          | true =>
              obtain rfl : Supply.runCancelled = failure := by simpa [hc] using h
              rfl

/-- **A step that cannot be fed is cancelled**: one of its producers failed, or the run is cancelled. -/
theorem isCancelled_of_feed (staffed : s.Staffed) {step : Step} {failure : Failure}
    (h : s.feed step = some (.error failure)) : failure.isCancelled = true := by
  obtain ⟨source, -, hv⟩ := exists_value_of_feed h
  exact isCancelled_of_value staffed hv

end Cancelled

end WorkflowEngine.Scheduling
