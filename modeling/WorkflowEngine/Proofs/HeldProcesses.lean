import Mathlib.Data.List.Nodup
import WorkflowEngine.Proofs.EquivalentDocuments

/-!
# The processes of a document

A step may hold the process that it runs.  Wherever such a process is written, it is taken into the document,
and it is the one that the step runs.

**What is written.**  `heldRuns`: for each step of a process, the object that it holds, if any;
`objectsInside`: all such objects inside a process, at any depth.

**One level.**  What is read of the steps of a process goes along with what they hold (`HoldsSteps`): the
processes of a step are those inside the one that it holds, and then this one.

**Documents.**  `Written`: what process was read from which object, from the graph downwards.  The processes of
a document are those and no others, each known by an id of its own (`every_process_registered`).
-/

namespace WorkflowEngine.Document

open Ident (IsScope qualify)

/-! ## What is written -/

/-- The object that a step holds as its process. -/
def heldBy (body : Json) : Option Json :=
  match body.field? "run" with
  | some (.obj members) => some (.obj members)
  | _ => none

/-- For each step of a process the object that it holds; a process that is no workflow has no steps. -/
def heldRuns (json : Json) : List (Option Json) :=
  match json.field? "class", json.field? "steps" with
  | some (.str "Workflow"), some (.arr items) => items.map heldBy
  | some (.str "Workflow"), some (.obj members) => members.map fun entry => heldBy entry.2
  | _, _ => []

lemma field?_of_heldBy {body run : Json} (h : heldBy body = some run) : body.field? "run" = some run := by
  unfold heldBy at h
  split at h
  · next hrun => rw [hrun, Option.some.inj h]
  · cases h

/-- What a step of a process holds has fewer levels than the process. -/
lemma jsonHeight_of_mem_heldRuns {json run : Json} (h : some run ∈ heldRuns json) :
    jsonHeight run < jsonHeight json := by
  unfold heldRuns at h
  split at h
  · rename_i items _ hsteps
    obtain ⟨body, hbody, hrun⟩ := List.mem_map.mp h
    calc
      jsonHeight run < jsonHeight body := jsonHeight_field? (field?_of_heldBy hrun)
      _ ≤ itemsHeight items := jsonHeight_item hbody
      _ ≤ jsonHeight (.arr items) := by rw [jsonHeight]; exact Nat.le_succ _
      _ ≤ jsonHeight json := (jsonHeight_field? hsteps).le
  · rename_i members _ hsteps
    obtain ⟨⟨key, body⟩, hbody, hrun⟩ := List.mem_map.mp h
    calc
      jsonHeight run < jsonHeight body := jsonHeight_field? (field?_of_heldBy hrun)
      _ ≤ membersHeight members := jsonHeight_member hbody
      _ ≤ jsonHeight (.obj members) := by rw [jsonHeight]; exact Nat.le_succ _
      _ ≤ jsonHeight json := (jsonHeight_field? hsteps).le
  · cases h

/-- The objects that are held by the steps of a process, by the steps of those, and so on. -/
def objectsInside (json : Json) : List Json :=
  ((heldRuns json).filterMap id).attach.flatMap fun run => run.1 :: objectsInside run.1
termination_by jsonHeight json
decreasing_by
  obtain ⟨run, hrun⟩ := run
  exact jsonHeight_of_mem_heldRuns (by simpa using hrun)

lemma objectsInside_eq (json : Json) :
    objectsInside json = ((heldRuns json).filterMap id).flatMap fun run => run :: objectsInside run := by
  rw [objectsInside, List.flatMap_subtype (g := fun run => run :: objectsInside run) fun _ _ => rfl,
    List.unattach_attach]

/-! ## One level -/

/-- The steps of a process, the objects that they hold, and the processes that were read of these: those inside
the object, and then the process that the step runs. -/
inductive HoldsSteps (inner : ProcessReader) : List (Option Json) → List Step → List Process → Prop
  | nil : HoldsSteps inner [] [] []
  | named {step : Step} {runs : List (Option Json)} {steps : List Step} {held : List Process}
      (h : HoldsSteps inner runs steps held) : HoldsSteps inner (none :: runs) (step :: steps) held
  | held {run : Json} {step : Step} {inside held : List Process} {process : Process}
      {runs : List (Option Json)} {steps : List Step} (hscope : IsScope step.id)
      (hread : inner run (some (step.id ++ "/run")) = .ok (inside, process)) (hrun : step.run = process.id)
      (h : HoldsSteps inner runs steps held) :
      HoldsSteps inner (some run :: runs) (step :: steps) (inside ++ process :: held)

section Readers

variable {inner : ProcessReader}

lemma step_of_ofEntry {workflow id run : String} {body : Json} {step : Step}
    (h : Step.ofEntry workflow id run body = .ok step) : step.id = id ∧ step.run = run := by
  obtain ⟨_, -, h⟩ := bind_eq_ok.mp h
  obtain ⟨_, -, h⟩ := bind_eq_ok.mp h
  obtain ⟨_, -, h⟩ := bind_eq_ok.mp h
  obtain ⟨_, -, h⟩ := bind_eq_ok.mp h
  obtain ⟨_, -, h⟩ := bind_eq_ok.mp h
  obtain rfl := Except.ok.inj h
  exact ⟨rfl, rfl⟩

lemma HoldsSteps.cons_stepOf {workflow rawId : String} {body : Json} {first held : List Process} {step : Step}
    {runs : List (Option Json)} {steps : List Step} (hscope : IsScope workflow)
    (h : stepOf inner workflow rawId body = .ok (first, step)) (hrest : HoldsSteps inner runs steps held) :
    HoldsSteps inner (heldBy body :: runs) (step :: steps) (first ++ held) := by
  rw [stepOf] at h
  dsimp only at h
  rw [heldBy]
  split at h
  · next hrun =>
    obtain ⟨_, -, h⟩ := bind_eq_ok.mp h
    obtain ⟨rfl, rfl⟩ := Prod.mk.inj (Except.ok.inj h)
    rw [hrun]
    exact .named hrest
  · next hrun =>
    obtain ⟨⟨inside, process⟩, hprocess, h⟩ := bind_eq_ok.mp h
    obtain ⟨_, hstep, h⟩ := bind_eq_ok.mp h
    obtain ⟨rfl, rfl⟩ := Prod.mk.inj (Except.ok.inj h)
    obtain ⟨hid, hruns⟩ := step_of_ofEntry hstep
    rw [hrun, List.append_assoc]
    rw [← hid] at hprocess
    exact .held (hid ▸ Ident.isScope_qualify hscope rawId) hprocess hruns hrest
  · cases h

lemma holdsSteps_of_stepsOf {workflow : String} (hscope : IsScope workflow) :
    ∀ {entries : List (String × Json)} {held : List Process} {steps : List Step},
      stepsOf inner workflow entries = .ok (held, steps) →
        HoldsSteps inner (entries.map fun entry => heldBy entry.2) steps held
  | [], held, steps, h => by
      obtain ⟨rfl, rfl⟩ := Prod.mk.inj (Except.ok.inj h)
      exact .nil
  | (id, body) :: rest, held, steps, h => by
      obtain ⟨⟨first, step⟩, hstep, h⟩ := bind_eq_ok.mp h
      obtain ⟨⟨more, others⟩, hrest, h⟩ := bind_eq_ok.mp h
      obtain ⟨rfl, rfl⟩ := Prod.mk.inj (Except.ok.inj h)
      exact .cons_stepOf hscope hstep (holdsSteps_of_stepsOf hscope hrest)

lemma heldBy_of_listEntry {keyField : String} {item : Json} {entry : String × Json}
    (h : listEntry keyField item = .ok entry) : heldBy entry.2 = heldBy item := by
  unfold listEntry at h
  split at h
  · obtain rfl := Except.ok.inj h
    rfl
  · split at h
    · obtain rfl := Except.ok.inj h
      rfl
    · cases h
  · cases h

/-- Entries of a section hold what is written in it. -/
lemma heldRuns_of_entries {json : Json} (hclass : json.field? "class" = some (.str "Workflow"))
    {es : List (String × Json)} (h : entries (json.field? "steps") "id" "type" = .ok es) :
    es.map (fun entry => heldBy entry.2) = heldRuns json := by
  rw [heldRuns, hclass]
  unfold entries at h
  split at h
  · next hsteps =>
    obtain rfl := Except.ok.inj h
    rw [hsteps]
    rfl
  · next hsteps =>
    obtain rfl := Except.ok.inj h
    rw [hsteps]
    rfl
  · next items hsteps =>
    rw [hsteps]
    exact map_eq_of_forall₂ ((mapM_eq_ok_iff.mp h).imp fun _ _ => heldBy_of_listEntry)
  · next members hsteps =>
    obtain rfl := Except.ok.inj h
    rw [hsteps, List.map_map]
    refine List.map_congr_left fun entry _ => ?_
    obtain ⟨key, body⟩ := entry
    cases body <;> rfl
  · cases h

lemma heldRuns_of_class {json : Json} {className : String}
    (hclass : json.field? "class" = some (.str className)) (hne : className ≠ "Workflow") : heldRuns json = [] := by
  unfold heldRuns
  split
  · next hworkflow _ => exact absurd (Json.str.inj (Option.some.inj (hclass.symm.trans hworkflow))) hne
  · next hworkflow _ => exact absurd (Json.str.inj (Option.some.inj (hclass.symm.trans hworkflow))) hne
  · rfl

lemma holdsSteps_of_bodyOf {id className : String} {json : Json} {held : List Process} {body : Body}
    (hscope : IsScope id) (hclass : json.field? "class" = some (.str className))
    (h : bodyOf inner id className json = .ok (held, body)) {process : Process} (hbody : process.body = body) :
    HoldsSteps inner (heldRuns json) process.steps held := by
  unfold bodyOf at h
  split at h
  · obtain ⟨es, hentries, h⟩ := bind_eq_ok.mp h
    obtain ⟨⟨inside, steps⟩, hsteps, h⟩ := bind_eq_ok.mp h
    obtain ⟨rfl, rfl⟩ := Prod.mk.inj (Except.ok.inj h)
    rw [← heldRuns_of_entries hclass hentries, Process.steps, hbody]
    exact holdsSteps_of_stepsOf hscope hsteps
  · obtain ⟨_, -, h⟩ := bind_eq_ok.mp h
    obtain ⟨rfl, rfl⟩ := Prod.mk.inj (Except.ok.inj h)
    rw [heldRuns_of_class hclass (by decide), Process.steps, hbody]
    exact .nil
  · split at h
    · obtain ⟨rfl, rfl⟩ := Prod.mk.inj (Except.ok.inj h)
      rw [heldRuns_of_class hclass (by decide), Process.steps, hbody]
      exact .nil
    · cases h
  · cases h

end Readers

lemma field?_of_optionalString {json : Json} {key s : String} (h : optionalString json key = some s) :
    json.field? key = some (.str s) := by
  obtain ⟨value, hvalue, hs⟩ := Option.bind_eq_some_iff.mp h
  cases value with
  | str t => rw [hvalue, ← Option.some.inj hs]
  | _ => cases hs

lemma process_of_ofParts {json : Json} {id : String} {body : Body} {process : Process}
    (h : Process.ofParts json id body = .ok process) : process.id = id ∧ process.body = body := by
  obtain ⟨_, -, h⟩ := bind_eq_ok.mp h
  obtain ⟨_, -, h⟩ := bind_eq_ok.mp h
  obtain ⟨_, -, h⟩ := bind_eq_ok.mp h
  obtain ⟨_, -, h⟩ := bind_eq_ok.mp h
  obtain rfl := Except.ok.inj h
  exact ⟨rfl, rfl⟩

/-- **A process that was read** has an id that starts with `#`, and what was read of its steps goes along with
what they hold. -/
lemma holdsSteps_of_processUpTo {fuel : Nat} {json : Json} {fallback : Option String} {held : List Process}
    {process : Process} (hfallback : ∀ id ∈ fallback, IsScope id)
    (h : processUpTo (fuel + 1) json fallback = .ok (held, process)) :
    IsScope process.id ∧ HoldsSteps (processUpTo fuel) (heldRuns json) process.steps held := by
  unfold processUpTo at h
  split at h
  · rename_i members
    obtain ⟨id, hid, h⟩ := bind_eq_ok.mp h
    dsimp only at h
    split at h
    · next className hclass =>
      obtain ⟨_, hown, h⟩ := bind_eq_ok.mp h
      obtain rfl := Except.ok.inj hown
      obtain ⟨⟨inside, body⟩, hbody, h⟩ := bind_eq_ok.mp h
      obtain ⟨own, hparts, h⟩ := bind_eq_ok.mp h
      obtain ⟨rfl, rfl⟩ := Prod.mk.inj (Except.ok.inj h)
      obtain ⟨hidOwn, hbodyOwn⟩ := process_of_ofParts hparts
      have hscope : IsScope id := isScope_of_processId hfallback hid
      exact ⟨hidOwn ▸ hscope,
        holdsSteps_of_bodyOf hscope (field?_of_optionalString hclass) hbody hbodyOwn⟩
    · cases h
  · cases h

/-- What is read with enough fuel is what is read. -/
lemma processOf_of_processUpTo {fuel : Nat} {json : Json} {fallback : Option String}
    {read : List Process × Process} (hfallback : ∀ id ∈ fallback, IsScope id) (hfuel : jsonHeight json ≤ fuel)
    (h : processUpTo fuel json fallback = .ok read) : processOf json fallback = .ok read := by
  have hagree := readsProcessesAlike fuel 0 (jsonHeight json) fallback json json hfallback .refl hfuel le_rfl
  rw [h] at hagree
  rw [processOf]
  cases hread : processUpTo (jsonHeight json) json fallback with
  | error e =>
      rw [hread] at hagree
      cases hagree
  | ok read' =>
      rw [hread] at hagree
      cases hagree with
      | ok hsame => rw [hsame]

lemma HoldsSteps.imp {inner inner' : ProcessReader} {runs : List (Option Json)} {steps : List Step}
    {held : List Process} (h : HoldsSteps inner runs steps held)
    (hinner : ∀ run id read, some run ∈ runs → IsScope id → inner run (some id) = .ok read →
      inner' run (some id) = .ok read) : HoldsSteps inner' runs steps held := by
  induction h with
  | nil => exact .nil
  | named _ ih => exact .named (ih fun run id read hmem => hinner run id read (List.mem_cons_of_mem _ hmem))
  | held hscope hread hrun _ ih =>
      exact .held hscope (hinner _ _ _ List.mem_cons_self (hscope.append _) hread) hrun
        (ih fun run id read hmem => hinner run id read (List.mem_cons_of_mem _ hmem))

lemma forall_isScope_of_some {id : String} (h : IsScope id) : ∀ own ∈ some id, IsScope own := by
  rintro _ ⟨⟩
  exact h

/-- What was read of the steps of a process, whatever fuel there was. -/
lemma holdsSteps_of_processOf {json : Json} {fallback : Option String} {held : List Process} {process : Process}
    (hfallback : ∀ id ∈ fallback, IsScope id) (h : processOf json fallback = .ok (held, process)) :
    IsScope process.id ∧ HoldsSteps processOf (heldRuns json) process.steps held := by
  rw [processOf] at h
  cases hfuel : jsonHeight json with
  | zero => exact absurd hfuel (jsonHeight_pos json).ne'
  | succ fuel =>
      rw [hfuel] at h
      -- One level of the fuel is for the process itself; the others are enough for what its steps hold.
      obtain ⟨hscope, hsteps⟩ := holdsSteps_of_processUpTo hfallback h
      refine ⟨hscope, hsteps.imp fun run id read hrun hid hread => ?_⟩
      have hlevel := jsonHeight_of_mem_heldRuns hrun
      exact processOf_of_processUpTo (forall_isScope_of_some hid) (by omega) hread

namespace HoldsSteps

variable {runs : List (Option Json)} {steps : List Step} {held : List Process}

/-- A step that holds an object runs the process that was read of it. -/
lemma of_mem_zip (h : HoldsSteps processOf runs steps held) {run : Json} {step : Step}
    (hmem : (some run, step) ∈ runs.zip steps) :
    ∃ inside process, IsScope step.id ∧ processOf run (some (step.id ++ "/run")) = .ok (inside, process) ∧
      step.run = process.id ∧ inside ++ [process] ⊆ held := by
  induction h with
  | nil => cases hmem
  | named _ ih =>
      rw [List.zip_cons_cons, List.mem_cons] at hmem
      obtain ⟨inside, process, hscope, hread, hrun, hsub⟩ := ih (hmem.resolve_left nofun)
      exact ⟨inside, process, hscope, hread, hrun, hsub⟩
  | @held own first front more own' _ _ hscope hread hrun _ ih =>
      rw [List.zip_cons_cons, List.mem_cons] at hmem
      rcases hmem with hmem | hmem
      · obtain ⟨hown, rfl⟩ := Prod.mk.inj hmem
        obtain rfl := Option.some.inj hown
        exact ⟨_, _, hscope, hread, hrun, by simp⟩
      · obtain ⟨inside, process, hscope, hread, hrun, hsub⟩ := ih hmem
        refine ⟨inside, process, hscope, hread, hrun, fun p hp => ?_⟩
        exact List.mem_append_right _ (List.mem_cons_of_mem _ (hsub hp))

/-- A process that was read of the steps was read of what one of them holds. -/
lemma exists_of_mem (h : HoldsSteps processOf runs steps held) {p : Process} (hp : p ∈ held) :
    ∃ run step inside process, (some run, step) ∈ runs.zip steps ∧ IsScope step.id ∧
      processOf run (some (step.id ++ "/run")) = .ok (inside, process) ∧ p ∈ inside ++ [process] := by
  induction h with
  | nil => cases hp
  | named _ ih =>
      obtain ⟨run, step, inside, process, hmem, hread⟩ := ih hp
      exact ⟨run, step, inside, process, List.mem_cons_of_mem _ hmem, hread⟩
  | held hscope hread hrun _ ih =>
      rw [List.append_cons, List.mem_append] at hp
      rcases hp with hp | hp
      · exact ⟨_, _, _, _, List.mem_cons_self, hscope, hread, hp⟩
      · obtain ⟨run, step, inside, process, hmem, hread⟩ := ih hp
        exact ⟨run, step, inside, process, List.mem_cons_of_mem _ hmem, hread⟩

/-- As many processes were read as there are objects inside. -/
lemma length_held (h : HoldsSteps processOf runs steps held)
    (hruns : ∀ run, some run ∈ runs → ∀ id inside process, IsScope id →
      processOf run (some id) = .ok (inside, process) → inside.length = (objectsInside run).length) :
    held.length = ((runs.filterMap id).flatMap fun run => run :: objectsInside run).length := by
  induction h with
  | nil => rfl
  | named _ ih => exact ih fun run hmem => hruns run (List.mem_cons_of_mem _ hmem)
  | @held own _ inside more process others _ hscope hread _ _ ih =>
      have hrest := ih fun run hmem => hruns run (List.mem_cons_of_mem _ hmem)
      have hfirst := hruns own List.mem_cons_self _ inside process (hscope.append _) hread
      have hobjects : (some own :: others).filterMap id = own :: others.filterMap id := rfl
      rw [hobjects, List.flatMap_cons, List.length_append, List.length_append, List.length_cons,
        List.length_cons, hfirst, hrest]
      omega

/-- There are as many steps as places for what they hold. -/
lemma length_eq (h : HoldsSteps processOf runs steps held) : runs.length = steps.length := by
  induction h with
  | nil => rfl
  | named _ ih => rw [List.length_cons, List.length_cons, ih]
  | held _ _ _ _ ih => rw [List.length_cons, List.length_cons, ih]

end HoldsSteps

/-! ## Any depth -/

lemma length_of_processOf {json : Json} {fallback : Option String} {held : List Process} {process : Process}
    (hfallback : ∀ id ∈ fallback, IsScope id) (h : processOf json fallback = .ok (held, process)) :
    held.length = (objectsInside json).length := by
  obtain ⟨-, hsteps⟩ := holdsSteps_of_processOf hfallback h
  rw [objectsInside_eq]
  refine hsteps.length_held fun run hrun id inside inner hid hread => ?_
  exact length_of_processOf (forall_isScope_of_some hid) hread
termination_by jsonHeight json
decreasing_by exact jsonHeight_of_mem_heldRuns hrun

/-- What was read of which object: of those of the graph, and of those that steps hold. -/
inductive Written (graph : List Json) : Json → Process → Prop
  | entry {json : Json} {inside : List Process} {process : Process} (hjson : json ∈ graph)
      (hread : processOf json none = .ok (inside, process)) : Written graph json process
  | held {json run : Json} {process inner : Process} {step : Step} {inside : List Process}
      (h : Written graph json process) (hstep : (some run, step) ∈ (heldRuns json).zip process.steps)
      (hread : processOf run (some (step.id ++ "/run")) = .ok (inside, inner)) : Written graph run inner

section Graph

variable {graph : List Json}

/-- The processes inside one that was written are written too. -/
lemma exists_written_of_mem {json : Json} {fallback : Option String} {held : List Process} {process : Process}
    (hfallback : ∀ id ∈ fallback, IsScope id) (h : processOf json fallback = .ok (held, process))
    (hwritten : Written graph json process) : ∀ p ∈ held ++ [process], ∃ object, Written graph object p := by
  intro p hp
  rcases List.mem_append.mp hp with hp | hp
  · obtain ⟨-, hsteps⟩ := holdsSteps_of_processOf hfallback h
    obtain ⟨run, step, inside, inner, hstep, hscope, hread, hp⟩ := hsteps.exists_of_mem hp
    have hrun : some run ∈ heldRuns json := (List.of_mem_zip hstep).1
    exact exists_written_of_mem (forall_isScope_of_some (hscope.append _)) hread
      (.held hwritten hstep hread) p hp
  · exact ⟨json, List.mem_singleton.mp hp ▸ hwritten⟩
termination_by jsonHeight json
decreasing_by exact jsonHeight_of_mem_heldRuns hrun

lemma processesOf_cons_eq_ok {json : Json} {rest : List Json} {processes : List Process}
    (h : processesOf (json :: rest) = .ok processes) :
    ∃ held process others, processOf json none = .ok (held, process) ∧ processesOf rest = .ok others ∧
      processes = held ++ [process] ++ others := by
  obtain ⟨⟨held, process⟩, hfirst, h⟩ := bind_eq_ok.mp h
  obtain ⟨others, hrest, h⟩ := bind_eq_ok.mp h
  exact ⟨held, process, others, hfirst, hrest, (Except.ok.inj h).symm⟩

lemma length_of_processesOf : ∀ {graph : List Json} {processes : List Process},
    processesOf graph = .ok processes →
      processes.length = graph.length + (graph.flatMap objectsInside).length
  | [], _, h => by
      obtain rfl := Except.ok.inj h
      rfl
  | json :: rest, _, h => by
      obtain ⟨held, process, others, hfirst, hrest, rfl⟩ := processesOf_cons_eq_ok h
      have hnone : ∀ id ∈ (none : Option String), IsScope id := nofun
      have hheld := length_of_processOf hnone hfirst
      have hothers := length_of_processesOf hrest
      simp only [List.flatMap_cons, List.length_append, List.length_cons, List.length_nil]
      omega

lemma subset_of_processesOf : ∀ {graph : List Json} {processes : List Process},
    processesOf graph = .ok processes → ∀ json ∈ graph, ∃ held process,
      processOf json none = .ok (held, process) ∧ held ++ [process] ⊆ processes
  | [], _, _, json, hjson => absurd hjson List.not_mem_nil
  | first :: rest, _, h, json, hjson => by
      obtain ⟨held, process, others, hfirst, hrest, rfl⟩ := processesOf_cons_eq_ok h
      rcases List.mem_cons.mp hjson with rfl | hjson
      · exact ⟨held, process, hfirst, List.subset_append_left _ _⟩
      · obtain ⟨held', process', hread, hsub⟩ := subset_of_processesOf hrest json hjson
        exact ⟨held', process', hread, fun p hp => List.mem_append_right _ (hsub hp)⟩

lemma exists_of_mem_processesOf : ∀ {graph : List Json} {processes : List Process},
    processesOf graph = .ok processes → ∀ p ∈ processes, ∃ json ∈ graph, ∃ held process,
      processOf json none = .ok (held, process) ∧ p ∈ held ++ [process]
  | [], _, h, p, hp => by
      obtain rfl := Except.ok.inj h
      cases hp
  | first :: rest, _, h, p, hp => by
      obtain ⟨held, process, others, hfirst, hrest, rfl⟩ := processesOf_cons_eq_ok h
      rcases List.mem_append.mp hp with hp | hp
      · exact ⟨first, List.mem_cons_self, held, process, hfirst, hp⟩
      · obtain ⟨json, hjson, hread⟩ := exists_of_mem_processesOf hrest p hp
        exact ⟨json, List.mem_cons_of_mem _ hjson, hread⟩

variable {processes : List Process} (hprocesses : processesOf graph = .ok processes)

include hprocesses

/-- What was written was read with the processes inside it, and all of them are processes of the graph. -/
lemma Written.exists_read {json : Json} {process : Process} (h : Written graph json process) :
    ∃ fallback held, (∀ id ∈ fallback, IsScope id) ∧ processOf json fallback = .ok (held, process) ∧
      held ++ [process] ⊆ processes := by
  induction h with
  | entry hjson hread =>
      obtain ⟨held, own, hown, hsub⟩ := subset_of_processesOf hprocesses _ hjson
      obtain ⟨rfl, rfl⟩ := Prod.mk.inj (Except.ok.inj (hown.symm.trans hread))
      exact ⟨none, held, nofun, hread, hsub⟩
  | held _ hstep hread ih =>
      obtain ⟨fallback, held, hfallback, houter, hsub⟩ := ih
      obtain ⟨-, hsteps⟩ := holdsSteps_of_processOf hfallback houter
      obtain ⟨inside, own, hscope, hown, -, hheld⟩ := hsteps.of_mem_zip hstep
      obtain ⟨rfl, rfl⟩ := Prod.mk.inj (Except.ok.inj (hown.symm.trans hread))
      exact ⟨some _, inside, forall_isScope_of_some (hscope.append _), hread,
        fun p hp => hsub (List.mem_append_left _ (hheld hp))⟩

end Graph

/-! ## Documents -/

lemma nodup_of_repeatedId? : ∀ {known : List String} {processes : List Process},
    repeatedId? known processes = none →
      (∀ p ∈ processes, p.id ∉ known) ∧ (processes.map Process.id).Nodup
  | known, [], _ => ⟨by simp, List.nodup_nil⟩
  | known, p :: rest, h => by
      rw [repeatedId?] at h
      split_ifs at h with hknown
      obtain ⟨hrest, hnodup⟩ := nodup_of_repeatedId? h
      have hother : ∀ q ∈ rest, q.id ∉ known ∧ q.id ≠ p.id := by simpa using hrest
      refine ⟨List.forall_mem_cons.mpr ⟨by simpa using hknown, fun q hq => (hother q hq).1⟩, ?_⟩
      rw [List.map_cons, List.nodup_cons, List.mem_map]
      exact ⟨fun ⟨q, hq, hid⟩ => (hother q hq).2 hid, hnodup⟩

/-- A process of a document is found by its id when no other has it. -/
lemma process?_eq_some {document : Document} (hnodup : (document.processes.map Process.id).Nodup)
    {p : Process} (hp : p ∈ document.processes) (hscope : IsScope p.id) : document.process? p.id = some p := by
  rw [process?, Ident.normalize_of_isScope hscope]
  cases hfind : document.processes.find? fun q => q.id = p.id with
  | none => simpa using List.find?_eq_none.mp hfind p hp
  | some q =>
      have hid : q.id = p.id := by simpa using List.find?_some hfind
      rw [List.inj_on_of_nodup_map hnodup (List.mem_of_find?_eq_some hfind) hp hid]

/-- The processes of a document are those that are written in a graph. -/
structure Registers (document : Document) (graph : List Json) : Prop where
  /-- No two processes have the same id. -/
  distinct : (document.processes.map Process.id).Nodup
  scope : ∀ p ∈ document.processes, IsScope p.id
  found : ∀ p ∈ document.processes, document.process? p.id = some p
  /-- There is one process for each object of the graph, and one for each object that a step holds. -/
  count : document.processes.length = graph.length + (graph.flatMap objectsInside).length
  written : ∀ p ∈ document.processes, ∃ object, Written graph object p
  mem : ∀ object p, Written graph object p → p ∈ document.processes
  /-- Each step has its place among what the steps hold. -/
  steps : ∀ object p, Written graph object p → (heldRuns object).length = p.steps.length
  /-- What was read of an object that a step holds is what is found by the name of what the step runs. -/
  runs : ∀ object p, Written graph object p → ∀ run step, (some run, step) ∈ (heldRuns object).zip p.steps →
    ∃ inside process, processOf run (some (step.id ++ "/run")) = .ok (inside, process) ∧
      step.run = process.id ∧ document.process? step.run = some process

/-- **Every process is registered**: the processes of a document are those that are written in its graph, at
any depth. -/
theorem every_process_registered {json : Json} {document : Document} (h : ofJson json = .ok document) :
    ∃ graph, json.field? "$graph" = some (.arr graph) ∧ Registers document graph := by
  obtain ⟨graph, hgraph, hprocesses, hrepeated⟩ := exists_processesOf h
  have hnone : ∀ id ∈ (none : Option String), IsScope id := nofun
  have hdistinct := (nodup_of_repeatedId? hrepeated).2
  have hwritten : ∀ p ∈ document.processes, ∃ object, Written graph object p := by
    intro p hp
    obtain ⟨json, hjson, held, process, hread, hp⟩ := exists_of_mem_processesOf hprocesses p hp
    exact exists_written_of_mem hnone hread (.entry hjson hread) p hp
  have hscope : ∀ p ∈ document.processes, IsScope p.id := by
    intro p hp
    obtain ⟨object, hobject⟩ := hwritten p hp
    obtain ⟨fallback, held, hfallback, hread, -⟩ := hobject.exists_read hprocesses
    exact (holdsSteps_of_processOf hfallback hread).1
  have hfound : ∀ p ∈ document.processes, document.process? p.id = some p :=
    fun p hp => process?_eq_some hdistinct hp (hscope p hp)
  refine ⟨graph, hgraph, hdistinct, hscope, hfound, length_of_processesOf hprocesses, hwritten, ?_, ?_, ?_⟩
  · intro object p hobject
    obtain ⟨fallback, held, -, -, hsub⟩ := hobject.exists_read hprocesses
    exact hsub (by simp)
  · intro object p hobject
    obtain ⟨fallback, held, hfallback, hread, -⟩ := hobject.exists_read hprocesses
    exact (holdsSteps_of_processOf hfallback hread).2.length_eq
  · intro object p hobject run step hstep
    obtain ⟨fallback, held, hfallback, hread, hsub⟩ := hobject.exists_read hprocesses
    obtain ⟨inside, process, -, hinner, hrun, hheld⟩ :=
      (holdsSteps_of_processOf hfallback hread).2.of_mem_zip hstep
    have hmem : process ∈ document.processes := hsub (List.mem_append_left _ (hheld (by simp)))
    exact ⟨inside, process, hinner, hrun, hrun ▸ hfound process hmem⟩

/-- A tool. -/
def toolMembers : List (String × Json) :=
  [("class", .str "ExpressionTool"), ("inputs", .arr []), ("outputs", .arr []), ("expression", .str "$(null)")]

/-- A workflow whose one step holds a tool with an id of its own. -/
def nestedMembers : List (String × Json) :=
  [("class", .str "Workflow"), ("inputs", .arr []), ("outputs", .arr []),
    ("steps", .arr [.obj [("id", .str "count"), ("run", .obj (("id", .str "counter") :: toolMembers)),
      ("in", .arr []), ("out", .arr [])]])]

/-- A document with a workflow that holds another one, which holds a tool. -/
def nestedJson : Json :=
  .obj [("cwlVersion", .str "v1.0"), ("$graph", .arr [
    .obj [("id", .str "#main"), ("class", .str "Workflow"), ("inputs", .arr []), ("outputs", .arr []),
      ("steps", .obj [("outer", .obj [("run", .obj nestedMembers), ("in", .arr []), ("out", .arr [])]),
        ("plain", .obj [("run", .str "#tool"), ("in", .arr []), ("out", .arr [])])])],
    .obj (("id", .str "#tool") :: toolMembers)])]

/-- All four processes are registered, the innermost first. -/
theorem nested_processes_registered :
    ∃ document, ofJson nestedJson = .ok document ∧
      document.processes.map Process.id = ["#counter", "#main/outer/run", "#main", "#tool"] ∧
      ∃ graph, nestedJson.field? "$graph" = some (.arr graph) ∧ Registers document graph := by
  have hids : (ofJson nestedJson).toOption.map (fun document => document.processes.map Process.id) =
      some ["#counter", "#main/outer/run", "#main", "#tool"] := by
    with_unfolding_all rfl
  cases hread : ofJson nestedJson with
  | error e =>
      rw [hread] at hids
      cases hids
  | ok document =>
      rw [hread] at hids
      exact ⟨document, rfl, Option.some.inj hids, every_process_registered hread⟩

end WorkflowEngine.Document
