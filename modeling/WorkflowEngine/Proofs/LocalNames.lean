import Mathlib.Data.List.TakeWhile
import WorkflowEngine.Document.Basic
import WorkflowEngine.Proofs.Outcomes

/-!
# Local names

A parameter is known by the last segment of its identifier, and a reference to it is put together from
the id of the process or step it belongs to, a slash, and this segment.

**References.**  The last segment of such a reference is the name it was put together from
(`localName_append`), so a reference determines both of its parts (`append_slash_inj`).

**Scopes.**  What references are seen from is an id that starts with `#`, and so is what they stand for
(`isScope_qualify`).

**Reading.**  All parameters of a process that is read from a document, and all outputs that its steps
declare, are named by a last segment: `wellNamed_of_ofJson`.
-/

namespace WorkflowEngine

open Document (Body Input Output Process ProcessReader Step)

/-! ## References -/

namespace Ident

/-- A name that is a last segment. -/
structure IsLocal (name : String) : Prop where
  noSlash : '/' ∉ name.toList
  noHash : '#' ∉ name.toList

lemma mem_of_mem_afterLast {sep c : Char} {cs : List Char} (h : c ∈ afterLast sep cs) :
    c ∈ cs ∧ c ≠ sep := by
  have hmem := List.mem_reverse.mp h
  refine ⟨List.mem_reverse.mp ((List.takeWhile_prefix _).subset hmem), ?_⟩
  simpa using List.mem_takeWhile_imp hmem

lemma isLocal_localName (id : String) : IsLocal (localName id) := by
  constructor
  · rw [localName, String.toList_ofList]
    exact fun h => (mem_of_mem_afterLast (mem_of_mem_afterLast h).1).2 rfl
  · rw [localName, String.toList_ofList]
    exact fun h => (mem_of_mem_afterLast h).2 rfl

lemma afterLast_of_notMem {sep : Char} {cs : List Char} (h : sep ∉ cs) : afterLast sep cs = cs := by
  rw [afterLast, List.takeWhile_eq_self_iff.mpr, List.reverse_reverse]
  intro c hc
  have hne : c ≠ sep := fun heq => h (heq ▸ List.mem_reverse.mp hc)
  simpa using hne

lemma afterLast_append_cons (sep : Char) (front back : List Char) :
    afterLast sep (front ++ sep :: back) = afterLast sep back := by
  rw [afterLast, afterLast, List.reverse_append, List.reverse_cons, List.append_assoc, List.takeWhile_append]
  split_ifs with hall
  · have hself : back.reverse.takeWhile (· ≠ sep) = back.reverse :=
      (List.takeWhile_prefix _).eq_of_length hall
    rw [hself, List.singleton_append, List.takeWhile_cons_of_neg (by simp), List.append_nil]
  · rfl

lemma toList_append_slash (scope name : String) :
    (scope ++ "/" ++ name).toList = scope.toList ++ '/' :: name.toList := by
  simp [String.toList_append]

lemma localName_append (scope : String) {name : String} (h : IsLocal name) :
    localName (scope ++ "/" ++ name) = name := by
  rw [localName, toList_append_slash, afterLast_append_cons, afterLast_of_notMem h.noSlash,
    afterLast_of_notMem h.noHash, String.ofList_toList]

/-- A reference determines what it was put together from. -/
lemma append_slash_inj {scope scope' name name' : String} (h : IsLocal name) (h' : IsLocal name')
    (heq : scope ++ "/" ++ name = scope' ++ "/" ++ name') : scope = scope' ∧ name = name' := by
  have hname : name = name' := by
    rw [← localName_append scope h, heq, localName_append scope' h']
  subst hname
  refine ⟨?_, rfl⟩
  have hlist := congrArg String.toList heq
  rw [toList_append_slash, toList_append_slash] at hlist
  exact String.toList_inj.mp (List.append_cancel_right hlist)

/-! ### Scopes -/

/-- A scope is an id that starts with `#`. -/
def IsScope (id : String) : Prop := id.toList.head? = some '#'

lemma IsScope.append {id : String} (h : IsScope id) (rest : String) : IsScope (id ++ rest) := by
  rw [IsScope, String.toList_append, List.head?_append, h, Option.some_or]

lemma isScope_normalize (id : String) : IsScope (normalize id) := by
  rw [normalize]
  split_ifs with hempty
  · rw [IsScope, String.toList_append]
    rfl
  · have hhead := List.head?_dropWhile_not (· ≠ '#') id.toList
    rw [IsScope, String.toList_ofList]
    cases htail : id.toList.dropWhile (· ≠ '#') with
    | nil => rw [htail] at hempty; exact absurd rfl hempty
    | cons c rest =>
        rw [htail] at hhead
        have hc : c = '#' := by simpa using hhead
        rw [hc, List.head?_cons]

lemma normalize_of_isScope {id : String} (h : IsScope id) : normalize id = id := by
  obtain ⟨rest, hrest⟩ := List.head?_eq_some_iff.mp h
  have htail : id.toList.dropWhile (· ≠ '#') = id.toList := by
    rw [hrest, List.dropWhile_cons_of_neg (by simp)]
  have hne : id.toList.isEmpty = false := by
    rw [hrest]
    rfl
  rw [normalize, htail, hne, if_neg Bool.false_ne_true, String.ofList_toList]

lemma isScope_qualify {scope : String} (h : IsScope scope) (reference : String) :
    IsScope (qualify scope reference) := by
  rw [qualify]
  split_ifs
  · exact isScope_normalize reference
  · rw [String.append_assoc]
    exact h.append _

end Ident

/-! ## Reading -/

/-- The parameters of a process, and the outputs that its steps declare, are named by last segments. -/
structure WellNamed (process : Process) : Prop where
  input : ∀ i ∈ process.inputs, Ident.IsLocal i.id
  output : ∀ o ∈ process.outputs, Ident.IsLocal o.id
  stepOutput : ∀ step ∈ process.steps, ∀ name ∈ step.outputs, Ident.IsLocal name

namespace Document

lemma isLocal_of_inputsOf {json : Option Json} {inputs : List Input} (h : inputsOf json = .ok inputs) :
    ∀ i ∈ inputs, Ident.IsLocal i.id := by
  intro i hi
  obtain ⟨all, -, h⟩ := bind_eq_ok.mp h
  obtain ⟨entry, -, hentry⟩ := forall₂_mem_right (mapM_eq_ok_iff.mp h) hi
  obtain ⟨_, -, hentry⟩ := bind_eq_ok.mp hentry
  obtain ⟨_, -, hentry⟩ := bind_eq_ok.mp hentry
  obtain rfl := Except.ok.inj hentry
  exact Ident.isLocal_localName _

lemma isLocal_of_outputsOf {scope : String} {json : Option Json} {outputs : List Output}
    (h : outputsOf scope json = .ok outputs) : ∀ o ∈ outputs, Ident.IsLocal o.id := by
  intro o ho
  obtain ⟨all, -, h⟩ := bind_eq_ok.mp h
  obtain ⟨entry, -, hentry⟩ := forall₂_mem_right (mapM_eq_ok_iff.mp h) ho
  obtain ⟨_, -, hentry⟩ := bind_eq_ok.mp hentry
  obtain ⟨_, -, hentry⟩ := bind_eq_ok.mp hentry
  obtain rfl := Except.ok.inj hentry
  exact Ident.isLocal_localName _

lemma isLocal_of_stepOfEntry {workflow id run : String} {json : Json} {step : Step}
    (h : Step.ofEntry workflow id run json = .ok step) : ∀ name ∈ step.outputs, Ident.IsLocal name := by
  intro name hname
  obtain ⟨_, -, h⟩ := bind_eq_ok.mp h
  obtain ⟨outputs, -, h⟩ := bind_eq_ok.mp h
  obtain ⟨_, -, h⟩ := bind_eq_ok.mp h
  obtain ⟨_, -, h⟩ := bind_eq_ok.mp h
  obtain ⟨_, -, h⟩ := bind_eq_ok.mp h
  obtain rfl := Except.ok.inj h
  obtain ⟨entry, -, rfl⟩ := List.mem_map.mp hname
  exact Ident.isLocal_localName _

lemma wellNamed_of_ofParts {json : Json} {id : String} {body : Body} {process : Process}
    (h : Process.ofParts json id body = .ok process)
    (steps : ∀ steps, body = .workflow steps → ∀ step ∈ steps, ∀ name ∈ step.outputs,
      Ident.IsLocal name) : WellNamed process := by
  obtain ⟨inputs, hinputs, h⟩ := bind_eq_ok.mp h
  obtain ⟨outputs, houtputs, h⟩ := bind_eq_ok.mp h
  obtain ⟨_, -, h⟩ := bind_eq_ok.mp h
  obtain ⟨_, -, h⟩ := bind_eq_ok.mp h
  obtain rfl := Except.ok.inj h
  refine ⟨isLocal_of_inputsOf hinputs, isLocal_of_outputsOf houtputs, fun step hs => ?_⟩
  cases body with
  | workflow all => exact steps all rfl step hs
  | commandLineTool => simp [Process.steps] at hs
  | expressionTool => simp [Process.steps] at hs

/-- A reader that gives processes with last segments for names. -/
def NamesWell (reader : ProcessReader) : Prop :=
  ∀ ⦃json fallback held process⦄, reader json fallback = .ok (held, process) →
    (∀ p ∈ held, WellNamed p) ∧ WellNamed process

section Readers

variable {inner : ProcessReader}

lemma NamesWell.stepOf (hinner : NamesWell inner) {workflow rawId : String} {json : Json}
    {held : List Process} {step : Step} (h : stepOf inner workflow rawId json = .ok (held, step)) :
    (∀ p ∈ held, WellNamed p) ∧ ∀ name ∈ step.outputs, Ident.IsLocal name := by
  rw [Document.stepOf] at h
  dsimp only at h
  split at h
  · obtain ⟨_, hstep, h⟩ := bind_eq_ok.mp h
    obtain ⟨rfl, rfl⟩ := Prod.mk.inj (Except.ok.inj h)
    exact ⟨by simp, isLocal_of_stepOfEntry hstep⟩
  · obtain ⟨⟨inside, process⟩, hprocess, h⟩ := bind_eq_ok.mp h
    obtain ⟨_, hstep, h⟩ := bind_eq_ok.mp h
    obtain ⟨rfl, rfl⟩ := Prod.mk.inj (Except.ok.inj h)
    obtain ⟨hinside, hown⟩ := hinner hprocess
    refine ⟨fun p hp => ?_, isLocal_of_stepOfEntry hstep⟩
    rcases List.mem_append.mp hp with hp | hp
    · exact hinside p hp
    · exact List.mem_singleton.mp hp ▸ hown
  · simp [malformed] at h

lemma NamesWell.stepsOf (hinner : NamesWell inner) {workflow : String} :
    ∀ {entries : List (String × Json)} {held : List Process} {steps : List Step},
      stepsOf inner workflow entries = .ok (held, steps) →
      (∀ p ∈ held, WellNamed p) ∧ ∀ step ∈ steps, ∀ name ∈ step.outputs, Ident.IsLocal name
  | [], held, steps, h => by
      obtain ⟨rfl, rfl⟩ := Prod.mk.inj (Except.ok.inj h)
      exact ⟨by simp, by simp⟩
  | (id, body) :: rest, held, steps, h => by
      obtain ⟨⟨first, step⟩, hstep, h⟩ := bind_eq_ok.mp h
      obtain ⟨⟨more, others⟩, hrest, h⟩ := bind_eq_ok.mp h
      obtain ⟨rfl, rfl⟩ := Prod.mk.inj (Except.ok.inj h)
      obtain ⟨hfirst, hnames⟩ := hinner.stepOf hstep
      obtain ⟨hmore, hothers⟩ := hinner.stepsOf hrest
      exact ⟨List.forall_mem_append.mpr ⟨hfirst, hmore⟩, List.forall_mem_cons.mpr ⟨hnames, hothers⟩⟩

lemma NamesWell.bodyOf (hinner : NamesWell inner) {id className : String} {json : Json}
    {held : List Process} {body : Body} (h : bodyOf inner id className json = .ok (held, body)) :
    (∀ p ∈ held, WellNamed p) ∧ ∀ steps, body = .workflow steps → ∀ step ∈ steps,
      ∀ name ∈ step.outputs, Ident.IsLocal name := by
  unfold Document.bodyOf at h
  split at h
  · obtain ⟨_, -, h⟩ := bind_eq_ok.mp h
    obtain ⟨⟨inside, steps⟩, hsteps, h⟩ := bind_eq_ok.mp h
    obtain ⟨rfl, rfl⟩ := Prod.mk.inj (Except.ok.inj h)
    obtain ⟨hinside, hnames⟩ := hinner.stepsOf hsteps
    refine ⟨hinside, ?_⟩
    rintro _ ⟨⟩
    exact hnames
  · obtain ⟨_, -, h⟩ := bind_eq_ok.mp h
    obtain ⟨rfl, rfl⟩ := Prod.mk.inj (Except.ok.inj h)
    exact ⟨by simp, by simp⟩
  · split at h
    · obtain ⟨rfl, rfl⟩ := Prod.mk.inj (Except.ok.inj h)
      exact ⟨by simp, by simp⟩
    · simp [malformed] at h
  · cases h

end Readers

lemma namesWell_processUpTo : ∀ fuel : Nat, NamesWell (processUpTo fuel)
  | 0, _, _, _, _, h => by simp [processUpTo, malformed] at h
  | fuel + 1, json, fallback, held, process, h => by
      unfold processUpTo at h
      split at h
      · obtain ⟨id, -, h⟩ := bind_eq_ok.mp h
        dsimp only at h
        split at h
        · obtain ⟨className, -, h⟩ := bind_eq_ok.mp h
          obtain ⟨⟨inside, body⟩, hbody, h⟩ := bind_eq_ok.mp h
          obtain ⟨own, hown, h⟩ := bind_eq_ok.mp h
          obtain ⟨rfl, rfl⟩ := Prod.mk.inj (Except.ok.inj h)
          obtain ⟨hinside, hsteps⟩ := (namesWell_processUpTo fuel).bodyOf hbody
          exact ⟨hinside, wellNamed_of_ofParts hown hsteps⟩
        · cases h
      · simp [malformed] at h

lemma wellNamed_of_processesOf : ∀ {graph : List Json} {processes : List Process},
    processesOf graph = .ok processes → ∀ p ∈ processes, WellNamed p
  | [], _, h => by
      obtain rfl := Except.ok.inj h
      simp
  | json :: rest, _, h => by
      obtain ⟨⟨held, process⟩, hfirst, h⟩ := bind_eq_ok.mp h
      obtain ⟨others, hrest, h⟩ := bind_eq_ok.mp h
      obtain rfl := Except.ok.inj h
      obtain ⟨hheld, hprocess⟩ := namesWell_processUpTo _ hfirst
      refine List.forall_mem_append.mpr ⟨?_, wellNamed_of_processesOf hrest⟩
      exact List.forall_mem_append.mpr ⟨hheld, by simpa using hprocess⟩

/-- The processes of a document are those of its graph, and no id occurs a second time among them. -/
lemma exists_processesOf {json : Json} {document : Document} (h : ofJson json = .ok document) :
    ∃ graph, json.field? "$graph" = some (.arr graph) ∧ processesOf graph = .ok document.processes ∧
      repeatedId? [] document.processes = none := by
  cases json with
  | obj members =>
      rw [ofJson] at h
      cases hversion : optionalString (.obj members) "cwlVersion" with
      | none =>
          rw [hversion] at h
          cases h
      | some version =>
          rw [hversion] at h
          dsimp only at h
          split_ifs at h
          · cases h
          · obtain ⟨_, -, h⟩ := bind_eq_ok.mp h
            split at h
            · next hgraph =>
              obtain ⟨graph, hown, h⟩ := bind_eq_ok.mp h
              obtain rfl := Except.ok.inj hown
              obtain ⟨processes, hprocesses, h⟩ := bind_eq_ok.mp h
              split at h
              · cases h
              · next hrepeated =>
                obtain rfl := Except.ok.inj h
                exact ⟨_, hgraph, hprocesses, hrepeated⟩
            · cases h
  | _ => cases h

/-- **A document that is read names its parameters by last segments.** -/
theorem wellNamed_of_ofJson {json : Json} {document : Document} (h : ofJson json = .ok document) :
    ∀ p ∈ document.processes, WellNamed p := by
  obtain ⟨_, -, hgraph, -⟩ := exists_processesOf h
  exact wellNamed_of_processesOf hgraph

end Document

end WorkflowEngine
