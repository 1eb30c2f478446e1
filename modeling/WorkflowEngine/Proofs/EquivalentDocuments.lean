import WorkflowEngine.Proofs.SpelledSections

/-!
# Equivalent documents

A document that is written in another way, with maps for lists and absolute names for relative ones, is the
same document.

**Readers.**  The parameters of a process (`agree_inputsOf`, `agree_outputsOf`), its steps (`agree_stepsOf`) and
the process itself (`agree_process`) are read as the same from every spelling.  The sources of a step lie in
its workflow and its own names in the step, so that the scopes of both are followed; a process that a step
holds may have no id but that of the step.

**Documents.**  `same_document`: every spelling of a document is read as the same document, or none is.
-/

namespace WorkflowEngine.Document

open Ident (IsScope localName qualify)
open Relation (ReflGen)

/-! ## Parameters -/

lemma agree_typeMember {a b : Json}
    (h : Option.Rel (ReflGen TypeVariant) (a.field? "type") (b.field? "type")) :
    Agree Eq (typeMember a) (typeMember b) := by
  refine (agree_readMember? (rel_imp_of_eq h fun _ _ _ _ hvw => DataType.agree_ofJson hvw)).bind_eq
    fun type _ => ?_
  exact .of_eq rfl

lemma agree_input {process : String} {p q : String × Json} (h : EntryVariant (inputSpelling process) p q) :
    Agree Eq (Input.ofEntry p.1 p.2) (Input.ofEntry q.1 q.2) := by
  obtain ⟨hname, hbody⟩ := h
  replace hbody : FieldsVariant "id" [("type", TypeVariant)] p.2 q.2 := hbody
  rw [Input.ofEntry, Input.ofEntry, readMember?_eq (hbody.eq "inputBinding" (by decide) rfl),
    hbody.eq "loadContents" (by decide) rfl, hbody.eq "default" (by decide) rfl,
    hbody.eq "secondaryFiles" (by decide) rfl, localName_eq hname]
  refine (Agree.of_eq rfl).bind_eq fun binding _ => ?_
  refine (agree_typeMember (hbody.changed "type" (by decide) rfl)).bind_eq fun type _ => ?_
  exact .of_eq rfl

lemma agree_output {process : String} (hscope : IsScope process) {p q : String × Json}
    (h : EntryVariant (outputSpelling process) p q) :
    Agree Eq (Output.ofEntry process p.1 p.2) (Output.ofEntry process q.1 q.2) := by
  obtain ⟨hname, hbody⟩ := h
  replace hbody : FieldsVariant "id" [("type", TypeVariant), ("outputSource", TextsVariant (Absolute process))]
    p.2 q.2 := hbody
  have hsources := strings_map (fun _ _ hst => qualify_eq hscope (.single hst))
    (hbody.changed "outputSource" (by decide) rfl)
  rw [Output.ofEntry, Output.ofEntry, readMember?_eq (hbody.eq "outputBinding" (by decide) rfl),
    hbody.eq "secondaryFiles" (by decide) rfl, localName_eq hname, hsources]
  refine (Agree.of_eq rfl).bind_eq fun binding _ => ?_
  refine (agree_typeMember (hbody.changed "type" (by decide) rfl)).bind_eq fun type _ => ?_
  exact .of_eq rfl

lemma agree_inputsOf {process : String} {x y : Option Json}
    (h : Option.Rel (ReflGen (SectionVariant (inputSpelling process))) x y) :
    Agree Eq (inputsOf x) (inputsOf y) := by
  refine (agree_entries h).bind fun _ _ _ _ hentries => .mapM_eq (hentries.imp fun p q hpq => ?_)
  exact agree_input hpq

lemma agree_outputsOf {process : String} (hscope : IsScope process) {x y : Option Json}
    (h : Option.Rel (ReflGen (SectionVariant (outputSpelling process))) x y) :
    Agree Eq (outputsOf process x) (outputsOf process y) := by
  refine (agree_entries h).bind fun _ _ _ _ hentries => .mapM_eq (hentries.imp fun p q hpq => ?_)
  exact agree_output hscope hpq

/-! ## Steps -/

lemma stepInput_eq {workflow step : String} (hscope : IsScope workflow) {p q : String × Json}
    (h : EntryVariant (stepInputSpelling workflow step) p q) :
    StepInput.ofEntry workflow q.1 q.2 = StepInput.ofEntry workflow p.1 p.2 := by
  obtain ⟨hname, hbody⟩ := h
  replace hbody : FieldsVariant "id" [("source", TextsVariant (Absolute workflow))] p.2 q.2 := hbody
  have hsources := strings_map (fun _ _ hst => qualify_eq hscope (.single hst))
    (hbody.changed "source" (by decide) rfl)
  rw [StepInput.ofEntry, StepInput.ofEntry, optionalString_eq (hbody.eq "valueFrom" (by decide) rfl),
    hbody.eq "default" (by decide) rfl, localName_eq hname, hsources]

/-- A step, but for the process that it runs. -/
lemma agree_stepOfEntry {inner : ProcessSpellings} {workflow id run : String} (hscope : IsScope workflow)
    {a b : Json} (h : FieldsVariant "id" (stepChanges inner workflow id) a b) :
    Agree Eq (Step.ofEntry workflow id run a) (Step.ofEntry workflow id run b) := by
  have hmethod : scatterMethodOf id b = scatterMethodOf id a := by
    rw [scatterMethodOf, scatterMethodOf, optionalString_eq (h.eq "scatterMethod" (by decide) rfl)]
  have hscatter := strings_map (f := localName)
    (fun s t (hst : Absolute id s t ∨ Absolute workflow s t) =>
      hst.elim (fun h => localName_eq (.single h)) fun h => localName_eq (.single h))
    (h.changed "scatter" (by decide) rfl)
  rw [Step.ofEntry, Step.ofEntry, hmethod, hscatter]
  refine (agree_entries (h.changed "in" (by decide) rfl)).bind fun inputs inputs' _ _ hinputs => ?_
  refine (agree_entries (h.changed "out" (by decide) rfl)).bind fun outputs outputs' _ _ houtputs => ?_
  refine (Agree.of_eq rfl).bind_eq fun scatterMethod _ => ?_
  refine (Requirement.agree_listOfJson (h.changed "requirements" (by decide) rfl)).bind_eq
    fun requirements _ => ?_
  refine (Requirement.agree_listOfJson (h.changed "hints" (by decide) rfl)).bind_eq fun hints _ => ?_
  have hinputs : inputs'.map (fun p => StepInput.ofEntry workflow p.1 p.2) =
      inputs.map fun p => StepInput.ofEntry workflow p.1 p.2 :=
    map_eq_of_forall₂ (hinputs.imp fun _ _ hpq => stepInput_eq hscope hpq)
  have houtputs : outputs'.map (fun p => localName p.1) = outputs.map fun p => localName p.1 :=
    map_eq_of_forall₂ (houtputs.imp fun _ _ hpq => localName_eq hpq.1)
  exact .of_eq (by rw [hinputs, houtputs])

/-! ## Processes -/

section Inner

variable {depth fuel fuel' : Nat}

/-- Processes inside a process are read alike, as long as there is fuel for them. -/
def ReadsProcessesAlike (depth fuel fuel' : Nat) : Prop :=
  ∀ fallback a b, (∀ id ∈ fallback, IsScope id) → ReflGen (ProcessVariant depth fallback) a b →
    jsonHeight a ≤ fuel → jsonHeight b ≤ fuel' →
      Agree Eq (processUpTo fuel a fallback) (processUpTo fuel' b fallback)

/-- What a step runs is a name, which is the same in every spelling, or a process. -/
lemma run_cases {fallback : Option String} {a b : Json} (h : ReflGen (ProcessVariant depth fallback) a b) :
    (b = a ∧ ∀ ms, a ≠ .obj ms) ∨ ∃ ms ns, a = .obj ms ∧ b = .obj ns := by
  cases h with
  | refl =>
      cases a with
      | obj ms => exact .inr ⟨ms, ms, rfl, rfl⟩
      | _ => exact .inl ⟨rfl, nofun⟩
  | single h =>
      cases depth with
      | zero => exact h.elim
      | succ depth =>
          cases h with
          | object h => exact .inr ⟨_, _, rfl, rfl⟩

lemma agree_stepOf (hinner : ReadsProcessesAlike depth fuel fuel') {workflow : String}
    (hscope : IsScope workflow) {p q : String × Json}
    (h : EntryVariant (stepSpelling (ProcessVariant depth) workflow) p q)
    (hp : ∀ value, p.2.field? "run" = some value → jsonHeight value ≤ fuel)
    (hq : ∀ value, q.2.field? "run" = some value → jsonHeight value ≤ fuel') :
    Agree Eq (stepOf (processUpTo fuel) workflow p.1 p.2) (stepOf (processUpTo fuel') workflow q.1 q.2) := by
  obtain ⟨hname, hbody⟩ := h
  have hid : qualify workflow q.1 = qualify workflow p.1 := qualify_eq hscope hname
  rw [stepOf, stepOf, hid]
  set id := qualify workflow p.1 with hdef
  replace hbody : FieldsVariant "id" (stepChanges (ProcessVariant depth) workflow id) p.2 q.2 := hbody
  have hrun := hbody.changed "run" (by decide) rfl
  have hstep (run : String) :
      Agree Eq (Step.ofEntry workflow id run p.2) (Step.ofEntry workflow id run q.2) :=
    agree_stepOfEntry hscope hbody
  dsimp only
  generalize p.2.field? "run" = x at hrun hp ⊢
  generalize q.2.field? "run" = y at hrun hq ⊢
  cases hrun with
  | none => exact .error _ _
  | @some a b hrun =>
      rcases run_cases hrun with ⟨rfl, hname⟩ | ⟨ms, ns, rfl, rfl⟩
      · cases b with
        | str target =>
            refine (hstep _).bind_eq fun step _ => ?_
            exact .of_eq rfl
        | obj ms => exact absurd rfl (hname ms)
        | _ => exact .error _ _
      · have hfallback : ∀ fallback ∈ some (id ++ "/run"), IsScope fallback := by
          rintro _ ⟨⟩
          exact (Ident.isScope_qualify hscope p.1).append _
        refine (hinner _ _ _ hfallback hrun (hp _ rfl) (hq _ rfl)).bind_eq ?_
        rintro ⟨held, process⟩ -
        refine (hstep _).bind_eq fun step _ => ?_
        exact .of_eq rfl

lemma agree_stepsOf (hinner : ReadsProcessesAlike depth fuel fuel') {workflow : String}
    (hscope : IsScope workflow) {ps qs : List (String × Json)}
    (h : List.Forall₂ (EntryVariant (stepSpelling (ProcessVariant depth) workflow)) ps qs) :
    (∀ p ∈ ps, ∀ value, p.2.field? "run" = some value → jsonHeight value ≤ fuel) →
    (∀ q ∈ qs, ∀ value, q.2.field? "run" = some value → jsonHeight value ≤ fuel') →
    Agree Eq (stepsOf (processUpTo fuel) workflow ps) (stepsOf (processUpTo fuel') workflow qs) := by
  induction h with
  | nil => exact fun _ _ => .of_eq rfl
  | @cons p q ps qs hpq _ ih =>
      intro hps hqs
      obtain ⟨hp, hps⟩ := List.forall_mem_cons.mp hps
      obtain ⟨hq, hqs⟩ := List.forall_mem_cons.mp hqs
      rw [stepsOf, stepsOf]
      refine (agree_stepOf hinner hscope hpq hp hq).bind_eq ?_
      rintro ⟨held, step⟩ -
      refine (ih hps hqs).bind_eq ?_
      rintro ⟨more, steps⟩ -
      exact .of_eq rfl

variable {ms ns : List (String × Json)} {id : String}

lemma commandLine_eq (h : MembersVariant (processChanges (ProcessVariant depth) id) ms ns) :
    CommandLine.ofJson (.obj ns) = CommandLine.ofJson (.obj ms) := by
  have hsame (key : String) (hfind : (processChanges (ProcessVariant depth) id).find? key = none) :
      Json.field? (.obj ns) key = Json.field? (.obj ms) key := eq_of_rel hfind (h.find? key)
  rw [CommandLine.ofJson, CommandLine.ofJson]
  rw [hsame "arguments" rfl, hsame "baseCommand" rfl, optionalString_eq (hsame "stdin" rfl),
    optionalString_eq (hsame "stdout" rfl), optionalString_eq (hsame "stderr" rfl)]

/-- What a process does, and the processes inside it. -/
lemma agree_bodyOf (hinner : ReadsProcessesAlike depth fuel fuel')
    (h : MembersVariant (processChanges (ProcessVariant depth) id) ms ns) (hscope : IsScope id)
    (hms : jsonHeight (.obj ms) ≤ fuel + 1) (hns : jsonHeight (.obj ns) ≤ fuel' + 1) (className : String) :
    Agree Eq (bodyOf (processUpTo fuel) id className (.obj ms))
      (bodyOf (processUpTo fuel') id className (.obj ns)) := by
  have hsteps : Option.Rel (ReflGen (SectionVariant (stepSpelling (ProcessVariant depth) id)))
      (Json.field? (.obj ms) "steps") (Json.field? (.obj ns) "steps") :=
    changed_of_rel rfl (h.find? "steps")
  have hexpression : optionalString (.obj ns) "expression" = optionalString (.obj ms) "expression" :=
    optionalString_eq (eq_of_rel rfl (h.find? "expression"))
  unfold bodyOf
  rw [commandLine_eq h, hexpression]
  split
  · refine (agree_entries hsteps).bind fun ps qs hps hqs hentries => ?_
    have hall := agree_stepsOf hinner hscope hentries
      (fun p hp value hvalue => by
        obtain ⟨own, hown, hlt⟩ := jsonHeight_of_entries hps hp hvalue
        have hlevel := jsonHeight_field? hown
        omega)
      (fun q hq value hvalue => by
        obtain ⟨own, hown, hlt⟩ := jsonHeight_of_entries hqs hq hvalue
        have hlevel := jsonHeight_field? hown
        omega)
    refine hall.bind_eq ?_
    rintro ⟨held, steps⟩ -
    exact .of_eq rfl
  · exact .of_eq rfl
  · exact .of_eq rfl
  · exact .of_eq rfl

lemma agree_ofParts (h : MembersVariant (processChanges (ProcessVariant depth) id) ms ns)
    (hscope : IsScope id) (body : Body) :
    Agree Eq (Process.ofParts (.obj ms) id body) (Process.ofParts (.obj ns) id body) := by
  have hfind {R : Json → Json → Prop} (key : String)
      (hkey : (processChanges (ProcessVariant depth) id).find? key = some R) :
      Option.Rel (ReflGen R) (Json.field? (.obj ms) key) (Json.field? (.obj ns) key) :=
    changed_of_rel hkey (h.find? key)
  rw [Process.ofParts, Process.ofParts]
  refine (agree_inputsOf (hfind "inputs" rfl)).bind_eq fun inputs _ => ?_
  refine (agree_outputsOf hscope (hfind "outputs" rfl)).bind_eq fun outputs _ => ?_
  refine (Requirement.agree_listOfJson (hfind "requirements" rfl)).bind_eq fun requirements _ => ?_
  refine (Requirement.agree_listOfJson (hfind "hints" rfl)).bind_eq fun hints _ => ?_
  exact .of_eq rfl

/-- The id of a process starts with `#`, also when it is that of the step. -/
lemma isScope_of_processId {json : Json} {fallback : Option String} {id : String}
    (hfallback : ∀ id ∈ fallback, IsScope id) (h : processId json fallback = .ok id) : IsScope id := by
  unfold processId at h
  split at h
  · obtain rfl := Except.ok.inj h
    exact Ident.isScope_normalize _
  · obtain rfl := Except.ok.inj h
    exact hfallback _ rfl
  · cases h

lemma agree_process (hinner : ReadsProcessesAlike depth fuel fuel') {fallback : Option String}
    (hfallback : ∀ id ∈ fallback, IsScope id)
    (h : MembersVariant (processChanges (ProcessVariant depth) (scopeOf (.obj ms) fallback)) ms ns)
    (hms : jsonHeight (.obj ms) ≤ fuel + 1) (hns : jsonHeight (.obj ns) ≤ fuel' + 1) :
    Agree Eq (processUpTo (fuel + 1) (.obj ms) fallback) (processUpTo (fuel' + 1) (.obj ns) fallback) := by
  have hsame (key : String)
      (hfind : (processChanges (ProcessVariant depth) (scopeOf (.obj ms) fallback)).find? key = none) :
      Json.field? (.obj ns) key = Json.field? (.obj ms) key := eq_of_rel hfind (h.find? key)
  have hprocessId : processId (.obj ns) fallback = processId (.obj ms) fallback := by
    unfold processId
    rw [optionalString_eq (hsame "id" rfl)]
  have hclass : optionalString (.obj ns) "class" = optionalString (.obj ms) "class" :=
    optionalString_eq (hsame "class" rfl)
  rw [processUpTo, processUpTo, hprocessId, hclass]
  refine (Agree.of_eq rfl).bind_eq fun id hid => ?_
  have hscope : IsScope id := isScope_of_processId hfallback hid
  have hown : scopeOf (.obj ms) fallback = id := by
    rw [scopeOf, hid]
    rfl
  -- The spelling was stated for the id that the process turns out to have.
  rw [hown] at h
  dsimp only
  split
  · refine (Agree.of_eq rfl).bind_eq fun className _ => ?_
    refine (agree_bodyOf hinner h hscope hms hns className).bind_eq ?_
    rintro ⟨held, body⟩ -
    refine (agree_ofParts h hscope body).bind_eq fun process _ => ?_
    exact .of_eq rfl
  · exact .error _ _

end Inner

/-- A process has fuel for its levels, and any that is left over makes no difference. -/
lemma readsProcessesAlike : ∀ (fuel depth fuel' : Nat), ReadsProcessesAlike depth fuel fuel'
  | 0, _, _, _, a, _, _, _, ha, _ => absurd ha (Nat.not_le_of_lt (jsonHeight_pos a))
  | _ + 1, _, 0, _, _, b, _, _, _, hb => absurd hb (Nat.not_le_of_lt (jsonHeight_pos b))
  | fuel + 1, depth, fuel' + 1, fallback, a, b, hfallback, h, ha, hb => by
      cases h with
      | refl =>
          cases a with
          | obj ms => exact agree_process (readsProcessesAlike fuel 0 fuel') hfallback (.refl _ ms) ha hb
          | _ => exact .error _ _
      | single h =>
          cases depth with
          | zero => exact h.elim
          | succ depth =>
              cases h with
              | object h => exact agree_process (readsProcessesAlike fuel depth fuel') hfallback h ha hb

/-! ## Documents -/

lemma agree_processesOf {depth : Nat} {as bs : List Json}
    (h : List.Forall₂ (ReflGen (ProcessVariant depth none)) as bs) :
    Agree Eq (processesOf as) (processesOf bs) := by
  induction h with
  | nil => exact .of_eq rfl
  | @cons a b _ _ hab _ ih =>
      rw [processesOf, processesOf, processOf, processOf]
      refine (readsProcessesAlike _ depth _ none a b nofun hab le_rfl le_rfl).bind_eq ?_
      rintro ⟨held, process⟩ -
      refine ih.bind_eq fun rest _ => ?_
      exact .of_eq rfl

/-- The processes of a document. -/
lemma agree_ofJson {a b : Json} (h : DocumentVariant a b) : Agree Eq (ofJson a) (ofJson b) := by
  obtain ⟨depth, ms, ns, rfl, rfl, h⟩ := h
  have hversion : optionalString (.obj ns) "cwlVersion" = optionalString (.obj ms) "cwlVersion" :=
    optionalString_eq (eq_of_rel rfl (h.find? "cwlVersion"))
  have hgraph : Option.Rel (ReflGen fun a b => ∃ as bs, a = .arr as ∧ b = .arr bs ∧
      List.Forall₂ (ReflGen (ProcessVariant depth none)) as bs)
      (Json.field? (.obj ms) "$graph") (Json.field? (.obj ns) "$graph") :=
    changed_of_rel rfl (h.find? "$graph")
  rw [ofJson, ofJson, hversion]
  dsimp only
  generalize Json.field? (.obj ms) "$graph" = x at hgraph
  generalize Json.field? (.obj ns) "$graph" = y at hgraph
  cases optionalString (.obj ms) "cwlVersion" with
  | none => exact .error _ _
  | some version =>
      dsimp only
      split_ifs
      · exact .error _ _
      · cases hgraph with
        | none => exact .error _ _
        | some hgraph =>
            cases hgraph with
            | refl => exact .of_eq rfl
            | single hgraph =>
                obtain ⟨as, bs, rfl, rfl, hgraph⟩ := hgraph
                dsimp only
                rw [pure_bind, pure_bind, pure_bind, pure_bind]
                refine (agree_processesOf hgraph).bind_eq fun processes _ => ?_
                exact .of_eq rfl

/-- **Every spelling of a document** is read as the same document, or none is. -/
theorem same_document {a b : Json} (h : DocumentVariant a b) : (ofJson a).toOption = (ofJson b).toOption :=
  (agree_ofJson h).toOption_eq

/-- A step that holds its tool, with lists and names by themselves. -/
def listedStep : Json :=
  .obj [("id", .str "sort"),
    ("run", .obj [("class", .str "CommandLineTool"),
      ("inputs", .arr [.obj [("id", .str "x"), ("type", .str "File")]]),
      ("outputs", .arr [.obj [("id", .str "out"), ("type", .str "stdout")]])]),
    ("in", .arr [.obj [("id", .str "x"), ("source", .str "reads")]]),
    ("out", .arr [.str "out"])]

/-- The same step, with maps and absolute names. -/
def mappedStep : String × Json :=
  ("#main/sort", .obj [
    ("run", .obj [("class", .str "CommandLineTool"),
      ("inputs", .obj [("x", .obj [("id", .str "#main/sort/run/x"), ("type", .str "File")])]),
      ("outputs", .arr [.obj [("id", .str "out"), ("type", .str "stdout")]])]),
    ("in", .obj [("#main/sort/x", .obj [("source", .str "#main/reads")])]),
    ("out", .arr [.str "#main/sort/out"])])

/-- A workflow with the step. -/
def listedJson : Json :=
  .obj [("cwlVersion", .str "v1.2"), ("$graph", .arr [.obj [("id", .str "#main"),
    ("class", .str "Workflow"),
    ("inputs", .arr [.obj [("id", .str "reads"), ("type", .str "File")]]),
    ("outputs", .arr [.obj [("id", .str "sorted"), ("type", .str "File"),
      ("outputSource", .str "sort/out")]]),
    ("steps", .arr [listedStep])]])]

/-- The same workflow. -/
def mappedJson : Json :=
  .obj [("cwlVersion", .str "v1.2"), ("$graph", .arr [.obj [("id", .str "#main"),
    ("class", .str "Workflow"),
    ("inputs", .obj [("#main/reads", .obj [("type", .str "File")])]),
    ("outputs", .arr [.obj [("id", .str "#main/sorted"), ("type", .str "File"),
      ("outputSource", .str "#main/sort/out")]]),
    ("steps", .obj [mappedStep])]])]

lemma absolute_of {scope i j : String} (hrelative : '#' ∉ i.toList) (h : j = scope ++ "/" ++ i) :
    ReflGen (Absolute scope) i j :=
  .single ⟨hrelative, h⟩

lemma listedStep_variant : KeyedVariant (stepSpelling (ProcessVariant 1) "#main") listedStep mappedStep := by
  have hrun : ProcessVariant 1 (some (qualify "#main" "sort" ++ "/run"))
      (.obj [("class", .str "CommandLineTool"),
        ("inputs", .arr [.obj [("id", .str "x"), ("type", .str "File")]]),
        ("outputs", .arr [.obj [("id", .str "out"), ("type", .str "stdout")]])])
      (.obj [("class", .str "CommandLineTool"),
        ("inputs", .obj [("x", .obj [("id", .str "#main/sort/run/x"), ("type", .str "File")])]),
        ("outputs", .arr [.obj [("id", .str "out"), ("type", .str "stdout")]])]) :=
    .object (.cons ⟨rfl, .refl⟩ (.cons ⟨rfl, .changed rfl (.keyed (.cons (.kept rfl .refl
      (.cons ⟨rfl, .changed rfl (.text ⟨by decide, rfl⟩)⟩ (.cons ⟨rfl, .refl⟩ .nil))) .nil))⟩
      (.cons ⟨rfl, .refl⟩ .nil)))
  have hin : SectionVariant (stepInputSpelling "#main" (qualify "#main" "sort"))
      (.arr [.obj [("id", .str "x"), ("source", .str "reads")]])
      (.obj [("#main/sort/x", .obj [("source", .str "#main/reads")])]) :=
    .keyed (.cons (.dropped rfl (absolute_of (by decide) rfl)
      (.cons ⟨rfl, .changed rfl (.one ⟨by decide, rfl⟩)⟩ .nil)) .nil)
  have hout : SectionVariant (stepOutputSpelling (qualify "#main" "sort"))
      (.arr [.str "out"]) (.arr [.str "#main/sort/out"]) :=
    .list (.cons (.single (.bare ⟨by decide, rfl⟩)) .nil)
  exact .dropped rfl (absolute_of (by decide) rfl) (.cons ⟨rfl, .changed rfl hrun⟩
    (.cons ⟨rfl, .changed rfl hin⟩ (.cons ⟨rfl, .changed rfl hout⟩ .nil)))

lemma listed_variant : DocumentVariant listedJson mappedJson := by
  have hreads : SectionVariant (inputSpelling "#main")
      (.arr [.obj [("id", .str "reads"), ("type", .str "File")]])
      (.obj [("#main/reads", .obj [("type", .str "File")])]) :=
    .keyed (.cons (.dropped rfl (absolute_of (by decide) rfl) (.refl _ _)) .nil)
  have hsorted : SectionVariant (outputSpelling "#main")
      (.arr [.obj [("id", .str "sorted"), ("type", .str "File"), ("outputSource", .str "sort/out")]])
      (.arr [.obj [("id", .str "#main/sorted"), ("type", .str "File"),
        ("outputSource", .str "#main/sort/out")]]) :=
    .list (.cons (.single (.object rfl (.cons ⟨rfl, .changed rfl (.text ⟨by decide, rfl⟩)⟩
      (.cons ⟨rfl, .refl⟩ (.cons ⟨rfl, .changed rfl (.one ⟨by decide, rfl⟩)⟩ .nil))))) .nil)
  have hsteps : SectionVariant (stepSpelling (ProcessVariant 1) "#main") (.arr [listedStep])
      (.obj [mappedStep]) :=
    .keyed (.cons listedStep_variant .nil)
  refine ⟨2, _, _, rfl, rfl, .cons ⟨rfl, .refl⟩ (.cons ⟨rfl, .changed rfl ⟨_, _, rfl, rfl,
    .cons (.single (.object ?_)) .nil⟩⟩ .nil)⟩
  exact .cons ⟨rfl, .refl⟩ (.cons ⟨rfl, .refl⟩ (.cons ⟨rfl, .changed rfl hreads⟩
    (.cons ⟨rfl, .changed rfl hsorted⟩ (.cons ⟨rfl, .changed rfl hsteps⟩ .nil))))

/-- Both spellings are read, as one document. -/
theorem mapped_same_document :
    DocumentVariant listedJson mappedJson ∧ ∃ document, (ofJson listedJson).toOption = some document ∧
      (ofJson mappedJson).toOption = some document := by
  have read : (ofJson listedJson).toOption.isSome = true := by
    with_unfolding_all rfl
  obtain ⟨document, hread⟩ := Option.isSome_iff_exists.mp read
  exact ⟨listed_variant, document, hread, (same_document listed_variant).symm.trans hread⟩

end WorkflowEngine.Document
