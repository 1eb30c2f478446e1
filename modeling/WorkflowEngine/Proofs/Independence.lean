import WorkflowEngine.Proofs.Completion
import WorkflowEngine.Proofs.Plans

/-!
# Independence of the order

Any two complete runs come to the same end, whatever the order of the work and whatever the clock does,
as long as what a tool answers depends on its task and its parameters alone.

**One end.**  A plan leads to one end only (`Follows.alike`), and so two runs do: `same_outcome`.

**The fork.**  `forkMachine` runs two steps that do not depend on each other, in several orders.
-/

namespace WorkflowEngine.Scheduling

open Machine (Address ready)

variable {σ κ : Type}

namespace Machine

variable {m : Machine σ κ} {c : Circumstances σ}
  {answer : TaskInfo → Values → Values × Outcome Values} {plan : Option (Plan κ)}
  {start task : Task κ}

/-! ## One end -/

/-- Tasks that are alike below join alike. -/
lemma Joins.alike {first second : Task κ} (h₁ : Joins start first) (h₂ : Joins start second)
    (returned₁ : first.phase = .returned) (returned₂ : second.phase = .returned)
    (nodup : first.children.keys.Nodup) (below : AlikeBelow first second) : Alike first second := by
  have hresult : joinResult false first = joinResult false second :=
    joinResult_congr (h₁.info.trans h₂.info.symm) (h₁.parameters.trans h₂.parameters.symm) nodup below
      (h₁.below returned₁) (h₂.below returned₂)
  refine alike_of_below ?_ below
  rcases h₁ with ⟨h, -⟩ | ⟨-, -, result₁, hr₁, hf₁⟩
  · simp [returned₁] at h
  · rcases h₂ with ⟨h, -⟩ | ⟨-, -, result₂, hr₂, hf₂⟩
    · simp [returned₂] at h
    · obtain rfl : result₁ = result₂ := Option.some.inj (hr₁.symm.trans (hresult.trans hr₂))
      exact hf₁.trans hf₂.symm

/-- Workflows whose steps have come to the same ends plan alike for a step that they feed. -/
lemma plan?_congr {first second : Task κ} (info : first.info = second.info)
    (params : first.state.parameters = second.state.parameters)
    (producers : ∀ step, task.info.step = some step → ∀ source ∈ sourcesOf step, ∀ producer,
      (outputSteps first.info.process).find? source = some producer →
        ∃ old new, first.children.find? producer = some old ∧
          second.children.find? producer = some new ∧ old.facts = new.facts) :
    m.plan? (some (.ofTask false first)) task = m.plan? (some (.ofTask false second)) task := by
  refine Option.ext fun p => ⟨plan?_later fun step hstep source hs => ?_,
    plan?_later fun step hstep source hs => ?_⟩
  · refine value_later info.symm params.symm fun producer hp => ?_
    obtain ⟨old, new, hold, hnew, hf⟩ := producers step hstep source hs producer hp
    exact ⟨old, new, hold, hnew, fun _ => hf.symm⟩
  · refine value_later info params fun producer hp => ?_
    obtain ⟨old, new, hold, hnew, hf⟩ := producers step hstep source hs producer (info ▸ hp)
    exact ⟨new, old, hnew, hold, fun _ => hf⟩

/-- **The steps of a workflow come to one end**, one after the other in the order of their ranks: the
producers of a step have come to the same end before, and so it has the same plan. -/
lemma alike_children {document : Document} {first second : Task κ} (wired : Wired document start)
    (plain : start.info.isScatter = false) (info₁ : first.info = start.info)
    (info₂ : second.info = start.info)
    (params : first.state.parameters = second.state.parameters)
    (keys₁ : first.children.keys = start.children.keys)
    (keys₂ : second.children.keys = start.children.keys)
    (one : ∀ id built c d, start.children.find? id = some built → first.children.find? id = some c →
      second.children.find? id = some d →
      m.plan? (some (.ofTask false first)) (built.withPhase .waiting) =
        m.plan? (some (.ofTask false second)) (built.withPhase .waiting) → Alike c d) :
    ∀ id c d, first.children.find? id = some c → second.children.find? id = some d → Alike c d := by
  obtain ⟨rank, hrank⟩ := wired.valid.ordered
  -- By rank and not by place: a step may stand in front of its producers.
  intro id
  induction hn : rank id using Nat.strong_induction_on generalizing id with
  | _ n ih =>
      intro c d hc hd
      obtain ⟨built, hb⟩ := OrderedMap.exists_find?_of_keys keys₁ hc
      obtain ⟨step, hstep, hinfo⟩ := wired.child id built hb
      refine one id built c d hb hc hd (plan?_congr (info₁.trans info₂.symm) params ?_)
      intro step' hstep' source hs producer hp
      rw [info₁] at hp
      obtain rfl : step = step' := by
        rw [Task.info_withPhase, hinfo] at hstep'
        exact Option.some.inj hstep'
      obtain ⟨there, hthere⟩ := Option.isSome_iff_exists.mp (wired.isSome_producer plain hp)
      obtain ⟨old, hold⟩ := OrderedMap.exists_find?_of_keys keys₁.symm hthere
      obtain ⟨new, hnew⟩ := OrderedMap.exists_find?_of_keys keys₂.symm hthere
      have hlt := hrank id step hstep source hs producer hp
      exact ⟨old, new, hold, hnew, (ih _ (hn ▸ hlt) producer rfl old new hold hnew).facts⟩

/-- **A plan leads to one end only.** -/
theorem Follows.alike {first second : Task κ} (h₁ : m.Follows c answer plan start first)
    (h₂ : m.Follows c answer plan start second) (returned₁ : first.phase = .returned)
    (returned₂ : second.phase = .returned) : Alike first second := by
  -- Both trees follow the one plan, so that the case of the first decides that of the second.
  induction h₁ generalizing second with
  | untouched waiting => simp [waiting] at returned₁
  | working phase _ _ => simp [phase] at returned₁
  | refused =>
      cases h₂ with
      | untouched waiting => simp [waiting] at returned₂
      | refused => exact .refl _
  | failed =>
      cases h₂ with
      | untouched waiting => simp [waiting] at returned₂
      | failed => exact .refl _
  | @answered params start first _ children elements facts =>
      cases h₂ with
      | untouched waiting => simp [waiting] at returned₂
      | working phase _ _ => simp [phase] at returned₂
      | answered _ children₂ elements₂ facts₂ =>
          refine alike_of_below (facts.trans facts₂.symm) ⟨?_, ?_, ?_, ?_⟩
          · rw [children, children₂]
          · simp [children]
          · rw [elements, elements₂]
          · simp [elements]
  | @scattered planned params start first children length joins _ ih =>
      cases h₂ with
      | untouched waiting => simp [waiting] at returned₂
      | scattered children₂ length₂ joins₂ below₂ =>
          refine joins.alike joins₂ returned₁ returned₂ (by simp [children])
            ⟨by rw [children, children₂], by simp [children], length.trans length₂.symm, ?_⟩
          intro place e f he hf
          have hlt : place < planned.length := by
            rw [← length]
            exact (List.getElem?_eq_some_iff.mp he).1
          have hp := List.getElem?_eq_getElem hlt
          exact ih place _ e hp he (below₂ place _ f hp hf)
            ((joins.below returned₁).2 e (List.mem_of_getElem? he)).1
            ((joins₂.below returned₂).2 f (List.mem_of_getElem? hf)).1
  | @opened params start first wired plain keys elements joins _ ih =>
      cases h₂ with
      | untouched waiting => simp [waiting] at returned₂
      | opened _ _ keys₂ elements₂ joins₂ below₂ =>
          refine joins.alike joins₂ returned₁ returned₂ (keys ▸ wired.nodup)
            ⟨keys.trans keys₂.symm, ?_, by rw [elements, elements₂], by simp [elements]⟩
          refine alike_children (m := m) wired plain (joins.info.trans (by simp))
            (joins₂.info.trans (by simp)) (joins.parameters.trans joins₂.parameters.symm) keys keys₂ ?_
          intro id built c d hb hc hd same
          exact ih id built c hb hc (same ▸ below₂ id built d hb hd)
            ((joins.below returned₁).1 _ (OrderedMap.mem_of_find? hc)).1
            ((joins₂.below returned₂).1 _ (OrderedMap.mem_of_find? hd)).1

/-- **Independence of the order.**  Two complete runs of an accepted document with the same parameters
end with the same facts of every task (its status with the failure, its parameters and its outputs), and
so with the same result, when the run is not cancelled, no work breaks off, and what each tool answers
depends on its task and its parameters alone. -/
theorem same_outcome {root first second : Task κ} {params : Values}
    (accepted : resolve m.document = .ok root) (answers : m.Answers c answer)
    (live : ∀ world, c.admits world → m.behavior.cancelled world = false) (calm : ¬ c.breaksOff)
    (run₁ : m.Runs c (ready root params) first) (run₂ : m.Runs c (ready root params) second)
    (returned₁ : first.phase = .returned) (returned₂ : second.phase = .returned) :
    Alike first second ∧ Engine.resultOf first = Engine.resultOf second := by
  have hfollows {last : Task κ} (run : m.Runs c (ready root params) last) :
      m.Follows c answer (m.plan? none (ready root params)) (ready root params) last := by
    have hkept := Runs.keeps (P := fun task : Task κ => Sound m.document task ∧
      m.Follows c answer (m.plan? none (ready root params)) (ready root params) task)
      (fun admitted moves h => ⟨moves.sound (attached_none _) h.1,
        moves.follows answers admitted (live _ admitted) calm (by simp) (attached_none _) h.1 h.2⟩)
      run ⟨sound_ready params (wired_of_resolve accepted), .untouched (by simp [ready])⟩
    exact hkept.2
  have halike := (hfollows run₁).alike (hfollows run₂) returned₁ returned₂
  have hstatus : first.status = second.status := congrArg Task.Facts.status halike.facts
  have houtputs : first.state.outputs = second.state.outputs :=
    congrArg Task.Facts.outputs halike.facts
  exact ⟨halike, by rw [Engine.resultOf, Engine.resultOf, hstatus, houtputs]⟩

end Machine

/-! ## The fork -/

/-- A second step that does not depend on the first. -/
def forkSecond : Document.Step := relayStep "#main/second" "#main/given"

/-- A workflow of two steps that can be run in any order. -/
def forkMain : Document.Process where
  id := "#main"
  body := .workflow [relayFirst, forkSecond]
  inputs := relayMain.inputs
  outputs := [⟨"out", .any, none, [], ["#main/second/out", "#main/first/out"]⟩]
  requirements := []
  hints := []

/-- The machine of the relay for this workflow. -/
def forkMachine : Machine Unit Unit := { relayMachine with document := ⟨"v1.2", [forkMain, relayTool]⟩ }

/-- The tree of the document. -/
def forkRoot : Task Unit :=
  .node (mainInfo forkMain) .fresh .idle
    [("#main/first", .node (childInfo (mainInfo forkMain) relayFirst relayTool) .fresh .idle [] []),
      ("#main/second", .node (childInfo (mainInfo forkMain) forkSecond relayTool) .fresh .idle [] [])] []

/-- The tree with which a run ends that lets the tasks take their steps in some order. -/
def forkLast (order : List Address) : Task Unit :=
  let start := ready forkRoot [("given", .bool true)]
  (start :: forkMachine.walk order start ()).getLast (List.cons_ne_nil _ _)

/-- One step after the other. -/
def forkInTurn : List Address :=
  [[], [.child "#main/first"], [.child "#main/first"], [.child "#main/second"],
    [.child "#main/second"], []]

/-- The second step first, and the two side by side. -/
def forkInterleaved : List Address :=
  [[], [.child "#main/second"], [.child "#main/first"], [.child "#main/second"],
    [.child "#main/first"], []]

lemma fork_accepted : resolve forkMachine.document = .ok forkRoot := by
  cbv

lemma fork_answers : forkMachine.Answers ⟨fun _ => True, False⟩
    fun _ params => (params, .ok (relayOutputs params)) where
  start := by
    intro info params world result _ h
    cases h
  resume := by
    intro info params tool shown world result serving _ h
    have hshown : shown = params := by
      induction serving with
      | start _ _ => rfl
      | resume _ _ waits _ => cases waits
    obtain rfl := Next.done.inj h
    exact hshown ▸ rfl

theorem fork_same_outcome : Alike (forkLast forkInTurn) (forkLast forkInterleaved) ∧
    Engine.resultOf (forkLast forkInTurn) = Engine.resultOf (forkLast forkInterleaved) :=
  Machine.same_outcome fork_accepted fork_answers (fun _ _ => rfl) not_false
    (Machine.runs_walk (fun _ => trivial) forkInTurn _ ())
    (Machine.runs_walk (fun _ => trivial) forkInterleaved _ ()) (by cbv) (by cbv)

end WorkflowEngine.Scheduling
