import WorkflowEngine.Proofs.Addresses

/-!
# Likeness

`Alike` compares trees by the facts of the task at every address, whatever the events and the phases.

**Joins.**  When the work below has returned, the result of a join is read off the facts below:
`joinResult_congr`.
-/

namespace WorkflowEngine.Scheduling

variable {κ : Type}

/-- Two trees have tasks at the same addresses, and the facts of these are the same. -/
def Alike (s t : Task κ) : Prop :=
  ∀ address, (s.at? address).map Task.facts = (t.at? address).map Task.facts

lemma Alike.refl (task : Task κ) : Alike task task := fun _ => rfl

lemma Alike.facts {s t : Task κ} (h : Alike s t) : s.facts = t.facts :=
  Option.some.inj (h [])

/-- The tasks directly below are alike, one by one. -/
structure AlikeBelow (s t : Task κ) : Prop where
  keys : s.children.keys = t.children.keys
  children : ∀ id c d, s.children.find? id = some c → t.children.find? id = some d → Alike c d
  length : s.elements.length = t.elements.length
  elements : ∀ (place : Nat) e f, s.elements[place]? = some e → t.elements[place]? = some f →
    Alike e f

lemma alike_of_below {s t : Task κ} (facts : s.facts = t.facts) (below : AlikeBelow s t) :
    Alike s t
  | [] => congrArg some facts
  | .child id :: rest => by
      rw [Task.at?, Task.at?]
      cases hc : s.children.find? id with
      | none =>
          have hd : t.children.find? id = none := by
            rw [OrderedMap.find?_eq_none_iff] at hc ⊢
            rwa [← below.keys]
          rw [hd]
      | some c =>
          obtain ⟨d, hd⟩ := OrderedMap.exists_find?_of_keys below.keys hc
          rw [hd, Option.bind_some, Option.bind_some]
          exact below.children id c d hc hd rest
  | .element place :: rest => by
      rw [Task.at?, Task.at?]
      cases he : s.elements[place]? with
      | none =>
          have hf : t.elements[place]? = none := by
            rw [List.getElem?_eq_none_iff] at he ⊢
            rwa [← below.length]
          rw [hf]
      | some e =>
          have hlt : place < t.elements.length := by
            rw [← below.length]
            exact (List.getElem?_eq_some_iff.mp he).1
          rw [List.getElem?_eq_getElem hlt, Option.bind_some, Option.bind_some]
          exact below.elements place e _ he (List.getElem?_eq_getElem hlt) rest

lemma AlikeBelow.of_eq {s t : Task κ} (children : s.children = t.children)
    (elements : s.elements = t.elements) : AlikeBelow s t := by
  refine ⟨by rw [children], fun id c d hc hd => ?_, by rw [elements], fun place e f he hf => ?_⟩
  · rw [children, hd] at hc
    exact Option.some.inj hc ▸ .refl _
  · rw [elements, hf] at he
    exact Option.some.inj he ▸ .refl _

lemma AlikeBelow.facts_children {s t : Task κ} (h : AlikeBelow s t) (nodup : s.children.keys.Nodup) :
    s.children.map (fun p => (p.1, p.2.facts)) = t.children.map (fun p => (p.1, p.2.facts)) :=
  OrderedMap.map_eq_of_find? h.keys nodup fun id c d hc hd => (h.children id c d hc hd).facts

lemma AlikeBelow.facts_elements {s t : Task κ} (h : AlikeBelow s t) :
    s.elements.map Task.facts = t.elements.map Task.facts := by
  refine List.ext_getElem (by simpa using h.length) fun place hs ht => ?_
  rw [List.length_map] at hs ht
  rw [List.getElem_map, List.getElem_map]
  exact (h.elements place _ _ (List.getElem?_eq_getElem hs) (List.getElem?_eq_getElem ht)).facts

/-- The work directly below a task has come to its end, and so have the tasks. -/
def BelowReturned (task : Task κ) : Prop :=
  (∀ p ∈ task.children, p.2.phase = .returned ∧ p.2.isDone = true) ∧
    ∀ e ∈ task.elements, e.phase = .returned ∧ e.isDone = true

/-! ## Joins -/

namespace Machine

lemma findSome?_congr_map {α β γ : Type} {f : α → Option β} {g : α → γ}
    (hf : ∀ a b, g a = g b → f a = f b) :
    ∀ {xs ys : List α}, xs.map g = ys.map g → xs.findSome? f = ys.findSome? f
  | [], [], _ => rfl
  | [], _ :: _, h => by simp at h
  | _ :: _, [], h => by simp at h
  | a :: xs, b :: ys, h => by
      rw [List.map_cons, List.map_cons, List.cons.injEq] at h
      rw [List.findSome?_cons, List.findSome?_cons, hf a b h.1, findSome?_congr_map hf h.2]

/-- The failure of a workflow or a scattered step is read off the facts below. -/
lemma failureBelow?_congr {ss ts : List (Task κ)} (h : ss.map Task.facts = ts.map Task.facts)
    (unfinished : Failure) : failureBelow? ss unfinished = failureBelow? ts unfinished := by
  have hstatus (a b : Task κ) (hab : a.facts = b.facts) : a.status = b.status :=
    congrArg Task.Facts.status hab
  unfold failureBelow?
  congr 1
  · refine findSome?_congr_map (fun a b hab => ?_) h
    rw [ownFailure?, ownFailure?, hstatus a b hab]
  · refine findSome?_congr_map (fun a b hab => ?_) h
    rw [hstatus a b hab]

/-- When all tasks below have ended, none is given up. -/
lemma settleBelow_of_done {task : Task κ} (h : BelowReturned task) :
    (settleBelow task).children = task.children ∧ (settleBelow task).elements = task.elements ∧
      (settleBelow task).facts = task.facts := by
  rw [settleBelow]
  split_ifs
  · have hsame : giveUpAll "subtask did not finish" id (fun _ t => t) task.elements = task.elements :=
      giveUpAll_of_done (fun _ => rfl) fun e he => (h.2 e he).2
    rw [hsame]
    exact ⟨by simp, by simp, by cases task; rfl⟩
  · have hsame : giveUpAll "step did not finish" Prod.snd (fun p t => (p.1, t)) task.children
        = task.children := giveUpAll_of_done (fun _ => rfl) fun p hp => (h.1 p hp).2
    rw [hsame]
    exact ⟨by simp, by simp, by cases task; rfl⟩

lemma scatterResult_congr {s t : Task κ} (info : s.info = t.info) (below : AlikeBelow s t)
    (hs : BelowReturned s) (ht : BelowReturned t) : scatterResult s = scatterResult t := by
  obtain ⟨-, hse, hsf⟩ := settleBelow_of_done hs
  obtain ⟨-, hte, htf⟩ := settleBelow_of_done ht
  have hinfo : (settleBelow s).info = (settleBelow t).info :=
    (congrArg Task.Facts.info hsf).trans (info.trans (congrArg Task.Facts.info htf).symm)
  have hread (id : String) :
      s.elements.map (fun e => (e.state.outputs.find? id).getD .null) =
        t.elements.map (fun e => (e.state.outputs.find? id).getD .null) := by
    have hmap := congrArg (List.map fun f : Task.Facts => (f.outputs.find? id).getD .null)
      below.facts_elements
    simpa [Function.comp_def, Task.facts] using hmap
  have hgather : gatherElements (settleBelow s) = gatherElements (settleBelow t) := by
    simp only [gatherElements, hinfo, hse, hte, hread]
  rw [scatterResult, scatterResult, failureBelow?_congr below.facts_elements, hgather]

lemma workflowResult_congr {s t : Task κ} (info : s.info = t.info)
    (params : s.state.parameters = t.state.parameters) (nodup : s.children.keys.Nodup)
    (below : AlikeBelow s t) (hs : BelowReturned s) (ht : BelowReturned t) :
    workflowResult false s = workflowResult false t := by
  obtain ⟨hsc, -, hsf⟩ := settleBelow_of_done hs
  obtain ⟨htc, -, htf⟩ := settleBelow_of_done ht
  have hchildren := below.facts_children nodup
  have hvalues : s.children.values.map Task.facts = t.children.values.map Task.facts := by
    have hmap := congrArg (List.map Prod.snd) hchildren
    simpa [OrderedMap.values, Function.comp_def] using hmap
  have hsupply : Supply.ofTask false (settleBelow s) = Supply.ofTask false (settleBelow t) := by
    have hsi : (settleBelow s).info = s.info := congrArg Task.Facts.info hsf
    have hti : (settleBelow t).info = t.info := congrArg Task.Facts.info htf
    have hsp : (settleBelow s).state.parameters = s.state.parameters :=
      congrArg Task.Facts.parameters hsf
    have htp : (settleBelow t).state.parameters = t.state.parameters :=
      congrArg Task.Facts.parameters htf
    have hsteps := congrArg
      (List.map fun p : String × Task.Facts => (p.1, p.2.status, p.2.outputs)) hchildren
    simp only [Supply.ofTask, hsi, hti, hsp, htp, hsc, htc, info, params, Supply.mk.injEq, true_and,
      and_true]
    simpa [Function.comp_def, Task.facts] using hsteps
  rw [workflowResult, workflowResult, failureBelow?_congr hvalues, hsupply, info]

/-- **The result of a join is read off the facts** of the task and of those below it. -/
lemma joinResult_congr {s t : Task κ} (info : s.info = t.info)
    (params : s.state.parameters = t.state.parameters) (nodup : s.children.keys.Nodup)
    (below : AlikeBelow s t) (hs : BelowReturned s) (ht : BelowReturned t) :
    joinResult false s = joinResult false t := by
  rw [joinResult, joinResult, info]
  split_ifs
  · rw [scatterResult_congr info below hs ht]
  · exact workflowResult_congr info params nodup below hs ht

end Machine

end WorkflowEngine.Scheduling
