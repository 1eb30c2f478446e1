import WorkflowEngine.Proofs.Trees

/-!
# Addresses

`Task.at?` looks a task up.  A task that is there stays there, and its facts stay once it has ended.

* **`Continues`** — how a later tree of a run stands to an earlier one.
* **`Moves.continues`** — every move leads from a tree to one that continues it.
-/

namespace WorkflowEngine.Scheduling

variable {σ κ : Type}


open Machine (Address)

/-- The task at an address. -/
def Task.at? : Address → Task κ → Option (Task κ)
  | [], task => some task
  | .child id :: rest, task => (task.children.find? id).bind (at? rest)
  | .element place :: rest, task => task.elements[place]?.bind (at? rest)

lemma Task.mem_descendants_of_at? : ∀ {address : Address} {task d : Task κ},
    task.at? address = some d → d ∈ task.descendants
  | [], task, d, h => mem_descendants.mpr (Or.inl (Option.some.inj h).symm)
  | .child id :: rest, task, d, h => by
      obtain ⟨child, hc, hd⟩ := Option.bind_eq_some_iff.mp h
      exact mem_descendants.mpr
        (Or.inr (Or.inl ⟨_, OrderedMap.mem_of_find? hc, mem_descendants_of_at? hd⟩))
  | .element place :: rest, task, d, h => by
      obtain ⟨element, he, hd⟩ := Option.bind_eq_some_iff.mp h
      exact mem_descendants.mpr
        (Or.inr (Or.inr ⟨_, List.mem_of_getElem? he, mem_descendants_of_at? hd⟩))

lemma Task.at?_append (front back : Address) (task : Task κ) :
    task.at? (front ++ back) = (task.at? front).bind (at? back) := by
  induction front generalizing task with
  | nil => rfl
  | cons branch rest ih =>
      cases branch with
      | child id =>
          simp only [List.cons_append, at?, Option.bind_assoc]
          exact congrArg _ (funext fun child => ih child)
      | element place =>
          simp only [List.cons_append, at?, Option.bind_assoc]
          exact congrArg _ (funext fun element => ih element)

lemma Task.at?_child {root task child : Task κ} {address : Address} {id : String}
    (at_ : root.at? address = some task) (hf : task.children.find? id = some child) :
    root.at? (address ++ [.child id]) = some child := by
  rw [at?_append, at_, Option.bind_some, at?, hf, Option.bind_some, at?]

lemma Task.at?_element {root task element : Task κ} {address : Address} {place : Nat}
    (at_ : root.at? address = some task) (hf : task.elements[place]? = some element) :
    root.at? (address ++ [.element place]) = some element := by
  rw [at?_append, at_, Option.bind_some, at?, hf, Option.bind_some, at?]

/-- Every task stays at its address, and its facts stay once it has ended. -/
def Continues (task next : Task κ) : Prop :=
  ∀ address d, task.at? address = some d → ∃ d', next.at? address = some d' ∧ d'.info = d.info ∧
    (d.isDone = true → d'.facts = d.facts)

lemma Continues.refl (task : Task κ) : Continues task task :=
  fun _ d hd => ⟨d, hd, rfl, fun _ => rfl⟩

lemma Continues.trans {s t u : Task κ} (h : Continues s t) (h' : Continues t u) :
    Continues s u := by
  intro address d hd
  obtain ⟨e, he, hei, hed⟩ := h address d hd
  obtain ⟨f, hf, hfi, hfd⟩ := h' address e he
  refine ⟨f, hf, hfi.trans hei, fun done => ?_⟩
  have hfacts := hed done
  have hdone : e.isDone = true := by
    rw [← done]
    exact congrArg (fun facts => facts.status.isFinal) hfacts
  exact (hfd hdone).trans hfacts

/-- A task continues another when it does so itself and when the tasks directly below do. -/
lemma continues_of_parts {task next : Task κ} (info : next.info = task.info)
    (kept : task.isDone = true → next.facts = task.facts)
    (children : ∀ id child, task.children.find? id = some child →
      ∃ child', next.children.find? id = some child' ∧ Continues child child')
    (elements : ∀ (place : Nat) element, task.elements[place]? = some element →
      ∃ element', next.elements[place]? = some element' ∧ Continues element element') :
    Continues task next
  | [], d, h => by
      obtain rfl : task = d := Option.some.inj h
      exact ⟨next, rfl, info, kept⟩
  | .child id :: rest, d, h => by
      obtain ⟨child, hc, hd⟩ := Option.bind_eq_some_iff.mp h
      obtain ⟨child', hc', hcont⟩ := children id child hc
      obtain ⟨d', hd', hrest⟩ := hcont rest d hd
      exact ⟨d', by simp [Task.at?, hc', hd'], hrest⟩
  | .element place :: rest, d, h => by
      obtain ⟨element, he, hd⟩ := Option.bind_eq_some_iff.mp h
      obtain ⟨element', he', hcont⟩ := elements place element he
      obtain ⟨d', hd', hrest⟩ := hcont rest d hd
      exact ⟨d', by simp [Task.at?, he', hd'], hrest⟩

lemma continues_abandon (task : Task κ) (reason : String) :
    Continues task (task.abandon reason) := by
  induction task using Task.inductionBelow with
  | step task ihc ihe =>
      refine continues_of_parts (Task.info_abandon task reason) (fun done => ?_)
        (fun id child hc => ?_) (fun place element he => ?_)
      · simp only [Task.facts, Task.info_abandon, Task.status, Task.state_abandon]
        rw [TaskState.finish_eq_self done]
      · refine ⟨child.abandon reason, ?_, ihc _ (OrderedMap.mem_of_find? hc)⟩
        rw [Task.children_abandon, OrderedMap.find?_mapValues, hc, Option.map_some]
      · refine ⟨element.abandon reason, ?_, ihe _ (List.mem_of_getElem? he)⟩
        rw [Task.elements_abandon, List.getElem?_map, he, Option.map_some]

lemma continues_withPhase (task : Task κ) (phase : Phase κ) :
    Continues task (task.withPhase phase) := by
  refine continues_of_parts (Task.info_withPhase task phase) (fun _ => ?_)
    (fun id child hc => ⟨child, by rwa [Task.children_withPhase], .refl child⟩)
    (fun place element he => ⟨element, by rwa [Task.elements_withPhase], .refl element⟩)
  simp [Task.facts]

namespace Machine

lemma GivenUpBelow.continues {task next : Task κ} (h : GivenUpBelow task next) :
    (∀ id child, task.children.find? id = some child →
      ∃ child', next.children.find? id = some child' ∧ Continues child child') ∧
    ∀ (place : Nat) element, task.elements[place]? = some element →
      ∃ element', next.elements[place]? = some element' ∧ Continues element element' := by
  refine ⟨fun id child hc => ?_, fun place element he => ?_⟩
  · obtain ⟨child', hc', reason, rfl⟩ := 
      OrderedMap.find?_of_forall₂ (R := fun v w => ∃ reason, w = v.abandon reason) h.children hc
    exact ⟨_, hc', continues_abandon child reason⟩
  · obtain ⟨hlt, rfl⟩ := List.getElem?_eq_some_iff.mp he
    have hlen := h.elements.length_eq
    obtain ⟨reason, hr⟩ := h.elements.get hlt (hlen ▸ hlt)
    refine ⟨next.elements[place], List.getElem?_eq_getElem (hlen ▸ hlt), ?_⟩
    rw [List.get_eq_getElem, List.get_eq_getElem] at hr
    rw [hr]
    exact continues_abandon _ reason

/-- A task to which something happens has not ended. -/
lemma Tidy.isDone {m : Machine σ κ} {c : Circumstances σ} {world : σ} {supply : Option Supply}
    {task next : Task κ} (h : Tidy task) (change : m.Change c world supply task next) :
    task.isDone = false := by
  cases hp : task.phase with
  | waiting => exact (h.waiting hp).1
  | working tool => exact (h.working tool hp).1
  | joining => exact (h.joining hp).1
  | idle => exact absurd (Or.inl hp) change.not_resting
  | returned => exact absurd (Or.inr (by rw [hp]; rfl)) change.not_resting
  | aborted => exact absurd (Or.inr (by rw [hp]; rfl)) change.not_resting

/-- **A move leaves every task at its address and every ended task as it is.** -/
theorem Moves.continues {m : Machine σ κ} {c : Circumstances σ} {world : σ} {supply : Option Supply}
    {task next : Task κ} (moves : m.Moves c world supply task next)
    (attached : Attached supply task) (h : Sound m.document task) : Continues task next := by
  induction moves with
  | @here supply task next happens =>
      have hnot := h.here.2.isDone happens.change
      have hkept : task.isDone = true → next.facts = task.facts := by simp [hnot]
      have houtline := happens.change.outline
      cases houtline with
      | ended _ ends =>
          exact continues_of_parts ends.info hkept ends.below.continues.1 ends.below.continues.2
      | stray isSome none _ _ => exact absurd none (attached.isStep isSome)
      | scattered waiting scatter planned info done phase children =>
          have hnone := (h.here.2.waiting waiting).2.2.1
          exact continues_of_parts info hkept (fun id child hc => ⟨child, children ▸ hc, .refl child⟩)
            (fun place element he => by simp [hnone] at he)
      | opened waiting plain info done phase children elements =>
          refine continues_of_parts info hkept (fun id child hc => ?_)
            (fun place element he => ⟨element, elements ▸ he, .refl element⟩)
          refine ⟨child.withPhase .waiting, ?_, continues_withPhase child _⟩
          rw [children, OrderedMap.find?_mapValues, hc, Option.map_some]
      | atWork _ info _ _ children elements =>
          exact continues_of_parts info hkept (fun id child hc => ⟨child, children ▸ hc, .refl child⟩)
            (fun place element he => ⟨element, elements ▸ he, .refl element⟩)
  | @child supply task old next id at_ below ih =>
      have hmem := OrderedMap.mem_of_find? at_
      have hold := ih (h.here.1.attached at_ _) (h.child hmem)
      refine continues_of_parts (Task.info_withChildren _ _) (fun _ => by simp [Task.facts])
        (fun key child hc => ?_)
        (fun place element he => ⟨element, by rwa [Task.elements_withChildren], .refl element⟩)
      rw [Task.children_withChildren, find?_replaceChild, hc, Option.map_some]
      by_cases hk : key = id
      · subst hk
        obtain rfl : old = child := Option.some.inj (at_.symm.trans hc)
        exact ⟨next, by simp, hold⟩
      · exact ⟨child, by simp [hk], .refl child⟩
  | @element supply task old next place at_ below ih =>
      have hold := ih (attached_none old) (h.element (List.mem_of_getElem? at_))
      refine continues_of_parts (Task.info_withElements _ _) (fun _ => by simp [Task.facts])
        (fun id child hc => ⟨child, by rwa [Task.children_withElements], .refl child⟩)
        (fun key element he => ?_)
      rw [Task.elements_withElements]
      by_cases hk : place = key
      · subst hk
        obtain rfl : old = element := Option.some.inj (at_.symm.trans he)
        exact ⟨next, List.getElem?_set_self (List.getElem?_eq_some_iff.mp at_).1, hold⟩
      · exact ⟨element, by rw [List.getElem?_set_ne hk, he], .refl element⟩

end Machine

end WorkflowEngine.Scheduling
