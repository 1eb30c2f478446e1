import WorkflowEngine.Proofs.Completion
import WorkflowEngine.Proofs.Supplies

/-!
# Progress

No task is blocked for ever unless work breaks off: a task that waits does so, directly or through
others, for one that can go on.

**Waiting.**  A step that waits can start once its producers have ended (`isSome_beginStep`), and a task
that joins can end once the work below is over (`isSome_join`).

**The order of waits.**  `WaitsFor` is what a task waits for in a tree.  Among the steps of a workflow
the waits go down in rank, and from a task that joins they lead below it.

**Progress.**  `some_task_goes_on`: while the main task has not ended and no work has broken off, some
task can go on in any world.

**Broken work.**  A task the work on which broke off is finished when the workflow around it joins its
steps, and the workflow does not join them while one of them waits for that task.  A tree in which nobody
can go on stays as it is (`eq_of_stuck`), and `relay_blocked_for_ever` is a run that comes to such a tree.
-/

namespace WorkflowEngine.Scheduling

open Machine (Address)

variable {σ κ : Type}

/-! ## Waiting -/

namespace Machine

lemma isSome_beginStep {m : Machine σ κ} {s : Supply} {task : Task κ} {world : σ}
    (h : ∀ step, task.info.step = some step → s.feed step ≠ none) :
    (m.beginStep s task world).isSome = true := by
  unfold beginStep
  split
  · rfl
  · next step hs =>
      split
      · next hnone => exact absurd hnone (h step hs)
      · rfl
      · rfl

lemma failureBelow?_eq_none {tasks : List (Task κ)} {unfinished : Failure}
    (h : failureBelow? tasks unfinished = none) : ∀ task ∈ tasks, task.status = .succeeded := by
  intro task ht
  unfold failureBelow? at h
  rw [Option.or_eq_none_iff, List.findSome?_eq_none_iff, List.findSome?_eq_none_iff] at h
  have hs := h.2 task ht
  cases hstatus : task.status <;> simp_all

/-- **A task can end once the work below it is over.** -/
lemma isSome_join (cancelled : Bool) {task : Task κ} (rested : BelowOver task) :
    (join cancelled task).isSome = true := by
  suffices hresult : (joinResult cancelled task).isSome = true by
    obtain ⟨result, hr⟩ := Option.isSome_iff_exists.mp hresult
    exact Option.isSome_iff_exists.mpr ⟨_, join_eq_some_iff.mpr ⟨rested, result, hr, rfl⟩⟩
  unfold joinResult
  split_ifs with hscatter
  · rfl
  · unfold workflowResult
    split
    · rfl
    · next hnone =>
        have hdone := failureBelow?_eq_none hnone
        have hsucceeded (p : String × Task κ) (hp : p ∈ task.children) : p.2.isDone = true := by
          rw [Task.isDone, hdone p.2 (List.mem_map_of_mem hp)]
          rfl
        have hchildren := children_settleBelow (by simpa using hscatter) hsucceeded
        refine Option.isSome_iff_ne_none.mpr (settled_foldlM fun values output _ =>
          settled_bind (Supply.settled_gather fun source _ => ?_) fun _ => settled_pure _)
        intro producer status outputs _ hfind
        rw [find?_steps_ofTask, hchildren, Option.map_eq_some_iff] at hfind
        obtain ⟨child, hc, hpair⟩ := hfind
        obtain ⟨rfl, -⟩ := Prod.mk.inj hpair
        exact hsucceeded _ (OrderedMap.mem_of_find? hc)

/-! ## The order of waits -/

/-- What a task of a tree waits for. -/
inductive WaitsFor (root : Task κ) : Address → Address → Prop
  /-- A workflow waits for its steps. -/
  | child {address : Address} {task child : Task κ} {id : String}
      (at_ : root.at? address = some task) (joining : task.phase = .joining)
      (below : task.children.find? id = some child) (unfinished : child.phase.isOver = false) :
      WaitsFor root address (address ++ [.child id])
  /-- A scattered step waits for its elements. -/
  | element {address : Address} {task element : Task κ} {place : Nat}
      (at_ : root.at? address = some task) (joining : task.phase = .joining)
      (below : task.elements[place]? = some element) (unfinished : element.phase.isOver = false) :
      WaitsFor root address (address ++ [.element place])
  /-- A step waits for the steps that it takes values from. -/
  | producer {address : Address} {task child source : Task κ} {id producer name : String}
      {step : Document.Step} (at_ : root.at? address = some task)
      (below : task.children.find? id = some child) (waiting : child.phase = .waiting)
      (isStep : child.info.step = some step) (takes : name ∈ sourcesOf step)
      (made : (outputSteps task.info.process).find? name = some producer)
      (beside : task.children.find? producer = some source) (unfinished : source.isDone = false) :
      WaitsFor root (address ++ [.child id]) (address ++ [.child producer])

/-- The task at an address can go on in any world; a tool at work counts as able to finish. -/
def CanGo (m : Machine σ κ) (root : Task κ) (address : Address) : Prop :=
  (∀ world, (m.step? address root world).isSome = true) ∨
    ∃ task tool, root.at? address = some task ∧ task.phase = .working tool

/-- The work on the task at an address broke off and nobody has given the task up. -/
def Broken (root : Task κ) (address : Address) : Prop :=
  ∃ task, root.at? address = some task ∧ task.phase = .aborted ∧ task.isDone = false

/-- The task at an address waits, directly or through others, for one that can go on, or for one the
work on which broke off. -/
def Unblocked (m : Machine σ κ) (root : Task κ) (address : Address) : Prop :=
  ∃ target, Relation.ReflTransGen (WaitsFor root) address target ∧
    (m.CanGo root target ∨ Broken root target)

lemma Unblocked.of_waitsFor {m : Machine σ κ} {root : Task κ} {a b : Address}
    (h : WaitsFor root a b) (hb : Unblocked m root b) : Unblocked m root a := by
  obtain ⟨target, hpath, hgo⟩ := hb
  exact ⟨target, .head h hpath, hgo⟩

lemma Unblocked.of_canGo {m : Machine σ κ} {root : Task κ} {a : Address} (h : m.CanGo root a) :
    Unblocked m root a := ⟨a, .refl, Or.inl h⟩

/-- The step of a task is taken inside the one above it. -/
lemma stepAt_child {m : Machine σ κ} {world : σ} {task child : Task κ} {id : String}
    (at_ : task.children.find? id = some child) (rest : Address) (supply : Option Supply) :
    m.stepAt (.child id :: rest) supply task world =
      (m.stepAt rest (some (.ofTask (m.behavior.cancelled world) task)) child world).map
        fun p => (task.withChildren (replaceChild task.children id p.1), p.2) := by
  rw [stepAt, at_, Option.map_eq_bind]
  rfl

lemma stepAt_element {m : Machine σ κ} {world : σ} {task element : Task κ} {place : Nat}
    (at_ : task.elements[place]? = some element) (rest : Address) (supply : Option Supply) :
    m.stepAt (.element place :: rest) supply task world =
      (m.stepAt rest none element world).map
        fun p => (task.withElements (task.elements.set place p.1), p.2) := by
  rw [stepAt, at_, Option.map_eq_bind]
  rfl

/-- A step below a task is one of the whole tree. -/
lemma isSome_stepAt_append {m : Machine σ κ} {world : σ} {task : Task κ} {back : Address}
    (h : ∀ supply, (m.stepAt back supply task world).isSome = true) :
    ∀ {front : Address} {root : Task κ}, root.at? front = some task → ∀ supply,
      (m.stepAt (front ++ back) supply root world).isSome = true
  | [], root, hat, supply => by
      obtain rfl : root = task := Option.some.inj hat
      exact h supply
  | .child id :: rest, root, hat, supply => by
      obtain ⟨child, hc, hat⟩ := Option.bind_eq_some_iff.mp hat
      rw [List.cons_append, stepAt_child hc, Option.isSome_map]
      exact isSome_stepAt_append h hat _
  | .element place :: rest, root, hat, supply => by
      obtain ⟨element, he, hat⟩ := Option.bind_eq_some_iff.mp hat
      rw [List.cons_append, stepAt_element he, Option.isSome_map]
      exact isSome_stepAt_append h hat none

/-! ## Progress -/

section Below

variable {m : Machine σ κ} {root task : Task κ} {address : Address}

/-- A step that waits can start once the steps that it takes values from have ended. -/
lemma canGo_of_producers {id : String} {child : Task κ} (at_ : root.at? address = some task)
    (below : task.children.find? id = some child) (waiting : child.phase = .waiting)
    (ended : ∀ step, child.info.step = some step → ∀ name ∈ sourcesOf step, ∀ producer source,
      (outputSteps task.info.process).find? name = some producer →
        task.children.find? producer = some source → source.isDone = true) :
    m.CanGo root (address ++ [.child id]) := by
  refine Or.inl fun world => isSome_stepAt_append (fun _ => ?_) at_ none
  have hstart : (m.beginStep (.ofTask (m.behavior.cancelled world) task) child world).isSome = true := by
    refine isSome_beginStep fun step hs => Supply.feed_ne_none fun name hname => ?_
    intro producer status outputs hp hfind
    rw [find?_steps_ofTask, Option.map_eq_some_iff] at hfind
    obtain ⟨source, hsource, hpair⟩ := hfind
    obtain ⟨rfl, -⟩ := Prod.mk.inj hpair
    exact ended step hs name hname producer source hp hsource
  rw [stepAt_child below, Option.isSome_map, stepAt, stepHere, waiting]
  exact hstart

/-- **Among the steps of a workflow waits go down in rank**, so every step under way waits for one that
can go on. -/
lemma unblocked_child (at_ : root.at? address = some task) (sound : Sound m.document task)
    (joining : task.phase = .joining)
    (deeper : ∀ id child, task.children.find? id = some child → child.phase = .joining →
      Unblocked m root (address ++ [.child id])) {id : String} {child : Task κ}
    (below : task.children.find? id = some child) (unfinished : child.phase.isOver = false) :
    Unblocked m root (address ++ [.child id]) := by
  obtain ⟨rank, hrank⟩ := sound.here.1.valid.ordered
  induction hn : rank id using Nat.strong_induction_on generalizing id child with
  | _ n ih =>
      have hat := Task.at?_child at_ below
      cases hp : child.phase with
      | idle =>
          exact absurd hp ((sound.here.2.joining joining).2.1 _ (OrderedMap.mem_of_find? below))
      | returned => simp [hp, Phase.isOver] at unfinished
      | aborted => simp [hp, Phase.isOver] at unfinished
      | joining => exact deeper id child below hp
      | working tool => exact .of_canGo (Or.inr ⟨child, tool, hat, hp⟩)
      | waiting =>
          by_cases hended : ∀ step, child.info.step = some step → ∀ name ∈ sourcesOf step,
              ∀ producer source, (outputSteps task.info.process).find? name = some producer →
                task.children.find? producer = some source → source.isDone = true
          · exact .of_canGo (canGo_of_producers at_ below hp hended)
          · push Not at hended
            obtain ⟨step, hs, name, hname, producer, source, hmade, hsource, hdone⟩ := hended
            have hdone : source.isDone = false := by simpa using hdone
            refine .of_waitsFor (.producer at_ below hp hs hname hmade hsource hdone) ?_
            have hlt : rank producer < n := by
              obtain ⟨step', hstep', hs'⟩ := sound.here.1.child id child below
              obtain rfl : step = step' := Option.some.inj (hs.symm.trans hs')
              exact hn ▸ hrank id step hstep' name hname producer hmade
            have hsat := Task.at?_child at_ hsource
            have hmem := OrderedMap.mem_of_find? hsource
            cases hover : source.phase.isOver with
            | false => exact ih (rank producer) hlt hsource hover rfl
            | true =>
                -- A producer that is over without having ended is one that broke off.
                cases hphase : source.phase with
                | returned =>
                    have := ((sound.child hmem).here.2.returned hphase).here.1
                    simp [hdone] at this
                | aborted => exact ⟨_, .refl, Or.inr ⟨source, hsat, hphase, hdone⟩⟩
                | _ => simp [hphase, Phase.isOver] at hover

/-- An element under way needs to wait for nothing beside it. -/
lemma unblocked_element (at_ : root.at? address = some task) (sound : Sound m.document task)
    (joining : task.phase = .joining)
    (deeper : ∀ (place : Nat) element, task.elements[place]? = some element →
      element.phase = .joining → Unblocked m root (address ++ [.element place]))
    {place : Nat} {element : Task κ} (below : task.elements[place]? = some element)
    (unfinished : element.phase.isOver = false) :
    Unblocked m root (address ++ [.element place]) := by
  cases hp : element.phase with
  | idle => exact absurd hp ((sound.here.2.joining joining).2.2 _ (List.mem_of_getElem? below))
  | returned => simp [hp, Phase.isOver] at unfinished
  | aborted => simp [hp, Phase.isOver] at unfinished
  | joining => exact deeper place element below hp
  | working tool =>
      exact .of_canGo (Or.inr ⟨element, tool, Task.at?_element at_ below, hp⟩)
  | waiting =>
      refine .of_canGo (Or.inl fun world => isSome_stepAt_append (fun _ => ?_) at_ none)
      rw [stepAt_element below, Option.isSome_map, stepAt, stepHere, hp]
      rfl

/-- **A task that joins waits for something below it that can go on**, or can end itself. -/
theorem unblocked_of_joining (at_ : root.at? address = some task) (sound : Sound m.document task)
    (joining : task.phase = .joining) : Unblocked m root address := by
  induction task using Task.inductionBelow generalizing address with
  | step task ihc ihe =>
      by_cases hover : BelowOver task
      · have hgo : m.CanGo root (address ++ []) := by
          refine Or.inl fun world => isSome_stepAt_append (fun _ => ?_) at_ none
          obtain ⟨p, hp⟩ := Option.isSome_iff_exists.mp
            (isSome_join (m.behavior.cancelled world) hover)
          simp [stepAt, stepHere, joining, hp]
        exact .of_canGo (by simpa using hgo)
      · have hchildren (id : String) (child : Task κ) (hf : task.children.find? id = some child)
            (hj : child.phase = .joining) : Unblocked m root (address ++ [.child id]) := by
          have hmem := OrderedMap.mem_of_find? hf
          exact ihc _ hmem (Task.at?_child at_ hf) (sound.child hmem) hj
        have helements (place : Nat) (element : Task κ)
            (hf : task.elements[place]? = some element) (hj : element.phase = .joining) :
            Unblocked m root (address ++ [.element place]) := by
          have hmem := List.mem_of_getElem? hf
          exact ihe _ hmem (Task.at?_element at_ hf) (sound.element hmem) hj
        rw [BelowOver, not_and_or] at hover
        push Not at hover
        rcases hover with ⟨p, hp, hnot⟩ | ⟨e, he, hnot⟩
        · have hf := (OrderedMap.find?_eq_some_iff sound.here.1.nodup).mpr hp
          have hnot : p.2.phase.isOver = false := by simpa using hnot
          exact .of_waitsFor (.child at_ joining hf hnot)
            (unblocked_child at_ sound joining hchildren hf hnot)
        · obtain ⟨place, hf⟩ := List.getElem?_of_mem he
          have hnot : e.phase.isOver = false := by simpa using hnot
          exact .of_waitsFor (.element at_ joining hf hnot)
            (unblocked_element at_ sound joining helements hf hnot)

end Below

/-- Where a task further below is under way, the task joins. -/
lemma joining_of_busy {document : Document} {task d : Task κ} (sound : Sound document task)
    (taken : task.phase ≠ .idle) {branch : Branch} {rest : Address}
    (hd : task.at? (branch :: rest) = some d) (busy : ¬ Resting d) : task.phase = .joining := by
  have hmem := Task.mem_descendants_of_at? hd
  have hleaf (hc : task.children = []) (he : task.elements = []) : False := by
    cases branch <;> simp [Task.at?, hc, he] at hd
  cases hp : task.phase with
  | idle => exact absurd hp taken
  | joining => rfl
  | waiting =>
      obtain ⟨-, -, he, hc⟩ := sound.here.2.waiting hp
      cases branch with
      | child id =>
          obtain ⟨child, hf, hat⟩ := Option.bind_eq_some_iff.mp hd
          have hnew := hc _ (OrderedMap.mem_of_find? hf)
          exact absurd (Or.inl (hnew d (Task.mem_descendants_of_at? hat)).phase) busy
      | element place => simp [Task.at?, he] at hd
  | working tool =>
      obtain ⟨-, hc, he⟩ := sound.here.2.working tool hp
      exact (hleaf hc he).elim
  | aborted =>
      obtain ⟨hc, he⟩ := sound.here.2.aborted hp
      exact (hleaf hc he).elim
  | returned => exact absurd (sound.here.2.returned hp d hmem).2 busy

lemma isOver_of_busy {task : Task κ} (busy : ¬ Resting task) : task.phase.isOver = false := by
  cases h : task.phase.isOver with
  | false => rfl
  | true => exact absurd (Or.inr h) busy

/-- **Every task under way below another one is unblocked.** -/
theorem unblocked_below {m : Machine σ κ} {root d : Task κ} {rest : Address} :
    ∀ {task : Task κ} {address : Address} {branch : Branch}, root.at? address = some task →
      Sound m.document task → task.phase ≠ .idle → task.at? (branch :: rest) = some d →
      ¬ Resting d → Unblocked m root (address ++ branch :: rest) := by
  induction rest with
  | nil =>
      intro task address branch at_ sound taken hd busy
      have hj := joining_of_busy sound taken hd busy
      cases branch with
      | child id =>
          obtain ⟨child, hf, hat⟩ := Option.bind_eq_some_iff.mp hd
          obtain rfl : child = d := Option.some.inj hat
          refine unblocked_child at_ sound hj (fun id child hf hp => ?_) hf (isOver_of_busy busy)
          exact unblocked_of_joining (Task.at?_child at_ hf)
            (sound.child (OrderedMap.mem_of_find? hf)) hp
      | element place =>
          obtain ⟨element, hf, hat⟩ := Option.bind_eq_some_iff.mp hd
          obtain rfl : element = d := Option.some.inj hat
          refine unblocked_element at_ sound hj (fun place element hf hp => ?_) hf
            (isOver_of_busy busy)
          exact unblocked_of_joining (Task.at?_element at_ hf)
            (sound.element (List.mem_of_getElem? hf)) hp
  | cons next rest ih =>
      intro task address branch at_ sound taken hd busy
      have hj := joining_of_busy sound taken hd busy
      cases branch with
      | child id =>
          obtain ⟨child, hf, hat⟩ := Option.bind_eq_some_iff.mp hd
          have hmem := OrderedMap.mem_of_find? hf
          have hbelow := ih (Task.at?_child at_ hf) (sound.child hmem)
            ((sound.here.2.joining hj).2.1 _ hmem) hat busy
          rwa [List.append_assoc] at hbelow
      | element place =>
          obtain ⟨element, hf, hat⟩ := Option.bind_eq_some_iff.mp hd
          have hmem := List.mem_of_getElem? hf
          have hbelow := ih (Task.at?_element at_ hf) (sound.element hmem)
            ((sound.here.2.joining hj).2.2 _ hmem) hat busy
          rwa [List.append_assoc] at hbelow

/-- Work breaks off only where a run has to reckon with it. -/
lemma Change.breaksOff {m : Machine σ κ} {c : Circumstances σ} {world : σ} {supply : Option Supply}
    {task next : Task κ} (h : m.Change c world supply task next) (aborted : next.phase = .aborted) :
    c.breaksOff := by
  have hturn (turn : Turn κ) (before : Task κ) : (takeTurn turn before).phase ≠ .aborted := by
    cases hnext : turn.next with
    | done result => simp [takeTurn_done hnext]
    | wait tool => simp [takeTurn_wait hnext]
  cases h with
  | brokenStart allowed _ _ _ => exact allowed
  | brokenWork allowed _ => exact allowed
  | turned _ => exact absurd aborted (hturn _ _)
  | stray _ _ _ => simp at aborted
  | refused _ _ => simp [(ends_refuse _ task).phase] at aborted
  | joined _ _ _ => simp at aborted
  | woken _ _ _ => simp at aborted
  | @begun params _ _ =>
      have hb := begun_begin m (task.setParameters params) world
      generalize (m.begin (task.setParameters params) world).1 = next at hb aborted
      cases hb with
      | turned _ _ _ _ => exact absurd aborted (hturn _ _)
      | _ => simp at aborted

lemma Moves.breaksOff {m : Machine σ κ} {c : Circumstances σ} {world : σ} {supply : Option Supply}
    {task next : Task κ} (moves : m.Moves c world supply task next)
    (attached : Attached supply task) (hw : task.Everywhere (Wired m.document))
    (h : task.Everywhere fun d => d.phase = .aborted → c.breaksOff) :
    next.Everywhere fun d => d.phase = .aborted → c.breaksOff := by
  refine Moves.everywhere (Q := Wired m.document) (fun hw hf => hw.attached hf)
    ?_ ?_ ?_ moves attached hw h
  · intro supply task next attached happens hw h
    refine happens.change.outline.everywhere attached hw.here.valid h happens.change.breaksOff
      (fun d reason hd => by rwa [Task.phase_abandon]) (fun d _ => by simp) fun built own hb => ?_
    exact everywhere_ready (hb.mono fun d hd => by simp [hd.2.phase]) (by simp [Machine.ready])
  · intro task child next id _ h _ _ _
    rw [Task.phase_withChildren]
    exact h.here
  · intro task element next place _ h _ _ _
    rw [Task.phase_withElements]
    exact h.here

/-- The main task has been taken up. -/
lemma phase_ne_idle_of_runs {m : Machine σ κ} {c : Circumstances σ} {root next : Task κ}
    {params : Values} (run : m.Runs c (ready root params) next) : next.phase ≠ .idle :=
  Runs.keeps (P := fun task : Task κ => task.phase ≠ .idle) (fun _ moves h => moves.phase_ne_idle h)
    run (by simp [ready])

/-- Where work has broken off in a run, the run had to reckon with it. -/
lemma breaksOff_of_runs {m : Machine σ κ} {c : Circumstances σ} {root tree : Task κ} {params : Values}
    (accepted : resolve m.document = .ok root) (run : m.Runs c (ready root params) tree) :
    tree.Everywhere fun d => d.phase = .aborted → c.breaksOff := by
  have hnew := wired_of_resolve accepted
  have hstart : (ready root params).Everywhere fun d => d.phase = .aborted → c.breaksOff :=
    everywhere_ready (hnew.mono fun d hd => by simp [hd.2.phase]) (by simp [ready])
  have hkept := Runs.keeps (P := fun task : Task κ => Sound m.document task ∧
    task.Everywhere fun d => d.phase = .aborted → c.breaksOff)
    (fun _ moves h => ⟨moves.sound (attached_none _) h.1,
      moves.breaksOff (attached_none _) (h.1.mono fun d hd => hd.1) h.2⟩)
    run ⟨sound_ready params hnew, hstart⟩
  exact hkept.2

/-- **Every task under way is unblocked**, the main task and all below it. -/
lemma unblocked_of_busy {m : Machine σ κ} {tree d : Task κ} {address : Address}
    (sound : Sound m.document tree) (taken : tree.phase ≠ .idle) (hd : tree.at? address = some d)
    (busy : ¬ Resting d) : Unblocked m tree address := by
  have hroot : tree.at? [] = some tree := rfl
  cases address with
  | cons branch rest => simpa using unblocked_below hroot sound taken hd busy
  | nil =>
      obtain rfl : tree = d := Option.some.inj hd
      cases hp : tree.phase with
      | joining => exact unblocked_of_joining hd sound hp
      | working tool => exact .of_canGo (Or.inr ⟨tree, tool, hd, hp⟩)
      | waiting => exact .of_canGo (Or.inl fun world => by simp [step?, stepAt, stepHere, hp])
      | idle => exact absurd (Or.inl hp) busy
      | returned => exact absurd (Or.inr (by rw [hp]; rfl)) busy
      | aborted => exact absurd (Or.inr (by rw [hp]; rfl)) busy

/-- Where a run need not reckon with it, no work breaks off. -/
lemma not_broken_of_runs {m : Machine σ κ} {c : Circumstances σ} {root tree : Task κ}
    {params : Values} (accepted : resolve m.document = .ok root)
    (run : m.Runs c (ready root params) tree) (calm : ¬ c.breaksOff) (address : Address) :
    ¬ Broken tree address := by
  rintro ⟨d, hd, aborted, -⟩
  exact calm (breaksOff_of_runs accepted run d (Task.mem_descendants_of_at? hd) aborted)

/-- **No deadlock.**  In every tree of a run of an accepted document in which no task is left unfinished
by work that broke off, some task can go on while the main task has not ended, and every task under way
waits, directly or through others, for one that can go on. -/
theorem some_task_goes_on {m : Machine σ κ} {c : Circumstances σ} {root tree : Task κ}
    {params : Values} (accepted : resolve m.document = .ok root)
    (run : m.Runs c (ready root params) tree) (unbroken : ∀ address, ¬ Broken tree address) :
    (tree.isDone = false → ∃ address, m.CanGo tree address) ∧
    ∀ address d, tree.at? address = some d → ¬ Resting d →
      ∃ target, Relation.ReflTransGen (WaitsFor tree) address target ∧ m.CanGo tree target := by
  have hsound : Sound m.document tree := sound_of_runs accepted run
  have htaken := phase_ne_idle_of_runs run
  have hgoes (address : Address) (d : Task κ) (hd : tree.at? address = some d)
      (busy : ¬ Resting d) :
      ∃ target, Relation.ReflTransGen (WaitsFor tree) address target ∧ m.CanGo tree target := by
    obtain ⟨target, hpath, hgo | hbroken⟩ := unblocked_of_busy hsound htaken hd busy
    · exact ⟨target, hpath, hgo⟩
    · exact absurd hbroken (unbroken target)
  refine ⟨fun undone => ?_, hgoes⟩
  -- The main task is under way: it has been taken up, and it is not over without having ended.
  have busy : ¬ Resting tree := by
    rintro (hp | hp)
    · exact htaken hp
    · cases hphase : tree.phase with
      | returned =>
          have hdone := (hsound.here.2.returned hphase).here.1
          simp [undone] at hdone
      | aborted => exact unbroken [] ⟨tree, rfl, hphase, undone⟩
      | _ => simp [hphase, Phase.isOver] at hp
  obtain ⟨target, -, hgo⟩ := hgoes [] tree rfl busy
  exact ⟨target, hgo⟩

end Machine

/-- The tree of the relay while its first step is at work and the second waits for it. -/
def relayMidway : Task Unit :=
  (relayStart :: relayMachine.walk [[], [.child "#main/first"]] relayStart ()).getLast
    (List.cons_ne_nil _ _)

theorem relay_goes_on : relayMidway.isDone = false ∧
    (∀ address, ¬ Machine.Broken relayMidway address) ∧
    ∃ address, relayMachine.CanGo relayMidway address := by
  have hrun : relayMachine.Runs ⟨fun _ => True, False⟩ relayStart relayMidway :=
    Machine.runs_walk (fun _ => trivial) [[], [.child "#main/first"]] relayStart ()
  have hopen : relayMidway.isDone = false := by cbv
  have hunbroken := Machine.not_broken_of_runs relay_accepted hrun id
  exact ⟨hopen, hunbroken, (Machine.some_task_goes_on relay_accepted hrun hunbroken).1 hopen⟩

/-! ## Broken work -/

namespace Machine

/-- While the run is not cancelled, something happens only where a task takes its step or a tool is at
work. -/
lemma Moves.exists_step_or_tool {m : Machine σ κ} {c : Circumstances σ} {world : σ} {supply : Option Supply}
    {task next : Task κ} (moves : m.Moves c world supply task next)
    (live : m.behavior.cancelled world = false)
    (fedLive : ∀ s, supply = some s → s.cancelled = false) :
    ∃ address, (m.stepAt address supply task world).isSome = true ∨
      ∃ d tool, task.at? address = some d ∧ d.phase = .working tool := by
  induction moves with
  | @here supply task next h =>
      refine ⟨[], ?_⟩
      cases h with
      | step hstep => exact Or.inl (Option.isSome_iff_exists.mpr ⟨_, hstep⟩)
      | wakeWaiting _ hs _ cancelled _ => simp [fedLive _ hs] at cancelled
      | wakeJoining _ _ _ _ cancelled _ => simp [live] at cancelled
      | @breakStart params _ _ waiting fed =>
          left
          cases supply with
          | none => simp [stepAt, stepHere, waiting]
          | some s =>
              obtain ⟨step, hstep, hfeed⟩ := fed
              simp [stepAt, stepHere, waiting, beginStep, hstep, hfeed]
      | breakWork _ working => exact Or.inr ⟨task, _, rfl, working⟩
  | @child supply task child next id at_ below ih =>
      obtain ⟨address, hstep | ⟨d, tool, hd, working⟩⟩ := ih (by rintro s ⟨⟩; exact live)
      · refine ⟨.child id :: address, Or.inl ?_⟩
        rwa [stepAt_child at_, Option.isSome_map]
      · exact ⟨.child id :: address, Or.inr ⟨d, tool, by simp [Task.at?, at_, hd], working⟩⟩
  | @element supply task element next place at_ below ih =>
      obtain ⟨address, hstep | ⟨d, tool, hd, working⟩⟩ := ih (by simp)
      · refine ⟨.element place :: address, Or.inl ?_⟩
        rwa [stepAt_element at_, Option.isSome_map]
      · exact ⟨.element place :: address, Or.inr ⟨d, tool, by simp [Task.at?, at_, hd], working⟩⟩

/-- **A tree in which nobody can go on stays as it is** until the run is cancelled. -/
theorem eq_of_stuck {m : Machine σ κ} {c : Circumstances σ} {tree next : Task κ}
    (live : ∀ world, c.admits world → m.behavior.cancelled world = false)
    (stuck : ∀ world, c.admits world → ∀ address, m.step? address tree world = none)
    (idle : ∀ address d tool, tree.at? address = some d → d.phase ≠ .working tool)
    (run : m.Runs c tree next) : next = tree := by
  refine Runs.keeps (P := (· = tree)) (fun {world task next} admitted moves heq => ?_) run rfl
  subst heq
  obtain ⟨address, hstep | ⟨d, tool, hd, working⟩⟩ :=
    moves.exists_step_or_tool (live world admitted) (by simp)
  · have hnone := stuck world admitted address
    rw [step?] at hnone
    simp [hnone] at hstep
  · exact absurd working (idle address d tool hd)

end Machine

/-- The tree of the relay when its steps are started. -/
def relayOpened : Task Unit :=
  (relayStart :: relayMachine.walk [[]] relayStart ()).getLast (List.cons_ne_nil _ _)

/-- The tree of the relay after the work on its first step has broken off. -/
def relayBroken : Task Unit := relayOpened.withChildren
  [("#main/first", (Machine.takeUp ((relayTask relayFirst).setParameters
      [("in", .bool true)])).withPhase .aborted),
    ("#main/second", (relayTask relaySecond).withPhase .waiting)]

lemma relay_breaks : relayMachine.Runs (.any Unit) relayStart relayBroken := by
  have hopened : relayMachine.Runs (.any Unit) relayStart relayOpened :=
    Machine.runs_walk (fun _ => trivial) [[]] relayStart ()
  have hfirst : relayOpened.children.find? "#main/first" =
      some ((relayTask relayFirst).withPhase .waiting) := by cbv
  have hfed : (Supply.ofTask false relayOpened).feed relayFirst =
      some (.ok [("in", .bool true)]) := by cbv
  have hbreak : relayMachine.Moves (.any Unit) () none relayOpened relayBroken :=
    .child hfirst (.here (.breakStart trivial rfl rfl ⟨relayFirst, rfl, hfed⟩))
  exact hopened.tail ⟨(), trivial, hbreak⟩

/-- Below the main task there is the broken step and the one that waits for it. -/
lemma below_relayBroken {id : String} {child : Task Unit}
    (h : relayBroken.children.find? id = some child) :
    child.children = [] ∧ child.elements = [] ∧
      (child.phase = .aborted ∨ child.phase = .waiting ∧ child.info.step = some relaySecond) := by
  have hmem := OrderedMap.mem_of_find? h
  simp only [relayBroken, Task.children_withChildren, List.mem_cons, List.not_mem_nil, or_false,
    Prod.mk.injEq] at hmem
  rcases hmem with ⟨-, rfl⟩ | ⟨-, rfl⟩
  · exact ⟨rfl, rfl, Or.inl rfl⟩
  · exact ⟨rfl, rfl, Or.inr ⟨rfl, rfl⟩⟩

/-- The first step is broken, the second waits for it, and the main task waits for both. -/
lemma relay_stuck (address : Machine.Address) :
    relayMachine.step? address relayBroken () = none := by
  have hwaits : (Supply.ofTask false relayBroken).feed relaySecond = none := by cbv
  rw [Machine.step?]
  rcases address with _ | ⟨id | place, rest⟩
  · cbv
  · cases hc : relayBroken.children.find? id with
    | none => simp [Machine.stepAt, hc]
    | some child =>
        obtain ⟨hchildren, helements, hphase⟩ := below_relayBroken hc
        have hnone : relayMachine.stepAt rest (some (.ofTask false relayBroken)) child () = none := by
          rcases rest with _ | ⟨id | place, rest⟩
          · rcases hphase with h | ⟨h, hstep⟩
            · simp [Machine.stepAt, Machine.stepHere, h]
            · simp [Machine.stepAt, Machine.stepHere, Machine.beginStep, h, hstep, hwaits]
          · simp [Machine.stepAt, hchildren]
          · simp [Machine.stepAt, helements]
        rw [Machine.stepAt_child hc]
        exact congrArg (Option.map _) hnone
  · rfl

lemma relay_idle (address : Machine.Address) (d : Task Unit) (tool : Unit)
    (h : relayBroken.at? address = some d) : d.phase ≠ .working tool := by
  have hphases : relayBroken.descendants.map Task.phase = [.joining, .aborted, .waiting] := by cbv
  have hmem := List.mem_map_of_mem (f := Task.phase) (Task.mem_descendants_of_at? h)
  intro working
  simp [hphases, working] at hmem

/-- **Broken work can block a run for ever.**  The main task has not ended and no task can go on, and the
tree stays as it is. -/
theorem relay_blocked_for_ever : relayMachine.Runs (.any Unit) relayStart relayBroken ∧
    relayBroken.isDone = false ∧ (∀ address, ¬ relayMachine.CanGo relayBroken address) ∧
    ∀ next, relayMachine.Runs (.any Unit) relayBroken next → next = relayBroken := by
  refine ⟨relay_breaks, by cbv, fun address => ?_, fun next run => ?_⟩
  · rintro (hstep | ⟨d, tool, hd, working⟩)
    · simpa [relay_stuck address] using hstep ()
    · exact relay_idle address d tool hd working
  · exact Machine.eq_of_stuck (fun _ _ => rfl) (fun _ _ => relay_stuck) relay_idle run

end WorkflowEngine.Scheduling
