import WorkflowEngine.Proofs.Likeness
import WorkflowEngine.Proofs.Supplies

/-!
# Plans

What the work on a task leads to is settled once the task is fed, apart from the order of the work.

**Tools.**  `Answers` says that what a tool answers depends on its task and its parameters alone.

**Plans.**  `Plan` is what the work on a task leads to once it is fed, and `Follows` is how far a task
can have come with a plan.

**Keeping to the plan.**  Every move of a run that is not cancelled does: `Moves.follows`.
-/

namespace WorkflowEngine.Scheduling

variable {σ κ : Type}

namespace Machine

/-! ## Tools -/

/-- The turns of a tool that was started with some parameters, up to one after which it waits and shows
some parameters. -/
inductive Serving (m : Machine σ κ) (c : Circumstances σ) (info : TaskInfo) (params : Values) :
    κ → Values → Prop
  | start {world : σ} {tool : κ} (admitted : c.admits world)
      (waits : (m.behavior.start info params world).1.next = .wait tool) :
      Serving m c info params tool (m.behavior.start info params world).1.parameters
  | resume {world : σ} {tool next : κ} {shown : Values} (before : Serving m c info params tool shown)
      (admitted : c.admits world)
      (waits : (m.behavior.resume info shown tool world).1.next = .wait next) :
      Serving m c info params next (m.behavior.resume info shown tool world).1.parameters

/-- What a tool answers, and which parameters it shows then, depends on its task and on the parameters
that it is started with, and not on the worlds that it works in. -/
structure Answers (m : Machine σ κ) (c : Circumstances σ)
    (answer : TaskInfo → Values → Values × Outcome Values) : Prop where
  start : ∀ {info params world result}, c.admits world →
    (m.behavior.start info params world).1.next = .done result →
      ((m.behavior.start info params world).1.parameters, result) = answer info params
  resume : ∀ {info params tool shown world result}, m.Serving c info params tool shown →
    c.admits world → (m.behavior.resume info shown tool world).1.next = .done result →
      ((m.behavior.resume info shown tool world).1.parameters, result) = answer info params

/-! ## Plans -/

/-- What the work on a task leads to. -/
inductive Plan (κ : Type) where
  /-- The task is refused, for its sources failed. -/
  | refuse (failure : Failure)
  /-- The task fails at its start. -/
  | fail (failure : Failure) (params : Values)
  /-- The elements of a scattered step are run. -/
  | scatter (elements : List (Task κ)) (params : Values)
  /-- The steps of a workflow are run. -/
  | workflow (params : Values)
  /-- A tool is run. -/
  | tool (params : Values)

/-- The plan for a task that is fed some parameters, or a failure. -/
def planFor (m : Machine σ κ) (task : Task κ) : Outcome Values → Plan κ
  | .error failure => .refuse failure
  | .ok params =>
    if task.info.isScatter then
      match m.elementsOf task.info params with
      | .error failure => .fail failure params
      | .ok elements => .scatter elements params
    else
      match m.ownParameters (task.setParameters params) with
      | .error failure => .fail failure params
      | .ok own =>
        if task.info.process.isWorkflow then
          match Binding.fillDefaults task.info.process own with
          | .error failure => .fail failure own
          | .ok values => .workflow values
        else .tool own

/-- The plan for a task that waits, once it can be fed. -/
def plan? (m : Machine σ κ) (supply : Option Supply) (task : Task κ) : Option (Plan κ) :=
  match supply with
  | none => some (m.planFor task (.ok task.state.parameters))
  | some s => task.info.step.bind fun step => (s.feed step).run.map (m.planFor task)

/-- A task with tasks below it awaits them as it has started, or has ended with what they come to. -/
def Joins (start task : Task κ) : Prop :=
  (task.phase = .joining ∧ task.facts = start.facts) ∨
    (task.phase = .returned ∧ BelowReturned task ∧ ∃ result, joinResult false task = some result ∧
      task.facts = (start.finish result).facts)

/-- How far a task that was let wait can have come with a plan. -/
inductive Follows (m : Machine σ κ) (c : Circumstances σ)
    (answer : TaskInfo → Values → Values × Outcome Values) : Option (Plan κ) → Task κ → Task κ → Prop
  | untouched {plan : Option (Plan κ)} {task : Task κ} (waiting : task.phase = .waiting) :
      Follows m c answer plan task task
  | refused {failure : Failure} {start : Task κ} :
      Follows m c answer (some (.refuse failure)) start (refuse failure start)
  | failed {failure : Failure} {params : Values} {start : Task κ} :
      Follows m c answer (some (.fail failure params)) start
        (conclude (.error failure) (takeUp (start.setParameters params)))
  | scattered {elements : List (Task κ)} {params : Values} {start task : Task κ}
      (children : task.children = []) (length : task.elements.length = elements.length)
      (joins : Joins (takeUp (start.setParameters params)) task)
      (below : ∀ (place : Nat) first element, elements[place]? = some first →
        task.elements[place]? = some element →
          Follows m c answer (m.plan? none first) first element) :
      Follows m c answer (some (.scatter elements params)) start task
  | opened {params : Values} {start task : Task κ} (wired : Wired m.document start)
      (plain : start.info.isScatter = false) (keys : task.children.keys = start.children.keys)
      (elements : task.elements = []) (joins : Joins (takeUp (start.setParameters params)) task)
      (below : ∀ id first child, start.children.find? id = some first →
        task.children.find? id = some child →
          Follows m c answer (m.plan? (some (.ofTask false task)) (first.withPhase .waiting))
            (first.withPhase .waiting) child) :
      Follows m c answer (some (.workflow params)) start task
  | working {params : Values} {tool : κ} {start task : Task κ} (phase : task.phase = .working tool)
      (serving : m.Serving c start.info params tool task.state.parameters)
      (facts : task.facts = (takeUp (start.setParameters task.state.parameters)).facts) :
      Follows m c answer (some (.tool params)) start task
  | answered {params : Values} {start task : Task κ} (phase : task.phase = .returned)
      (children : task.children = []) (elements : task.elements = [])
      (facts : task.facts = ((takeUp (start.setParameters (answer start.info params).1)).finish
        (answer start.info params).2).facts) :
      Follows m c answer (some (.tool params)) start task

variable {m : Machine σ κ} {c : Circumstances σ}
  {answer : TaskInfo → Values → Values × Outcome Values} {plan : Option (Plan κ)}
  {start task : Task κ}

lemma Joins.phase (h : Joins start task) : task.phase = .joining ∨ task.phase = .returned := by
  rcases h with ⟨h, -⟩ | ⟨h, -⟩
  · exact Or.inl h
  · exact Or.inr h

lemma Joins.info (h : Joins start task) : task.info = start.info := by
  rcases h with ⟨-, h⟩ | ⟨-, -, result, -, h⟩
  · exact congrArg Task.Facts.info h
  · have hi : task.info = (start.finish result).info := congrArg Task.Facts.info h
    rwa [Task.finish, Task.info_mapState] at hi

lemma Joins.parameters (h : Joins start task) :
    task.state.parameters = start.state.parameters := by
  rcases h with ⟨-, h⟩ | ⟨-, -, result, -, h⟩
  · exact congrArg Task.Facts.parameters h
  · have hp : task.state.parameters = (start.finish result).state.parameters :=
      congrArg Task.Facts.parameters h
    rwa [Task.finish, Task.state_mapState, TaskState.parameters_finish] at hp

lemma Joins.facts (h : Joins start task) (joining : task.phase = .joining) :
    task.facts = start.facts := by
  rcases h with ⟨-, h⟩ | ⟨h, -⟩
  · exact h
  · simp [joining] at h

lemma Joins.below (h : Joins start task) (returned : task.phase = .returned) : BelowReturned task := by
  rcases h with ⟨h, -⟩ | ⟨-, h, -⟩
  · simp [returned] at h
  · exact h

/-- What is over has returned: nothing breaks off. -/
lemma Follows.returned (h : m.Follows c answer plan start task) (ended : task.phase.isOver = true) :
    task.phase = .returned := by
  cases h with
  | untouched waiting => simp [waiting, Phase.isOver] at ended
  | refused => exact (ends_refuse _ start).phase
  | failed => exact phase_conclude _ _
  | scattered _ _ joins _ =>
      refine joins.phase.resolve_left fun hj => ?_
      simp [hj, Phase.isOver] at ended
  | opened _ _ _ _ joins _ =>
      refine joins.phase.resolve_left fun hj => ?_
      simp [hj, Phase.isOver] at ended
  | working phase _ _ => simp [phase, Phase.isOver] at ended
  | answered phase _ _ _ => exact phase

/-- A task that still waits is as it was. -/
lemma Follows.eq_of_waiting (h : m.Follows c answer plan start task)
    (waiting : task.phase = .waiting) : task = start := by
  cases h with
  | untouched _ => rfl
  | refused => simp [(ends_refuse _ start).phase] at waiting
  | failed => simp at waiting
  | scattered _ _ joins _ => rcases joins.phase with h | h <;> simp [h] at waiting
  | opened _ _ _ _ joins _ => rcases joins.phase with h | h <;> simp [h] at waiting
  | working phase _ _ => simp [phase] at waiting
  | answered phase _ _ _ => simp [phase] at waiting

/-- A task that joins does so because its plan is to run elements or steps, and these follow theirs. -/
lemma Follows.of_joining (h : m.Follows c answer plan start task)
    (joining : task.phase = .joining) :
    (∃ elements params, plan = some (.scatter elements params) ∧ task.children = [] ∧
      task.elements.length = elements.length ∧ Joins (takeUp (start.setParameters params)) task ∧
      ∀ (place : Nat) first element, elements[place]? = some first →
        task.elements[place]? = some element → m.Follows c answer (m.plan? none first) first element) ∨
    ∃ params, plan = some (.workflow params) ∧ Wired m.document start ∧
      start.info.isScatter = false ∧ task.children.keys = start.children.keys ∧ task.elements = [] ∧
      Joins (takeUp (start.setParameters params)) task ∧
      ∀ id first child, start.children.find? id = some first → task.children.find? id = some child →
        m.Follows c answer (m.plan? (some (.ofTask false task)) (first.withPhase .waiting))
          (first.withPhase .waiting) child := by
  cases h with
  | untouched waiting => simp [waiting] at joining
  | refused => simp [(ends_refuse _ start).phase] at joining
  | failed => simp at joining
  | working phase _ _ => simp [phase] at joining
  | answered phase _ _ _ => simp [phase] at joining
  | scattered children length joins below =>
      exact Or.inl ⟨_, _, rfl, children, length, joins, below⟩
  | opened wired plain keys elements joins below =>
      exact Or.inr ⟨_, rfl, wired, plain, keys, elements, joins, below⟩

/-- A task that works does so because its plan is to run a tool. -/
lemma Follows.of_working {tool : κ} (h : m.Follows c answer plan start task)
    (working : task.phase = .working tool) :
    ∃ params, plan = some (.tool params) ∧
      m.Serving c start.info params tool task.state.parameters ∧
      task.facts = (takeUp (start.setParameters task.state.parameters)).facts := by
  cases h with
  | untouched waiting => simp [waiting] at working
  | refused => simp [(ends_refuse _ start).phase] at working
  | failed => simp at working
  | scattered _ _ joins _ => rcases joins.phase with h | h <;> simp [h] at working
  | opened _ _ _ _ joins _ => rcases joins.phase with h | h <;> simp [h] at working
  | answered phase _ _ _ => simp [phase] at working
  | working phase serving facts =>
      obtain rfl := Phase.working.inj (phase.symm.trans working)
      exact ⟨_, rfl, serving, facts⟩

/-- A plan that could not be made before can be any plan later. -/
lemma Follows.later {later : Option (Plan κ)} (h : m.Follows c answer plan start task)
    (keep : ∀ p, plan = some p → later = some p) : m.Follows c answer later start task := by
  cases plan with
  | some p => rwa [keep p rfl]
  | none =>
      cases h with
      | untouched waiting => exact .untouched waiting

/-- A plan stays when the values of the sources stay. -/
lemma plan?_later {s t : Supply} (h : ∀ step, task.info.step = some step →
      ∀ source ∈ sourcesOf step, (s.value source).Later (t.value source))
    {p : Plan κ} (hp : m.plan? (some s) task = some p) : m.plan? (some t) task = some p := by
  obtain ⟨step, hstep, hp⟩ := Option.bind_eq_some_iff.mp hp
  obtain ⟨fed, hfed, rfl⟩ := Option.map_eq_some_iff.mp hp
  have hlater : (t.feed step).run = some fed := Supply.feed_later (h step hstep) fed hfed
  rw [plan?, hstep, Option.bind_some, hlater, Option.map_some]

/-! ## Keeping to the plan -/

lemma plan?_of_feeds {supply : Option Supply} {params : Values} (fed : Feeds supply task params) :
    m.plan? supply task = some (m.planFor task (.ok params)) := by
  cases supply with
  | none =>
      obtain rfl : params = task.state.parameters := fed
      rfl
  | some s =>
      obtain ⟨step, hstep, hfeed⟩ := fed
      have hrun : (s.feed step).run = some (.ok params) := hfeed
      rw [plan?, hstep, Option.bind_some, hrun, Option.map_some]

lemma takeUp_setParameters (task : Task κ) (params : Values) :
    (takeUp task).setParameters params = takeUp (task.setParameters params) := by
  obtain ⟨info, ⟨status, own, outputs, events⟩, phase, children, elements⟩ := task
  cases status <;> rfl

lemma facts_afterTurn (turn : Turn κ) (task : Task κ) :
    (afterTurn turn task).facts = { task.facts with parameters := turn.parameters } := by
  rw [afterTurn, Task.facts_withEvents, Task.facts_setParameters]

lemma facts_takeUp_setParameters (task : Task κ) (p q : Values) :
    { (takeUp (task.setParameters p)).facts with parameters := q } =
      (takeUp (task.setParameters q)).facts := by
  rw [← Task.facts_setParameters, takeUp_setParameters, setParameters_setParameters]

/-- **A turn of a tool keeps to its plan**, whether the tool waits after it or answers. -/
lemma follows_takeTurn {params shown : Values} {before : Task κ} {turn : Turn κ}
    (facts : before.facts = (takeUp (start.setParameters shown)).facts)
    (children : before.children = []) (elements : before.elements = [])
    (waits : ∀ tool, turn.next = .wait tool → m.Serving c start.info params tool turn.parameters)
    (answers : ∀ result, turn.next = .done result →
      (turn.parameters, result) = answer start.info params) :
    m.Follows c answer (some (.tool params)) start (takeTurn turn before) := by
  have hafter : (afterTurn turn before).facts =
      (takeUp (start.setParameters turn.parameters)).facts := by
    rw [facts_afterTurn, facts, facts_takeUp_setParameters]
  cases hnext : turn.next with
  | wait tool =>
      rw [takeTurn_wait hnext]
      have hparams : ((afterTurn turn before).withPhase (.working tool)).state.parameters =
          turn.parameters := by
        rw [Task.state_withPhase]
        exact congrArg Task.Facts.parameters (facts_afterTurn turn before)
      refine .working (by simp) (hparams ▸ waits tool hnext) ?_
      rw [hparams, ← hafter, Task.facts_withPhase]
  | done result =>
      rw [takeTurn_done hnext]
      have hanswer := answers result hnext
      refine .answered (by simp) (by simp [children_conclude, children])
        (by simp [elements_conclude, elements]) ?_
      rw [facts_conclude, ← hanswer]
      exact Task.facts_finish_congr hafter result

/-- A task whose tasks below have returned ends with what they come to, and leaves them as they are. -/
lemma Joins.concluded {document : Document} {result : Outcome Values} (h : Joins start task)
    (joining : task.phase = .joining) (sound : Sound document task) (below : BelowReturned task)
    (joined : joinResult false task = some result) :
    (conclude result (settleBelow task)).children = task.children ∧
      (conclude result (settleBelow task)).elements = task.elements ∧
      Joins start (conclude result (settleBelow task)) := by
  obtain ⟨hsc, hse, hsf⟩ := settleBelow_of_done below
  -- Everything below has ended, so giving it up changes nothing.
  have hchildren : (conclude result (settleBelow task)).children = task.children := by
    rw [children_conclude, hsc]
    refine (List.map_congr_left fun p hp => ?_).trans (List.map_id _)
    have hdone := ((sound.child hp).here.2.returned (below.1 p hp).1).mono fun d hd => hd.1
    rw [Task.abandon_eq_self hdone]
    rfl
  have helements : (conclude result (settleBelow task)).elements = task.elements := by
    rw [elements_conclude, hse]
    refine (List.map_congr_left fun e he => ?_).trans (List.map_id _)
    have hdone := ((sound.element he).here.2.returned (below.2 e he).1).mono fun d hd => hd.1
    rw [Task.abandon_eq_self hdone]
    rfl
  have hfacts : (conclude result (settleBelow task)).facts = (task.finish result).facts :=
    (facts_conclude _ _).trans (Task.facts_finish_congr hsf result)
  have hinfo : (conclude result (settleBelow task)).info = task.info :=
    (info_conclude _ _).trans (congrArg Task.Facts.info hsf)
  have hparams : (conclude result (settleBelow task)).state.parameters = task.state.parameters := by
    have hp : (conclude result (settleBelow task)).state.parameters =
        (task.finish result).state.parameters := congrArg Task.Facts.parameters hfacts
    rwa [Task.finish, Task.state_mapState, TaskState.parameters_finish] at hp
  have hbelow : BelowReturned (conclude result (settleBelow task)) := by
    rw [BelowReturned, hchildren, helements]
    exact below
  refine ⟨hchildren, helements, Or.inr ⟨phase_conclude _ _, hbelow, result, ?_, ?_⟩⟩
  · rw [← joined]
    exact joinResult_congr hinfo hparams (hchildren ▸ sound.here.1.nodup)
      (.of_eq hchildren helements) hbelow below
  · exact hfacts.trans (Task.facts_finish_congr (h.facts joining) result)

/-- What is over below a task that follows its plan has returned. -/
lemma belowReturned {document : Document} (sound : Sound document task) (rested : BelowOver task)
    (children : ∀ id child, task.children.find? id = some child → child.phase.isOver = true →
      child.phase = .returned)
    (elements : ∀ (place : Nat) element, task.elements[place]? = some element →
      element.phase.isOver = true → element.phase = .returned) : BelowReturned task := by
  refine ⟨fun p hp => ?_, fun e he => ?_⟩
  · have hfind := (OrderedMap.find?_eq_some_iff sound.here.1.nodup).mpr hp
    have hreturned := children p.1 p.2 hfind (rested.1 p hp)
    exact ⟨hreturned, ((sound.child hp).here.2.returned hreturned).here.1⟩
  · obtain ⟨place, hplace⟩ := List.getElem?_of_mem he
    have hreturned := elements place e hplace (rested.2 e he)
    exact ⟨hreturned, ((sound.element he).here.2.returned hreturned).here.1⟩

/-- A step keeps to its plan while others go on: what it can be fed stays. -/
lemma Follows.carry {document : Document} {next first child : Task κ} (wired : Wired document task)
    (plain : task.info.isScatter = false) (continues : Continues task next)
    (params : next.state.parameters = task.state.parameters)
    (h : m.Follows c answer (m.plan? (some (.ofTask false task)) first) first child) :
    m.Follows c answer (m.plan? (some (.ofTask false next)) first) first child := by
  obtain ⟨here, hhere, hinfo, -⟩ := continues [] task rfl
  obtain rfl : next = here := Option.some.inj hhere
  refine h.later fun p hp => plan?_later (fun step hstep source hs => ?_) hp
  refine value_later hinfo params fun producer hproducer => ?_
  obtain ⟨old, hold⟩ := Option.isSome_iff_exists.mp (wired.isSome_producer plain hproducer)
  obtain ⟨new, hnew, -, hkept⟩ := continues [.child producer] old (by simp [Task.at?, hold])
  refine ⟨old, new, hold, ?_, hkept⟩
  rw [Task.at?] at hnew
  obtain ⟨found, hfound, hat⟩ := Option.bind_eq_some_iff.mp hnew
  exact Option.some.inj hat ▸ hfound

/-- **A join keeps to the plan.** -/
lemma Follows.joined {result : Outcome Values} (h : m.Follows c answer plan start task)
    (sound : Sound m.document task) (joining : task.phase = .joining) (rested : BelowOver task)
    (joined : joinResult false task = some result) :
    m.Follows c answer plan start (conclude result (settleBelow task)) := by
  obtain ⟨planned, params, rfl, children, length, joins, below⟩ |
    ⟨params, rfl, wired, plain, keys, elements, joins, below⟩ := h.of_joining joining
  · have hreturned : BelowReturned task := by
      refine belowReturned sound rested (by simp [children]) fun place e he ended => ?_
      have hlt := length ▸ (List.getElem?_eq_some_iff.mp he).1
      exact (below place _ e (List.getElem?_eq_getElem hlt) he).returned ended
    obtain ⟨hc, he, hjoins⟩ := joins.concluded joining sound hreturned joined
    exact .scattered (hc.trans children) (by rw [he, length]) hjoins (he ▸ below)
  · have hreturned : BelowReturned task := by
      refine belowReturned sound rested (fun id child hf ended => ?_) (by simp [elements])
      obtain ⟨first, hfirst⟩ := OrderedMap.exists_find?_of_keys keys hf
      exact (below id first child hfirst hf).returned ended
    obtain ⟨hc, he, hjoins⟩ := joins.concluded joining sound hreturned joined
    have hsupply : Supply.ofTask false (conclude result (settleBelow task)) =
        Supply.ofTask false task := by
      simp only [Supply.ofTask, hc, hjoins.info, joins.info, hjoins.parameters, joins.parameters]
    exact .opened wired plain (by rw [hc, keys]) (he.trans elements) hjoins (hc ▸ hsupply ▸ below)

/-- A workflow keeps to its plan when one of its steps does. -/
lemma Follows.child {old next : Task κ} {id : String} (h : m.Follows c answer plan start task)
    (wired : Wired m.document task) (joining : task.phase = .joining)
    (at_ : task.children.find? id = some old)
    (continues : Continues task (task.withChildren (replaceChild task.children id next)))
    (one : ∀ first : Task κ,
      m.Follows c answer (m.plan? (some (.ofTask false task)) first) first old →
      m.Follows c answer (m.plan? (some (.ofTask false task)) first) first next) :
    m.Follows c answer plan start (task.withChildren (replaceChild task.children id next)) := by
  obtain ⟨planned, params, rfl, children, length, joins, below⟩ |
    ⟨params, rfl, wired', plain, keys, elements, joins, below⟩ := h.of_joining joining
  · simp [children] at at_
  · refine .opened wired' plain (by simp [keys]) (by simp [elements]) (Or.inl ⟨by simpa using joining, ?_⟩)
      fun key first child hf hc => .carry wired (wired.plain_of_child at_) continues (by simp) ?_
    · exact (Task.facts_withChildren _ _).trans (joins.facts joining)
    · rw [Task.children_withChildren, find?_replaceChild, Option.map_eq_some_iff] at hc
      obtain ⟨before, hbefore, hc⟩ := hc
      have hfollows := below key first before hf hbefore
      split_ifs at hc with hkey
      · subst hkey hc
        obtain rfl : old = before := Option.some.inj (at_.symm.trans hbefore)
        exact one _ hfollows
      · exact hc ▸ hfollows

/-- A scattered step keeps to its plan when one of its elements does. -/
lemma Follows.element {old next : Task κ} {place : Nat} (h : m.Follows c answer plan start task)
    (joining : task.phase = .joining) (at_ : task.elements[place]? = some old)
    (one : ∀ first : Task κ, m.Follows c answer (m.plan? none first) first old →
      m.Follows c answer (m.plan? none first) first next) :
    m.Follows c answer plan start (task.withElements (task.elements.set place next)) := by
  obtain ⟨planned, params, rfl, children, length, joins, below⟩ |
    ⟨params, rfl, wired, plain, keys, elements, joins, below⟩ := h.of_joining joining
  · refine .scattered (by simp [children]) (by simp [length]) (Or.inl ⟨by simpa using joining, ?_⟩)
      fun key first element hf he => ?_
    · exact (Task.facts_withElements _ _).trans (joins.facts joining)
    · rw [Task.elements_withElements] at he
      by_cases hkey : place = key
      · subst hkey
        rw [List.getElem?_set_self (List.getElem?_eq_some_iff.mp at_).1] at he
        exact Option.some.inj he ▸ one first (below place first old hf at_)
      · rw [List.getElem?_set_ne hkey] at he
        exact below key first element hf he
  · simp [elements] at at_

section Live

variable {world : σ} (answers : m.Answers c answer) (admitted : c.admits world)
  (live : m.behavior.cancelled world = false)

include answers admitted live

/-- **The start of the work on a task keeps to its plan.** -/
lemma follows_begun {params : Values} {next : Task κ} (sound : Sound m.document start)
    (waiting : start.phase = .waiting) (begun : m.Begun world (start.setParameters params) next) :
    m.Follows c answer (some (m.planFor start (.ok params))) start next := by
  obtain ⟨-, -, hnone, -⟩ := sound.here.2.waiting waiting
  cases begun with
  | cancelled h => simp [live] at h
  | @unscattered failure _ scatter planned =>
      rw [Task.info_setParameters] at scatter planned
      rw [Task.parameters_setParameters] at planned
      have hplan : m.planFor start (.ok params) = .fail failure params := by
        simp [planFor, scatter, planned]
      rw [hplan]
      exact .failed
  | @unevaluated failure _ plain own =>
      rw [Task.info_setParameters] at plain
      have hplan : m.planFor start (.ok params) = .fail failure params := by
        simp [planFor, plain, own]
      rw [hplan]
      exact .failed
  | @incomplete own failure _ plain evaluated workflow filled =>
      rw [Task.info_setParameters] at plain workflow filled
      have hplan : m.planFor start (.ok params) = .fail failure own := by
        simp [planFor, plain, evaluated, workflow, filled]
      rw [hplan, takeUp_setParameters, setParameters_setParameters]
      exact .failed
  | @scattered elements _ scatter planned =>
      rw [Task.info_setParameters] at scatter planned
      rw [Task.parameters_setParameters] at planned
      have hplan : m.planFor start (.ok params) = .scatter elements params := by
        simp [planFor, scatter, planned]
      rw [hplan]
      refine .scattered (by simp [sound.here.1.scattered scatter]) (by simp) (Or.inl ⟨by simp, ?_⟩) ?_
      · rw [Task.record_eq_withEvents, Task.facts_withPhase, Task.facts_withEvents,
          Task.facts_withElements]
      · intro place first element hf he
        obtain rfl : first = element := by simpa [hf] using he
        obtain ⟨index, built, own, -, rfl⟩ := mem_elementsOf planned (List.mem_of_getElem? hf)
        exact .untouched (by simp [ready])
  | @opened own values _ plain evaluated workflow filled =>
      rw [Task.info_setParameters] at plain workflow filled
      have hplan : m.planFor start (.ok params) = .workflow values := by
        simp [planFor, plain, evaluated, workflow, filled]
      rw [hplan, takeUp_setParameters, setParameters_setParameters]
      refine .opened sound.here.1 plain (by simp) (by simp [hnone])
        (Or.inl ⟨by simp, by rw [Task.facts_withPhase, Task.facts_withChildren]⟩) ?_
      intro id first child hf hc
      simp only [Task.children_withPhase, Task.children_withChildren, Task.children_setParameters,
        OrderedMap.find?_mapValues, hf, Option.map_some, Option.some.injEq] at hc
      subst hc
      exact .untouched (by simp)
  | @turned own _ plain evaluated tool =>
      rw [Task.info_setParameters] at plain tool
      have hplan : m.planFor start (.ok params) = .tool own := by
        simp [planFor, plain, evaluated, tool]
      rw [hplan, takeUp_setParameters, setParameters_setParameters, Task.info_setParameters]
      have htool : start.info.isTool = true := by simp [TaskInfo.isTool, plain, tool]
      exact follows_takeTurn rfl (by simp [sound.here.1.children_of_isTool htool]) (by simp [hnone])
        (fun _ hw => .start admitted hw) fun _ hd => answers.start admitted hd

/-- **What happens to a task keeps to its plan.** -/
theorem Change.follows (calm : ¬ c.breaksOff) {supply : Option Supply} {next : Task κ}
    (uncancelled : ∀ s, supply = some s → s.cancelled = false) (attached : Attached supply task)
    (sound : Sound m.document task) (change : m.Change c world supply task next)
    (h : m.Follows c answer (m.plan? supply start) start task) :
    m.Follows c answer (m.plan? supply start) start next := by
  cases change with
  | stray _ hs none => exact absurd none (attached.isStep (by simp [hs]))
  | woken _ _ cancelled => simp [live] at cancelled
  | brokenStart allowed _ _ _ => exact absurd allowed calm
  | brokenWork allowed _ => exact absurd allowed calm
  | @refused failure waiting refuses =>
      obtain rfl := h.eq_of_waiting waiting
      obtain ⟨s, step, rfl, hstep, hfeed | ⟨-, hcancelled, -⟩⟩ := refuses
      · have hrun : (s.feed step).run = some (.error failure) := hfeed
        have hplan : m.plan? (some s) task = some (.refuse failure) := by
          rw [plan?, hstep, Option.bind_some, hrun]
          rfl
        rw [hplan]
        exact .refused
      · simp [uncancelled s rfl] at hcancelled
  | @begun params waiting fed =>
      obtain rfl := h.eq_of_waiting waiting
      rw [plan?_of_feeds fed]
      exact follows_begun answers admitted live sound waiting (begun_begin m _ world)
  | @turned tool working =>
      obtain ⟨-, hchildren, helements⟩ := sound.here.2.working tool working
      obtain ⟨params, hplan, serving, facts⟩ := h.of_working working
      have hinfo : task.info = start.info :=
        (congrArg Task.Facts.info facts).trans (by simp [Task.facts])
      rw [hplan, hinfo]
      exact follows_takeTurn facts hchildren helements
        (fun _ hw => .resume serving admitted hw) fun _ hd => answers.resume serving admitted hd
  | joined joining rested joined => exact h.joined sound joining rested (live ▸ joined)

/-- **Every move keeps to the plan.** -/
theorem Moves.follows (calm : ¬ c.breaksOff) {supply : Option Supply} {next : Task κ}
    (moves : m.Moves c world supply task next)
    (uncancelled : ∀ s, supply = some s → s.cancelled = false) (attached : Attached supply task)
    (sound : Sound m.document task) (h : m.Follows c answer (m.plan? supply start) start task) :
    m.Follows c answer (m.plan? supply start) start next := by
  induction moves generalizing start with
  | here happens =>
      exact happens.change.follows answers admitted live calm uncancelled attached sound h
  | @child supply task old next id at_ below ih =>
      have continues : Continues task (task.withChildren (replaceChild task.children id next)) :=
        (Moves.child at_ below).continues attached sound
      rw [live] at ih
      refine h.child sound.here.1 (sound.here.2.joining_of_moves.1 at_ below) at_ continues
        fun first hfirst => ih (fun s hs => ?_) (sound.here.1.attached at_ false)
          (sound.child (OrderedMap.mem_of_find? at_)) hfirst
      exact Option.some.inj hs ▸ rfl
  | @element supply task old next place at_ below ih =>
      exact h.element (sound.here.2.joining_of_moves.2 at_ below) at_ fun first hfirst =>
        ih (by simp) (attached_none old) (sound.element (List.mem_of_getElem? at_)) hfirst

end Live

end Machine

end WorkflowEngine.Scheduling
