import WorkflowEngine.Proofs.Completion
import WorkflowEngine.Proofs.DirectoryNames
import WorkflowEngine.Proofs.Expansion
import WorkflowEngine.Proofs.LocalNames

/-!
# Separate directories

The path of a task is put together from the local names of steps, with `-scatter-` and a number for the
runs of a scattered step.  Names are chosen by the author of a document and can be confused: two steps
can have the same local name, and a step can be named like a run of another one.  Where no workflow has
such steps, different tasks have different paths and work in different directories.

**Segments.**  What stands between two slashes of a path is the name of a step or of a run
(`segment`), and under `DistinctNames` it determines which.

**Hops.**  A task with work of its own is reached from the main task by hops, each of which leads to a
step or to a run of a scattered step, and adds one segment to the path: `exists_hop`.

**Separation.**  The path of a task determines where it stands in the tree: `address_of_path`.  So the
directories of tools are kept apart: `separate_directories`.
-/

namespace WorkflowEngine

/-! ## Texts cut in two -/

/-- A text is cut in one way only where the first part has no separator and the second part starts with
one. -/
lemma cut_unique {c : Char} {xs ys s t : List Char} (hx : c ∉ xs) (hy : c ∉ ys)
    (hs : s = [] ∨ s.head? = some c) (ht : t = [] ∨ t.head? = some c) (h : xs ++ s = ys ++ t) :
    xs = ys ∧ s = t := by
  have hfront {zs u : List Char} (hz : c ∉ zs) (hu : u = [] ∨ u.head? = some c) :
      (zs ++ u).takeWhile (· ≠ c) = zs := by
    have hkept (a : Char) (ha : a ∈ zs) : decide (a ≠ c) = true := by
      rw [decide_eq_true_eq]
      rintro rfl
      exact hz ha
    rw [List.takeWhile_append_of_pos hkept]
    rcases hu with rfl | hu
    · simp
    · cases u with
      | nil => simp at hu
      | cons a rest =>
          obtain rfl : a = c := by simpa using hu
          simp
  obtain rfl : xs = ys := by rw [← hfront hx hs, h, hfront hy ht]
  exact ⟨rfl, List.append_cancel_left h⟩

namespace Scheduling

open Document (Process Step)
open Machine (Address Branch ready Sound)

variable {σ κ : Type}

/-! ## Segments -/

lemma isDigit_of_mem_toString {n : Nat} {c : Char} (h : c ∈ (toString n).toList) :
    c.isDigit = true := by
  rw [show toString n = n.repr from rfl, Nat.toList_repr] at h
  exact Nat.isDigit_of_mem_toDigits (by decide) (by decide) h

lemma slash_notMem_pathOf {name : String} (h : '/' ∉ name.toList) (index : Option Nat) :
    '/' ∉ (pathOf name index).toList := by
  cases index with
  | none => exact h
  | some n =>
      have hdigits : '/' ∉ (toString n).toList := fun hc => by
        simpa using isDigit_of_mem_toString hc
      rw [pathOf, String.toList_append, String.toList_append, List.mem_append, List.mem_append]
      rintro ((hc | hc) | hc)
      · exact h hc
      · exact absurd hc (by decide)
      · exact hdigits hc

/-- The number of a run is read off the end of its path. -/
lemma pathOf_some_inj {s t : String} {n k : Nat} (h : pathOf s (some n) = pathOf t (some k)) :
    s = t ∧ n = k := by
  have hdigits (n : Nat) : '-' ∉ (toString n).toList.reverse := fun hc => by
    simpa using isDigit_of_mem_toString (List.mem_reverse.mp hc)
  have hlists := congrArg (fun path => path.toList.reverse) h
  simp only [pathOf, String.toList_append, List.reverse_append] at hlists
  obtain ⟨hnumber, hname⟩ := cut_unique (hdigits n) (hdigits k) (Or.inr (by simp)) (Or.inr (by simp))
    hlists
  refine ⟨?_, ?_⟩
  · exact String.toList_inj.mp (List.reverse_inj.mp (List.append_cancel_left hname))
  · exact Nat.repr_injective (String.toList_inj.mp (List.reverse_inj.mp hnumber))

/-- The segment of a path for a step, or for one of its runs. -/
def segment (step : Step) (place : Option Nat) : String := pathOf step.name (place.map (· + 1))

/-- The steps of a process cannot be confused in a path: they have different local names, and none is
named like a run of a scattered one. -/
structure DistinctNames (process : Process) : Prop where
  names : ∀ s ∈ process.steps, ∀ t ∈ process.steps, s.id ≠ t.id → s.name ≠ t.name
  runs : ∀ s ∈ process.steps, ∀ t ∈ process.steps, t.scatter = [] →
    ∀ place : Nat, s.scatter ≠ [] → t.name ≠ segment s (some place)

/-- The segment stands for a step that is not scattered, or for a run of a scattered one. -/
def IsSegment (process : Process) (step : Step) (place : Option Nat) : Prop :=
  stepWith? process step.id = some step ∧ (place = none ↔ step.scatter = [])

/-- **A segment determines the step**, and the run of a scattered step. -/
theorem segment_inj {process : Process} (names : DistinctNames process) {s t : Step}
    {p q : Option Nat} (hs : IsSegment process s p) (ht : IsSegment process t q)
    (h : segment s p = segment t q) : s.id = t.id ∧ p = q := by
  obtain ⟨hms, -⟩ := OrderedMap.mem_of_lastWith hs.1
  obtain ⟨hmt, -⟩ := OrderedMap.mem_of_lastWith ht.1
  have hid (hname : s.name = t.name) : s.id = t.id := by
    by_contra hne
    exact names.names s hms t hmt hne hname
  cases p with
  | none =>
      cases q with
      | none => exact ⟨hid h, rfl⟩
      | some k =>
          exact absurd h (names.runs t hmt s hms (hs.2.mp rfl) k fun hp => by simpa using ht.2.mpr hp)
  | some n =>
      cases q with
      | none =>
          exact absurd h.symm
            (names.runs s hms t hmt (ht.2.mp rfl) n fun hp => by simpa using hs.2.mpr hp)
      | some k =>
          obtain ⟨hname, hnumber⟩ := pathOf_some_inj h
          exact ⟨hid hname, by simpa using hnumber⟩

/-! ## Hops -/

/-- The way to a step, or to a run of it. -/
def hop (step : Step) (place : Option Nat) : Address := .child step.id :: place.toList.map .element

/-- From a task a hop leads to another one that is no scattered step as a whole. -/
structure Hop (task : Task κ) (step : Step) (place : Option Nat) (next : Task κ) : Prop where
  isSegment : IsSegment task.info.process step place
  at_ : task.at? (hop step place) = some next
  path : next.info.path = task.info.path ++ "/" ++ segment step place
  plain : next.info.isScatter = false

/-- **Every task with work of its own is reached by hops.** -/
theorem exists_hop {document : Document} {task d : Task κ}
    (expanded : task.Everywhere fun t => Wired document t ∧ Expanded document t)
    (plain : task.info.isScatter = false) {branch : Branch} {rest : Address}
    (at_ : task.at? (branch :: rest) = some d) (own : d.info.isScatter = false) :
    ∃ step place next back, branch :: rest = hop step place ++ back ∧ Hop task step place next ∧
      next.at? back = some d := by
  cases branch with
  | element place =>
      rw [Task.at?, expanded.here.2.plain plain] at at_
      simp at at_
  | child id =>
      rw [Task.at?] at at_
      obtain ⟨child, hchild, hd⟩ := Option.bind_eq_some_iff.mp at_
      obtain ⟨step, target, hstep, -, hinfo⟩ := expanded.here.2.child id child hchild
      obtain ⟨-, rfl⟩ := OrderedMap.mem_of_lastWith hstep
      have hscatter : child.info.isScatter = !step.scatter.isEmpty := by
        rw [hinfo]
        rfl
      cases hempty : step.scatter.isEmpty with
      | true =>
          refine ⟨step, none, child, rest, rfl, ⟨⟨hstep, ?_⟩, ?_, ?_, by simp [hscatter, hempty]⟩, hd⟩
          · simpa using hempty
          · simp [hop, Task.at?, hchild]
          · rw [hinfo]
            rfl
      | false =>
          have hgroup : child.info.isScatter = true := by simp [hscatter, hempty]
          have hmem := OrderedMap.mem_of_find? hchild
          cases rest with
          | nil =>
              obtain rfl : child = d := Option.some.inj hd
              simp [hgroup] at own
          | cons branch rest =>
              cases branch with
              | child key =>
                  rw [Task.at?, (expanded.child hmem).here.1.scattered hgroup] at hd
                  simp at hd
              | element place =>
                  rw [Task.at?] at hd
                  obtain ⟨element, helement, hd⟩ := Option.bind_eq_some_iff.mp hd
                  have hrun := (expanded.child hmem).here.2.element place element helement
                  refine ⟨step, some place, element, rest, rfl, ⟨⟨hstep, ?_⟩, ?_, ?_, ?_⟩, hd⟩
                  · simpa using hempty
                  · simp [hop, Task.at?, hchild, helement]
                  · rw [hrun, hinfo]
                    simp [TaskInfo.path, childInfo, segment, pathOf, String.append_assoc]
                  · rw [hrun]
                    rfl

/-- A path goes on after a slash. -/
lemma exists_tail {document : Document} {address : Address} {task d : Task κ}
    (expanded : task.Everywhere fun t => Wired document t ∧ Expanded document t)
    (plain : task.info.isScatter = false) (at_ : task.at? address = some d)
    (own : d.info.isScatter = false) :
    ∃ tail, d.info.path.toList = task.info.path.toList ++ tail ∧
      (address = [] ∧ tail = [] ∨ tail.head? = some '/') := by
  induction hn : address.length using Nat.strong_induction_on generalizing address task with
  | _ n ih =>
      cases address with
      | nil =>
          obtain rfl : task = d := Option.some.inj at_
          exact ⟨[], by simp, Or.inl ⟨rfl, rfl⟩⟩
      | cons branch rest =>
          obtain ⟨step, place, next, back, hsplit, hop_, hd⟩ := exists_hop expanded plain at_ own
          have hshort : back.length < n := by
            rw [← hn, hsplit, List.length_append, hop, List.length_cons]
            omega
          have hmem := Task.mem_descendants_of_at? hop_.at_
          obtain ⟨tail, hpath, -⟩ := ih _ hshort (expanded.everywhere next hmem) hop_.plain hd rfl
          refine ⟨'/' :: ((segment step place).toList ++ tail), ?_, Or.inr rfl⟩
          rw [hpath, hop_.path, String.toList_append, String.toList_append]
          simp

/-! ## Separation -/

/-- **The path of a task determines where it stands in the tree.** -/
theorem address_of_path {document : Document} {a b : Address} {task d e : Task κ}
    (expanded : task.Everywhere fun t => Wired document t ∧ Expanded document t)
    (names : task.Everywhere fun t => DistinctNames t.info.process)
    (plain : task.info.isScatter = false) (hd : task.at? a = some d) (he : task.at? b = some e)
    (ownd : d.info.isScatter = false) (owne : e.info.isScatter = false)
    (same : d.info.path = e.info.path) : a = b := by
  induction hn : a.length using Nat.strong_induction_on generalizing a b task with
  | _ n ih =>
      -- The task itself has the shortest path of all.
      have hshortest {address : Address} {branch : Branch} {rest : Address} {t : Task κ}
          (ht : task.at? address = some t) (hne : address = branch :: rest)
          (own : t.info.isScatter = false) : t.info.path ≠ task.info.path := by
        intro hpath
        obtain ⟨tail, htail, ⟨rfl, -⟩ | hhead⟩ := exists_tail expanded plain ht own
        · cases hne
        · rw [hpath] at htail
          rw [List.append_cancel_left (htail.symm.trans (List.append_nil _).symm)] at hhead
          cases hhead
      cases a with
      | nil =>
          obtain rfl : task = d := Option.some.inj hd
          cases b with
          | nil => rfl
          | cons branch rest => exact absurd same.symm (hshortest he rfl owne)
      | cons branch rest =>
          cases b with
          | nil =>
              obtain rfl : task = e := Option.some.inj he
              exact absurd same (hshortest hd rfl ownd)
          | cons branch' rest' =>
              obtain ⟨s, p, u, back, hsplit, hops, hdu⟩ := exists_hop expanded plain hd ownd
              obtain ⟨t, q, v, back', hsplit', hopt, hev⟩ := exists_hop expanded plain he owne
              have hmem := Task.mem_descendants_of_at? hops.at_
              have hmem' := Task.mem_descendants_of_at? hopt.at_
              obtain ⟨tail, hpath, htail⟩ :=
                exists_tail (expanded.everywhere u hmem) hops.plain hdu ownd
              obtain ⟨tail', hpath', htail'⟩ :=
                exists_tail (expanded.everywhere v hmem') hopt.plain hev owne
              have hrest : (segment s p).toList ++ tail = (segment t q).toList ++ tail' := by
                have hboth := congrArg String.toList same
                rw [hpath, hpath', hops.path, hopt.path] at hboth
                simpa using hboth
              have hslash (step : Step) (place : Option Nat) : '/' ∉ (segment step place).toList :=
                slash_notMem_pathOf (Ident.isLocal_localName step.id).noSlash _
              obtain ⟨hsegment, -⟩ := cut_unique (hslash s p) (hslash t q) (htail.imp_left And.right)
                (htail'.imp_left And.right) hrest
              obtain ⟨hid, rfl⟩ := segment_inj names.here hops.isSegment hopt.isSegment
                (String.toList_inj.mp hsegment)
              have hhop : hop s p = hop t p := by rw [hop, hop, hid]
              obtain rfl : u = v := Option.some.inj (hops.at_.symm.trans (hhop ▸ hopt.at_))
              have hshort : back.length < n := by
                rw [← hn, hsplit, List.length_append, hop, List.length_cons]
                omega
              have hback := ih _ hshort (expanded.everywhere u hmem) (names.everywhere u hmem)
                hops.plain hdu hev rfl
              rw [hsplit, hsplit', hhop, hback]

namespace Machine

/-- The main task of a run stands for the main process. -/
lemma path_of_runs {m : Machine σ κ} {c : Circumstances σ} {root tree : Task κ} {params : Values}
    (accepted : resolve m.document = .ok root) (run : m.Runs c (ready root params) tree) :
    tree.info.path = "#main" ∧ tree.info.isScatter = false := by
  obtain ⟨main, hmain, hroot⟩ := (expanded_of_resolve accepted).1
  have hinfo : tree.info = mainInfo main := by
    refine Runs.keeps (P := fun task : Task κ => task.info = mainInfo main)
      (fun _ moves h => moves.info.trans h) run ?_
    simpa [ready] using hroot
  have hid : main.id = "#main" := by
    unfold Document.mainProcess at hmain
    split at hmain
    · next process hfound =>
        obtain rfl := Except.ok.inj hmain
        have hnormal : Ident.normalize "#main" = "#main" := by decide
        rw [← hnormal]
        simpa [Document.process?] using List.find?_some hfound
    · cases hmain
  exact ⟨by rw [hinfo]; exact hid, by rw [hinfo]; rfl⟩

/-- **Separate directories.**  In every tree of a run of an accepted document, two tools that stand at
different places have different paths, and neither their working directories nor their directories for
scratch files are the same, as long as no workflow of the tree has steps that can be confused. -/
theorem separate_directories {m : Machine σ κ} {c : Circumstances σ} {root tree : Task κ}
    {params : Values} (accepted : resolve m.document = .ok root)
    (run : m.Runs c (ready root params) tree)
    (names : tree.Everywhere fun t => DistinctNames t.info.process) {a b : Address} {d e : Task κ}
    (hd : tree.at? a = some d) (he : tree.at? b = some e) (toold : d.info.isTool = true)
    (toole : e.info.isTool = true) (different : a ≠ b) :
    d.info.path ≠ e.info.path ∧ ∀ directory : RunDirectory,
      (TaskDirectory.of directory d.info.path).root ≠ (TaskDirectory.of directory e.info.path).root ∧
      (TaskDirectory.of directory d.info.path).scratch ≠
        (TaskDirectory.of directory e.info.path).scratch := by
  have hexpanded := ((sound_of_runs accepted run).mono fun t ht => ht.1).and
    (expanded_of_runs accepted run)
  obtain ⟨hroot, hplain⟩ := path_of_runs accepted run
  have hown {t : Task κ} (tool : t.info.isTool = true) : t.info.isScatter = false := by
    simp only [TaskInfo.isTool, Bool.and_eq_true, Bool.not_eq_true'] at tool
    exact tool.2
  have hpaths : d.info.path ≠ e.info.path := fun same =>
    different (address_of_path hexpanded names hplain hd he (hown toold) (hown toole) same)
  -- All paths start with the id of the main process, so no leading `#` is lost.
  have htail {address : Address} {t : Task κ} (ht : tree.at? address = some t)
      (tool : t.info.isTool = true) : ∃ tail, t.info.path.toList = "#main".toList ++ tail := by
    obtain ⟨tail, hpath, -⟩ := exists_tail hexpanded hplain ht (hown tool)
    exact ⟨tail, by rw [hpath, hroot]⟩
  obtain ⟨tail, hpath⟩ := htail hd toold
  obtain ⟨tail', hpath'⟩ := htail he toole
  have hdistinct (directory : RunDirectory)
      (shared : (TaskDirectory.of directory d.info.path).root =
          (TaskDirectory.of directory e.info.path).root ∨
        (TaskDirectory.of directory d.info.path).scratch =
          (TaskDirectory.of directory e.info.path).scratch) : False := by
    have hnames := TaskDirectory.of_injective directory shared
    rw [hpath, hpath'] at hnames
    refine hpaths (String.toList_inj.mp ?_)
    rw [hpath, hpath', List.append_cancel_left (show "main".toList ++ tail = "main".toList ++ tail' by
      simpa using hnames)]
  exact ⟨hpaths, fun directory =>
    ⟨fun h => hdistinct directory (Or.inl h), fun h => hdistinct directory (Or.inr h)⟩⟩

end Machine

/-! ## Twins -/

/-- A step that runs once for each element of an array. -/
def twinMake : Step := { relayStep "#a" "#main/given" with scatter := ["in"] }

/-- A workflow of this step and another one, whose id is left open. -/
def twinMain (id : String) : Process where
  id := "#main"
  body := .workflow [twinMake, relayStep id "#main/given"]
  inputs := relayMain.inputs
  outputs := [⟨"out", .any, none, [], ["#a/out"]⟩]
  requirements := []
  hints := []

/-- The machine of the relay for this workflow. -/
def twinMachine (id : String) : Machine Unit Unit :=
  { relayMachine with document := ⟨"v1.2", [twinMain id, relayTool]⟩ }

/-- The task of a step before the run. -/
def twinTask (id : String) (step : Step) : Task Unit :=
  .node (childInfo (mainInfo (twinMain id)) step relayTool) .fresh .idle [] []

/-- The tree of the document. -/
def twinRoot (id : String) : Task Unit :=
  .node (mainInfo (twinMain id)) .fresh .idle
    [("#a", twinTask id twinMake), (id, twinTask id (relayStep id "#main/given"))] []

/-- The tree with which a run starts. -/
def twinStart (id : String) : Task Unit := ready (twinRoot id) [("given", .array [.bool true])]

/-- The tree once the first step has been started. -/
def twinLast (id : String) : Task Unit :=
  (twinStart id :: (twinMachine id).walk [[], [.child "#a"]] (twinStart id) ()).getLast
    (List.cons_ne_nil _ _)

lemma twin_runs (id : String) : (twinMachine id).Runs (.any Unit) (twinStart id) (twinLast id) :=
  Machine.runs_walk (fun _ => trivial) _ _ ()

/-- **A step that is named like a run of another one shares its directories**, for both have one path. -/
theorem twin_directories_shared :
    resolve (twinMachine "#a-scatter-1").document = .ok (twinRoot "#a-scatter-1") ∧
    (twinMachine "#a-scatter-1").Runs (.any Unit) (twinStart "#a-scatter-1")
      (twinLast "#a-scatter-1") ∧
    ((twinLast "#a-scatter-1").at? [.child "#a", .element 0]).map
      (fun d => (d.info.isTool, d.info.path)) = some (true, "#main/a-scatter-1") ∧
    ((twinLast "#a-scatter-1").at? [.child "#a-scatter-1"]).map
      (fun d => (d.info.isTool, d.info.path)) = some (true, "#main/a-scatter-1") :=
  ⟨by cbv, twin_runs _, by cbv, by cbv⟩

lemma twin_accepted : resolve (twinMachine "#b").document = .ok (twinRoot "#b") := by
  cbv

/-- With another name the two steps cannot be confused. -/
lemma twin_distinctNames : DistinctNames (twinMain "#b") where
  names := by
    intro s hs t ht hne
    simp only [twinMain, Process.steps, List.mem_cons, List.not_mem_nil, or_false] at hs ht
    rcases hs with rfl | rfl <;> rcases ht with rfl | rfl
    · exact absurd rfl hne
    · decide
    · decide
    · exact absurd rfl hne
  runs := by
    intro s hs t ht plain place scatter h
    simp only [twinMain, Process.steps, List.mem_cons, List.not_mem_nil, or_false] at hs ht
    rcases ht with rfl | rfl
    · cases plain
    · rcases hs with rfl | rfl
      · have hfirst : ("b".toList).head? = (segment twinMake (some place)).toList.head? :=
          congrArg (fun name : String => name.toList.head?) h
        have hname : twinMake.name = "a" := by decide
        rw [segment, hname] at hfirst
        simp [pathOf] at hfirst
      · exact absurd rfl scatter

/-- The run of the scattered step and the other step have directories of their own. -/
theorem twin_directories_separate : ∃ d e : Task Unit,
    (twinLast "#b").at? [.child "#a", .element 0] = some d ∧
    (twinLast "#b").at? [.child "#b"] = some e ∧ d.info.path ≠ e.info.path ∧
    ∀ directory : RunDirectory,
      (TaskDirectory.of directory d.info.path).root ≠ (TaskDirectory.of directory e.info.path).root ∧
      (TaskDirectory.of directory d.info.path).scratch ≠
        (TaskDirectory.of directory e.info.path).scratch := by
  have htool : ((twinLast "#b").at? [.child "#a", .element 0]).map (fun d => d.info.isTool) =
      some true := by cbv
  have htool' : ((twinLast "#b").at? [.child "#b"]).map (fun d => d.info.isTool) = some true := by cbv
  obtain ⟨d, hd, toold⟩ := Option.map_eq_some_iff.mp htool
  obtain ⟨e, he, toole⟩ := Option.map_eq_some_iff.mp htool'
  have hprocesses : (twinLast "#b").descendants.map (fun t => t.info.process) =
      [twinMain "#b", relayTool, relayTool, relayTool] := by cbv
  have names : (twinLast "#b").Everywhere fun t => DistinctNames t.info.process := by
    intro t ht
    have hmem : t.info.process ∈ [twinMain "#b", relayTool, relayTool, relayTool] :=
      hprocesses ▸ List.mem_map_of_mem ht
    have hleaf : DistinctNames relayTool :=
      ⟨fun s hs => absurd hs List.not_mem_nil, fun s hs => absurd hs List.not_mem_nil⟩
    simp only [List.mem_cons, List.not_mem_nil, or_false] at hmem
    rcases hmem with h | h | h | h <;> rw [h]
    · exact twin_distinctNames
    all_goals exact hleaf
  exact ⟨d, e, hd, he, Machine.separate_directories twin_accepted (twin_runs "#b") names hd he toold
    toole (by decide)⟩

end Scheduling

end WorkflowEngine
