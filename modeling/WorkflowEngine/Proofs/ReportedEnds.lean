import Mathlib
import WorkflowEngine.Proofs.Maps
import WorkflowEngine.Proofs.StoppedTools
import WorkflowEngine.Tool.LocalExecutor

/-!
# Ends that are reported once

The tasks of a run share one executor, and so one table of processes.  They hand tools over, ask for them and stop
them in any order, while the processes end on their own.

**Handles.**  Each process gets an identifier of its own, so that handles are distinct (`handle_injective`).  The
numbers of processes in hexadecimal digits will do: they can be read back (`identifier_injective`).

**Histories.**  `Exchange`: what the executor was told to do, with its answer.  `History`: instructions of any tasks,
one at a time, and between them time goes by and processes end at any moment (`Passes`).  `Serves` says once what an
instruction does to the table.

**Accounts.**  The table holds the handles that were given out and whose end was not reported (`Accounted`).

**Traces.**  A process that is in the table is reported to run.  It leaves the table with the report of its end, and
is unknown from then on (`Traced`).

**Polling.**  `Awaited`: a tool that its task polls, while other tasks use the executor.

**Together.**  `ends_reported_once`, for every history and whatever the identifiers are.
-/

namespace WorkflowEngine.Tool

/-! ## Handles -/

namespace ProcessTable

/-- The number that hexadecimal digits make, whatever stands between them. -/
def digitsValue (cs : List Char) : ℕ := (cs.filterMap Json.hexValue?).foldl (fun n d => 16 * n + d) 0

lemma hexValue?_digitChar {d : ℕ} (h : d < 16) : Json.hexValue? (Nat.digitChar d) = some d := by
  have hall : ∀ k < 16, Json.hexValue? (Nat.digitChar k) = some k := by decide
  exact hall d h

lemma digitsValue_append_digit (cs : List Char) {d : ℕ} (h : d < 16) :
    digitsValue (cs ++ [Nat.digitChar d]) = 16 * digitsValue cs + d := by
  simp [digitsValue, hexValue?_digitChar h]

lemma digitsValue_toDigits (n : ℕ) : digitsValue (Nat.toDigits 16 n) = n := by
  induction n using Nat.strong_induction_on with
  | _ n ih =>
      rw [Nat.toDigits_eq_if (by decide)]
      split_ifs with h
      · simp [digitsValue, hexValue?_digitChar h]
      · rw [digitsValue_append_digit _ (Nat.mod_lt n (by decide)), ih (n / 16) (by omega)]
        omega

/-- Zeros in front do not count. -/
lemma digitsValue_hexDigits (count n : ℕ) : digitsValue (hexDigits count n) = n := by
  have hzeros (k : ℕ) (cs : List Char) : digitsValue (List.replicate k '0' ++ cs) = digitsValue cs := by
    induction k with
    | zero => rfl
    | succ k ih => exact ih
  rw [hexDigits, hzeros, digitsValue_toDigits]

/-- The dashes do not count either, and between them stand all the digits. -/
lemma digitsValue_identifier (n : ℕ) : digitsValue (identifier n).toList = n := by
  have hlength : 24 ≤ (hexDigits 32 n).length := by
    simp only [hexDigits, List.length_append, List.length_replicate]
    omega
  have hgroups (ds : List Char) (cut : ℕ) (h : ds.length = cut + 24) :
      ds.take cut ++ (ds.drop (cut + 0)).take 4 ++ (ds.drop (cut + 4)).take 4 ++ (ds.drop (cut + 8)).take 4 ++
        (ds.drop (cut + 12)).take 12 = ds := by
    simp only [Nat.add_zero, ← List.take_add, Nat.add_assoc]
    exact List.take_of_length_le (by omega)
  have hdash : Json.hexValue? '-' = none := rfl
  have hdigits : (identifier n).toList.filterMap Json.hexValue? = (hexDigits 32 n).filterMap Json.hexValue? := by
    conv_rhs => rw [← hgroups (hexDigits 32 n) ((hexDigits 32 n).length - 24) (by omega)]
    simp only [identifier, String.toList_ofList, List.filterMap_append, List.filterMap_cons, hdash]
  rw [digitsValue, hdigits]
  exact digitsValue_hexDigits 32 n

/-- **Numbers make distinct identifiers.** -/
theorem identifier_injective : Function.Injective identifier := by
  intro m n h
  rw [← digitsValue_identifier m, h, digitsValue_identifier]

variable {ids : ℕ → String}

/-- **No two processes have the same handle.** -/
theorem handle_injective (distinct : Function.Injective ids) : Function.Injective (handle ids) := by
  intro m n h
  refine distinct (String.toList_inj.mp ?_)
  simpa [handle] using congrArg String.toList h

/-! ## Tables -/

/-- The handles of the processes whose end has not been reported. -/
def handles (table : ProcessTable) : List String := table.children.keys

section Tables

variable (table : ProcessTable) (name : String)

lemma active_eq : table.active = table.handles.length := (List.length_map _).symm

lemma handles_start_of_new (child : Child) (h : handle ids table.started ∉ table.handles) :
    (table.start ids child).2.handles = table.handles ++ [handle ids table.started] :=
  OrderedMap.keys_insert_of_not_mem _ _ _ h

lemma mem_handles_start (child : Child) :
    name ∈ (table.start ids child).2.handles ↔ name ∈ table.handles ∨ name = handle ids table.started := by
  by_cases h : handle ids table.started ∈ table.handles
  · have hsame : (table.start ids child).2.handles = table.handles := OrderedMap.keys_insert_of_mem _ _ _ h
    rw [hsame]
    constructor
    · exact .inl
    · rintro (hname | rfl)
      · exact hname
      · exact h
  · simp [handles_start_of_new table child h]

/-- The table without a process. -/
def without : ProcessTable := { table with children := table.children.erase name }

lemma handles_without : (table.without name).handles = table.handles.filter (· ≠ name) := by
  simp only [handles, without, OrderedMap.keys, OrderedMap.erase, List.filter_map]
  rfl

lemma handles_kill (now : ℕ) : (table.kill name now).handles = table.handles := by
  unfold kill
  split
  · rfl
  · next child hfind =>
      exact OrderedMap.keys_insert_of_mem _ _ _ (OrderedMap.find?_isSome_iff.mp (by rw [hfind]; rfl))

lemma started_kill (now : ℕ) : (table.kill name now).started = table.started := by
  unfold kill
  split <;> rfl

end Tables

end ProcessTable

open ProcessTable (handle handle_injective identifier identifier_injective)

variable {ids : ℕ → String}

/-! ## Histories -/

/-- What a task tells an executor to do. -/
inductive Instruction where
  | dispatch (tool : PreparedTool)
  | status (handle : String)
  | cancel (handle : String)

/-- An instruction with its answer. -/
inductive Exchange where
  | dispatched (tool : PreparedTool) (answer : Outcome String)
  | asked (handle : String) (answer : Outcome ToolStatus)
  | stopped (handle : String) (answer : Outcome Unit)

/-- Does what a task tells it to do. -/
def Executor.serve {ε : Type} (executor : Executor ε) (world : World ε) : Instruction → Exchange × World ε
  | .dispatch tool => (executor.dispatch tool world).map (.dispatched tool) id
  | .status handle => (executor.status handle world).map (.asked handle) id
  | .cancel handle => (executor.cancel handle world).map (.stopped handle) id

/-- What can happen between two instructions: time goes by, files change, and each process that is in the table may
turn out to end at any moment and in any way. -/
structure Passes (before after : World ProcessTable) : Prop where
  started : after.executor.started = before.executor.started
  handles : after.executor.handles = before.executor.handles

/-- The exchanges of tasks with the executor that runs tools in place, one at a time, from one world to another. -/
inductive History (ids : ℕ → String) (first : World ProcessTable) : List Exchange → World ProcessTable → Prop
  | start : History ids first [] first
  | passes {exchanges : List Exchange} {before after : World ProcessTable} (h : History ids first exchanges before)
      (pass : Passes before after) : History ids first exchanges after
  | serves {exchanges : List Exchange} {before after : World ProcessTable} {instruction : Instruction}
      {exchange : Exchange} (h : History ids first exchanges before)
      (served : (localExecutor ids).serve before instruction = (exchange, after)) :
      History ids first (exchanges ++ [exchange]) after

/-- What an instruction can do to the table, with the exchange about it. -/
inductive Serves (ids : ℕ → String) (table : ProcessTable) : Exchange → ProcessTable → Prop
  | refused (tool : PreparedTool) (failure : Failure) : Serves ids table (.dispatched tool (.error failure)) table
  | taken (tool : PreparedTool) (child : Child) :
      Serves ids table (.dispatched tool (.ok (handle ids table.started))) (table.start ids child).2
  | unknown {name : String} (gone : name ∉ table.handles) : Serves ids table (.asked name (.ok .unknown)) table
  | running {name : String} (kept : name ∈ table.handles) : Serves ids table (.asked name (.ok .running)) table
  | ended {name : String} {status : ToolStatus} (kept : name ∈ table.handles) (terminal : status.isTerminal = true) :
      Serves ids table (.asked name (.ok status)) (table.without name)
  | stopped (name : String) (now : ℕ) : Serves ids table (.stopped name (.ok ())) (table.kill name now)

lemma isTerminal_statusOf (exit : Shell.Exit) : (statusOf exit).isTerminal = true := by
  unfold statusOf
  split <;> rfl

/-- **One look** at a process finds that it runs, or its end, as long as it is in the table. -/
lemma serves_look (table : ProcessTable) (name : String) (now : ℕ) :
    Serves ids table (.asked name (.ok (table.look name now).1)) (table.look name now).2 := by
  unfold ProcessTable.look
  split
  · next hfind => exact .unknown (OrderedMap.find?_eq_none_iff.mp hfind)
  · next child hfind =>
      have kept : name ∈ table.handles := OrderedMap.find?_isSome_iff.mp (by rw [hfind]; rfl)
      dsimp only
      unfold Child.status
      by_cases hends : child.ends ≤ now
      · rw [if_pos hends, if_pos (isTerminal_statusOf child.exit)]
        exact .ended kept (isTerminal_statusOf child.exit)
      · rw [if_neg hends]
        exact .running kept

lemma serves_of_serve {world after : World ProcessTable} {instruction : Instruction} {exchange : Exchange}
    (h : (localExecutor ids).serve world instruction = (exchange, after)) :
    Serves ids world.executor exchange after.executor := by
  suffices served : Serves ids world.executor ((localExecutor ids).serve world instruction).1
      ((localExecutor ids).serve world instruction).2.executor by rwa [h] at served
  cases instruction with
  | dispatch tool =>
      simp only [Executor.serve, localExecutor]
      cases spawn tool world.now world.files with
      | error failure => exact .refused tool failure
      | ok spawned => exact .taken tool spawned.2
  | status name => exact serves_look world.executor name world.now
  | cancel name => exact .stopped name world.now

/-- A history can be cut at each exchange. -/
lemma History.split {first last : World ProcessTable} {exchanges earlier later : List Exchange} {exchange : Exchange}
    (h : History ids first exchanges last) (hsplit : exchanges = earlier ++ exchange :: later) :
    ∃ before instruction after, History ids first earlier before ∧
      (localExecutor ids).serve before instruction = (exchange, after) ∧ History ids after later last := by
  induction h generalizing later with
  | start => simp at hsplit
  | passes _ pass ih =>
      obtain ⟨before, instruction, after, hearlier, hserved, hlater⟩ := ih hsplit
      exact ⟨before, instruction, after, hearlier, hserved, hlater.passes pass⟩
  | @serves _ between last instruction _ h served ih =>
      rcases List.eq_nil_or_concat later with rfl | ⟨later, newest, rfl⟩
      · -- The cut is at the last exchange.
        obtain ⟨rfl, hlast⟩ := List.append_inj' hsplit rfl
        obtain rfl := List.singleton_inj.mp hlast
        exact ⟨between, instruction, last, h, served, .start⟩
      · rw [List.concat_eq_append, ← List.cons_append, ← List.append_assoc] at hsplit
        obtain ⟨hshort, hnewest⟩ := List.append_inj' hsplit rfl
        obtain rfl := List.singleton_inj.mp hnewest
        obtain ⟨before, given, after, hearlier, hserved, hlater⟩ := ih hshort
        exact ⟨before, given, after, hearlier, hserved, List.concat_eq_append ▸ hlater.serves served⟩

/-! ## Accounts -/

/-- The handle that is given out in an exchange. -/
def Exchange.given? : Exchange → Option String
  | .dispatched _ (.ok handle) => some handle
  | _ => none

/-- The answer of an exchange about a process. -/
def Exchange.answerTo? (name : String) : Exchange → Option (Outcome ToolStatus)
  | .asked handle answer => if handle = name then some answer else none
  | _ => none

/-- The handles that were given out. -/
def givenIn (exchanges : List Exchange) : List String := exchanges.filterMap Exchange.given?

/-- The answers about a process. -/
def answersTo (name : String) (exchanges : List Exchange) : List (Outcome ToolStatus) :=
  exchanges.filterMap (Exchange.answerTo? name)

/-- Whether an answer is that a process has ended. -/
def isEnd : Outcome ToolStatus → Bool
  | .ok status => status.isTerminal
  | .error _ => false

/-- Whether the end of a process was not reported. -/
def isOpen (exchanges : List Exchange) (name : String) : Bool := !(answersTo name exchanges).any isEnd

section Records

variable (exchanges : List Exchange) (name : String)

@[simp] lemma givenIn_append_singleton (exchange : Exchange) :
    givenIn (exchanges ++ [exchange]) = givenIn exchanges ++ exchange.given?.toList := by
  rw [givenIn, List.filterMap_append]
  cases h : exchange.given? <;> simp [givenIn, h]

@[simp] lemma answersTo_append_singleton (exchange : Exchange) :
    answersTo name (exchanges ++ [exchange]) = answersTo name exchanges ++ (exchange.answerTo? name).toList := by
  rw [answersTo, List.filterMap_append]
  cases h : exchange.answerTo? name <;> simp [answersTo, h]

/-- Only the report of an end closes a process. -/
lemma isOpen_append_singleton (exchange : Exchange) :
    isOpen (exchanges ++ [exchange]) name = (isOpen exchanges name && !(exchange.answerTo? name).any isEnd) := by
  cases h : exchange.answerTo? name <;> simp [isOpen, h]

/-- An answer that is no end is none about any process. -/
lemma any_isEnd_answerTo? (handle : String) {answer : Outcome ToolStatus} (h : isEnd answer = false) :
    ((Exchange.asked handle answer).answerTo? name).any isEnd = false := by
  rw [Exchange.answerTo?]
  split_ifs
  · exact h
  · rfl

end Records

/-- The table is what the exchanges so far have left in it. -/
structure Accounted (ids : ℕ → String) (exchanges : List Exchange) (table : ProcessTable) : Prop where
  given : givenIn exchanges = (List.range table.started).map (handle ids)
  handles : table.handles = (givenIn exchanges).filter (isOpen exchanges)
  /-- No end is reported of a process that was not started. -/
  closed : ∀ name, isOpen exchanges name = false → name ∈ givenIn exchanges

namespace Accounted

variable {exchanges : List Exchange} {table after : ProcessTable} {exchange : Exchange}

lemma new_notMem_given (h : Accounted ids exchanges table) (distinct : Function.Injective ids) :
    handle ids table.started ∉ givenIn exchanges := by
  rw [h.given, List.mem_map]
  rintro ⟨n, hn, heq⟩
  rw [handle_injective distinct heq] at hn
  simp at hn

/-- An exchange that gives no handle and reports no end leaves the accounts as they are. -/
lemma unchanged (h : Accounted ids exchanges table) (hgiven : exchange.given? = none)
    (hend : ∀ name, (exchange.answerTo? name).any isEnd = false) (hstarted : after.started = table.started)
    (hhandles : after.handles = table.handles) : Accounted ids (exchanges ++ [exchange]) after := by
  have hopen : isOpen (exchanges ++ [exchange]) = isOpen exchanges := by
    funext name
    rw [isOpen_append_singleton, hend, Bool.not_false, Bool.and_true]
  have hsame : givenIn (exchanges ++ [exchange]) = givenIn exchanges := by simp [hgiven]
  exact ⟨by rw [hsame, hstarted, h.given], by rw [hsame, hopen, hhandles, h.handles],
    by rw [hsame, hopen]; exact h.closed⟩

/-- A tool that is taken gets a new handle, and its process is open. -/
lemma taken (h : Accounted ids exchanges table) (distinct : Function.Injective ids) (tool : PreparedTool)
    (child : Child) :
    Accounted ids (exchanges ++ [.dispatched tool (.ok (handle ids table.started))]) (table.start ids child).2 := by
  have hopen : isOpen (exchanges ++ [.dispatched tool (.ok (handle ids table.started))]) = isOpen exchanges := by
    funext name
    simp [isOpen_append_singleton, Exchange.answerTo?]
  have hgiven : givenIn (exchanges ++ [.dispatched tool (.ok (handle ids table.started))]) =
      givenIn exchanges ++ [handle ids table.started] := givenIn_append_singleton _ _
  have hnew : isOpen exchanges (handle ids table.started) = true := by
    rw [← Bool.not_eq_false]
    exact fun hclosed => h.new_notMem_given distinct (h.closed _ hclosed)
  have habsent : handle ids table.started ∉ table.handles := by
    rw [h.handles]
    exact fun hmem => h.new_notMem_given distinct (List.mem_of_mem_filter hmem)
  refine ⟨?_, ?_, ?_⟩
  · show _ = (List.range (table.started + 1)).map (handle ids)
    rw [hgiven, h.given, List.range_succ, List.map_append, List.map_singleton]
  · rw [hgiven, hopen, ProcessTable.handles_start_of_new _ _ habsent, List.filter_append, ← h.handles]
    simp [hnew]
  · rw [hgiven, hopen]
    exact fun name hclosed => List.mem_append_left _ (h.closed name hclosed)

/-- The report of an end closes its process and no other one. -/
lemma ended (h : Accounted ids exchanges table) {name : String} {status : ToolStatus} (kept : name ∈ table.handles)
    (terminal : status.isTerminal = true) :
    Accounted ids (exchanges ++ [.asked name (.ok status)]) (table.without name) := by
  have hopen (other : String) : isOpen (exchanges ++ [.asked name (.ok status)]) other =
      (isOpen exchanges other && decide (other ≠ name)) := by
    rw [isOpen_append_singleton]
    by_cases hname : name = other
    · simp [Exchange.answerTo?, hname, isEnd, terminal]
    · simp [Exchange.answerTo?, hname, Ne.symm hname]
  have hgiven : givenIn (exchanges ++ [.asked name (.ok status)]) = givenIn exchanges := by
    simp [Exchange.given?]
  refine ⟨hgiven.trans h.given, ?_, ?_⟩
  · rw [hgiven, ProcessTable.handles_without, h.handles, List.filter_filter]
    exact List.filter_congr fun other _ => by rw [hopen, Bool.and_comm]
  · rw [hgiven]
    intro other hclosed
    rw [hopen, Bool.and_eq_false_iff] at hclosed
    rcases hclosed with hclosed | hsame
    · exact h.closed other hclosed
    · obtain rfl : other = name := by simpa using hsame
      rw [h.handles] at kept
      exact List.mem_of_mem_filter kept

/-- **One exchange** keeps the accounts. -/
lemma serves (h : Accounted ids exchanges table) (distinct : Function.Injective ids)
    (served : Serves ids table exchange after) :
    Accounted ids (exchanges ++ [exchange]) after := by
  cases served with
  | refused tool failure => exact h.unchanged rfl (fun _ => rfl) rfl rfl
  | taken tool child => exact h.taken distinct tool child
  | @unknown name _ => exact h.unchanged rfl (fun other => any_isEnd_answerTo? other name rfl) rfl rfl
  | @running name _ => exact h.unchanged rfl (fun other => any_isEnd_answerTo? other name rfl) rfl rfl
  | ended kept terminal => exact h.ended kept terminal
  | stopped name now =>
      exact h.unchanged rfl (fun _ => rfl) (table.started_kill name now) (table.handles_kill name now)

end Accounted

/-- **The accounts of a history** that starts with an empty table. -/
lemma History.accounted {first last : World ProcessTable} {exchanges : List Exchange}
    (h : History ids first exchanges last) (distinct : Function.Injective ids)
    (fresh : first.executor = .empty) : Accounted ids exchanges last.executor := by
  induction h with
  | start =>
      rw [fresh]
      exact ⟨rfl, rfl, fun name hclosed => by simp [isOpen, answersTo] at hclosed⟩
  | passes _ pass ih => exact ⟨by rw [pass.started, ih.given], by rw [pass.handles, ih.handles], ih.closed⟩
  | serves _ served ih => exact ih.serves distinct (serves_of_serve served)

/-! ## Traces -/

/-- The answers about a process that has ended: that it runs, as often as this was asked, then its end, and after it
only that it is unknown. -/
def Ended (answers : List (Outcome ToolStatus)) : Prop :=
  ∃ running status unknown, status.isTerminal = true ∧
    answers = List.replicate running (.ok .running) ++ .ok status :: List.replicate unknown (.ok .unknown)

/-- The answers about a process: that it runs, as often as this was asked, or those about one that has ended. -/
def EndsOnce (answers : List (Outcome ToolStatus)) : Prop :=
  (∃ running, answers = List.replicate running (.ok .running)) ∨ Ended answers

/-- A process stays in the table as long as its end is not reported. -/
structure Traced (ids : ℕ → String) (n : ℕ) (answers : List (Outcome ToolStatus)) (table : ProcessTable) : Prop where
  started : n < table.started
  stays : handle ids n ∈ table.handles → ∃ running, answers = List.replicate running (.ok .running)
  leaves : handle ids n ∉ table.handles → Ended answers

namespace Traced

variable {n : ℕ} {answers : List (Outcome ToolStatus)} {table after : ProcessTable} {exchange : Exchange}

lemma endsOnce (h : Traced ids n answers table) : EndsOnce answers := by
  by_cases hmem : handle ids n ∈ table.handles
  · exact .inl (h.stays hmem)
  · exact .inr (h.leaves hmem)

/-- A process of which nothing was asked yet is in the table. -/
lemma mem_of_nil (h : Traced ids n [] table) : handle ids n ∈ table.handles := by
  by_contra gone
  obtain ⟨running, status, unknown, -, hanswers⟩ := h.leaves gone
  simp at hanswers

lemma congr (h : Traced ids n answers table) (hstarted : table.started ≤ after.started)
    (hhandles : handle ids n ∈ after.handles ↔ handle ids n ∈ table.handles) : Traced ids n answers after :=
  ⟨h.started.trans_le hstarted, fun hmem => h.stays (hhandles.mp hmem), fun hmem => h.leaves (mt hhandles.mpr hmem)⟩

/-- **One exchange**, whether it is about the process or not. -/
lemma serves (h : Traced ids n answers table) (distinct : Function.Injective ids)
    (served : Serves ids table exchange after) :
    Traced ids n (answers ++ (exchange.answerTo? (handle ids n)).toList) after := by
  cases served with
  | refused tool failure => simpa [Exchange.answerTo?] using h
  | taken tool child =>
      have hother : handle ids n ≠ handle ids table.started := (handle_injective distinct).ne h.started.ne
      simp only [Exchange.answerTo?, Option.toList_none, List.append_nil]
      refine h.congr (Nat.le_succ _) ?_
      rw [ProcessTable.mem_handles_start, or_iff_left hother]
  | @unknown name gone =>
      by_cases hname : name = handle ids n
      · subst hname
        obtain ⟨running, status, unknown, terminal, rfl⟩ := h.leaves gone
        refine ⟨h.started, fun hmem => absurd hmem gone, fun _ => ⟨running, status, unknown + 1, terminal, ?_⟩⟩
        simp [Exchange.answerTo?, List.replicate_succ']
      · simpa [Exchange.answerTo?, hname] using h
  | @running name kept =>
      by_cases hname : name = handle ids n
      · subst hname
        obtain ⟨running, rfl⟩ := h.stays kept
        refine ⟨h.started, fun _ => ⟨running + 1, ?_⟩, fun hmem => absurd kept hmem⟩
        simp [Exchange.answerTo?, List.replicate_succ']
      · simpa [Exchange.answerTo?, hname] using h
  | @ended name status kept terminal =>
      by_cases hname : name = handle ids n
      · subst hname
        obtain ⟨running, rfl⟩ := h.stays kept
        refine ⟨h.started, fun hmem => ?_, fun _ => ⟨running, status, 0, terminal, ?_⟩⟩
        · simp [ProcessTable.handles_without] at hmem
        · simp [Exchange.answerTo?]
      · simp only [Exchange.answerTo?, if_neg hname, Option.toList_none, List.append_nil]
        refine h.congr le_rfl ?_
        simp [ProcessTable.handles_without, Ne.symm hname]
  | stopped name now =>
      simp only [Exchange.answerTo?, Option.toList_none, List.append_nil]
      exact h.congr (table.started_kill name now).ge (by rw [table.handles_kill name now])

end Traced

/-- **The trace of a process** through a history, from when nothing was asked of it yet. -/
lemma History.traced {first last : World ProcessTable} {exchanges : List Exchange}
    (h : History ids first exchanges last) (distinct : Function.Injective ids) {n : ℕ}
    (traced : Traced ids n [] first.executor) :
    Traced ids n (answersTo (handle ids n) exchanges) last.executor := by
  induction h with
  | start => exact traced
  | passes _ pass ih => exact ih.congr pass.started.ge (by rw [pass.handles])
  | serves _ served ih =>
      rw [answersTo_append_singleton]
      exact ih.serves distinct (serves_of_serve served)

/-- A handle that is given out is that of a process of which nothing was asked yet. -/
lemma Serves.traced {table after : ProcessTable} {tool : PreparedTool} {name : String}
    (served : Serves ids table (.dispatched tool (.ok name)) after) :
    ∃ n, name = handle ids n ∧ Traced ids n [] after := by
  cases served with
  | taken _ child =>
      have kept : handle ids table.started ∈ (table.start ids child).2.handles :=
        (ProcessTable.mem_handles_start _ _ _).mpr (.inr rfl)
      exact ⟨_, rfl, Nat.lt_succ_self _, fun _ => ⟨0, rfl⟩, fun gone => absurd kept gone⟩

/-! ## Polling -/

namespace Polling

lemma recording_inj {ε : Type} {world world' : World ε} {calls calls' : List Call} :
    world.recording calls = world'.recording calls' ↔ world = world' ∧ calls = calls' := by
  cases world
  cases world'
  simp only [World.recording, World.mk.injEq, Prod.mk.injEq]
  tauto

/-- **The questions of a turn**: it asks for the status of its tool and for nothing else, and where polling goes on,
it leaves the world as the executor left it. -/
lemma turn_asks {ε : Type} (executor : Executor ε) (config : Configuration) (p : Polling) (world : World ε)
    (seen : List Call) :
    ∃ progress events after more,
      p.turn executor.recorded config (world.recording seen) = (progress, events, after.recording (seen ++ more)) ∧
      (∀ name answer, .asked name answer ∈ more → name = p.handle ∧ answer = (executor.status p.handle world).1) ∧
      ∀ next, progress = .again next → next.handle = p.handle ∧ after = (executor.status p.handle world).2 ∧
        ∃ status : ToolStatus, status.isTerminal = false ∧ (executor.status p.handle world).1 = .ok status := by
  simp only [turn, World.cancelled_recording, Executor.status_recorded, stop_recorded]
  cases world.cancelled with
  | true => exact ⟨_, _, _, [.stopped p.handle], rfl, by simp, by simp⟩
  | false =>
      obtain ⟨answer, after⟩ := executor.status p.handle world
      cases answer with
      | error failure => exact ⟨_, _, _, [.asked p.handle (.error failure)], rfl, by simp, by simp⟩
      | ok status =>
          rcases judge_cases config p after.now status with
            ⟨result, hjudge, -⟩ | ⟨hopen, hjudge | ⟨next, hjudge, hhandle⟩⟩
          · simp only [World.now_recording, hjudge]
            exact ⟨_, _, _, [.asked p.handle (.ok status)], rfl, by simp, by simp⟩
          · simp only [World.now_recording, hjudge, stop_recorded, List.append_assoc]
            exact ⟨_, _, _, _, rfl, by simp, by simp⟩
          · simp only [World.now_recording, hjudge]
            exact ⟨_, _, _, [.asked p.handle (.ok status)], rfl, by simp, by simpa [hhandle] using hopen⟩

/-- A tool that its task polls, while other tasks use the executor: what polling has come to, the calls that were made
for it, and the world.  No other task asks for the status of the tool. -/
inductive Awaited (ids : ℕ → String) (config : Configuration) (name : String) (handed : World ProcessTable) :
    Progress → List Call → World ProcessTable → Prop
  | start : Awaited ids config name handed (.again (start config name handed.now)) [] handed
  | passes {progress : Progress} {seen : List Call} {before after : World ProcessTable}
      (h : Awaited ids config name handed progress seen before) (pass : Passes before after) :
      Awaited ids config name handed progress seen after
  | serves {progress : Progress} {seen : List Call} {before after : World ProcessTable} {instruction : Instruction}
      {exchange : Exchange} (h : Awaited ids config name handed progress seen before) (other : instruction ≠ .status name)
      (served : (localExecutor ids).serve before instruction = (exchange, after)) :
      Awaited ids config name handed progress seen after
  | turns {p : Polling} {progress : Progress} {seen later : List Call} {events : List Event}
      {before after : World ProcessTable} (h : Awaited ids config name handed (.again p) seen before)
      (turn : p.turn (localExecutor ids).recorded config (before.recording seen) =
        (progress, events, after.recording later)) :
      Awaited ids config name handed progress later after

/-- What is asked of a process in the table: it runs, and the table stays as it is, or it has ended. -/
lemma status_of_kept {world after : World ProcessTable} {name : String} {answer : Outcome ToolStatus}
    (kept : name ∈ world.executor.handles) (h : (localExecutor ids).status name world = (answer, after)) :
    (answer = .ok .running ∧ after.executor = world.executor) ∨
      ∃ status : ToolStatus, status.isTerminal = true ∧ answer = .ok status := by
  have hserve : (localExecutor ids).serve world (.status name) = (.asked name answer, after) :=
    congrArg (Prod.map (Exchange.asked name) id) h
  have served := serves_of_serve hserve
  generalize after.executor = table at served ⊢
  cases served with
  | unknown gone => exact absurd kept gone
  | running _ => exact .inl ⟨rfl, rfl⟩
  | ended _ terminal => exact .inr ⟨_, terminal, rfl⟩

/-- What is known while a tool is polled: each answer so far said how it was with the tool, and as long as polling
goes on, its process is in the table. -/
structure Watched (ids : ℕ → String) (n : ℕ) (progress : Progress) (seen : List Call) (table : ProcessTable) : Prop where
  known : ∀ name answer, .asked name answer ∈ seen → name = ProcessTable.handle ids n ∧
    ∃ status : ToolStatus, answer = .ok status ∧ status ≠ .unknown
  kept : ∀ p, progress = .again p → p.handle = ProcessTable.handle ids n ∧ Traced ids n [] table

/-- **One turn** of a tool that is watched. -/
lemma Watched.turns {n : ℕ} {config : Configuration} {p : Polling} {progress : Progress} {seen later : List Call}
    {events : List Event} {before after : World ProcessTable} (h : Watched ids n (.again p) seen before.executor)
    (turn : p.turn (localExecutor ids).recorded config (before.recording seen) =
      (progress, events, after.recording later)) :
    Watched ids n progress later after.executor := by
  obtain ⟨hhandle, traced⟩ := h.kept p rfl
  obtain ⟨progress', events', after', more, hturn, hasks, hagain⟩ :=
    turn_asks (localExecutor ids) config p before seen
  rw [turn, Prod.mk.injEq, Prod.mk.injEq, recording_inj] at hturn
  obtain ⟨rfl, rfl, rfl, rfl⟩ := hturn
  have hasked : (localExecutor ids).status p.handle before =
      (((localExecutor ids).status p.handle before).1, ((localExecutor ids).status p.handle before).2) := rfl
  have hstatus := status_of_kept (hhandle ▸ traced.mem_of_nil) hasked
  refine ⟨fun name answer hmem => ?_, fun next hnext => ?_⟩
  · rcases List.mem_append.mp hmem with hmem | hmem
    · exact h.known name answer hmem
    · obtain ⟨rfl, rfl⟩ := hasks name answer hmem
      refine ⟨hhandle, ?_⟩
      rcases hstatus with ⟨hrunning, -⟩ | ⟨status, terminal, hended⟩
      · exact ⟨.running, hrunning, nofun⟩
      · refine ⟨status, hended, ?_⟩
        rintro rfl
        cases terminal
  · -- The tool runs on, so that the table is as it was.
    obtain ⟨hsame, rfl, status, hopen, hanswer⟩ := hagain next hnext
    rcases hstatus with ⟨-, htable⟩ | ⟨status', terminal, hended⟩
    · exact ⟨hsame.trans hhandle, by rw [htable]; exact traced⟩
    · rw [hanswer] at hended
      cases hended
      rw [hopen] at terminal
      cases terminal

/-- A tool stays watched, whatever other tasks do. -/
lemma Awaited.watched {config : Configuration} {n : ℕ} {handed : World ProcessTable} {progress : Progress}
    {seen : List Call} {world : World ProcessTable}
    (h : Awaited ids config (ProcessTable.handle ids n) handed progress seen world)
    (distinct : Function.Injective ids) (traced : Traced ids n [] handed.executor) :
    Watched ids n progress seen world.executor := by
  induction h with
  | start => exact ⟨by simp, fun p hp => by cases hp; exact ⟨rfl, traced⟩⟩
  | passes _ pass ih =>
      refine ⟨ih.known, fun p hp => ⟨(ih.kept p hp).1, ?_⟩⟩
      exact (ih.kept p hp).2.congr pass.started.ge (by rw [pass.handles])
  | @serves _ _ before _ instruction exchange _ other served ih =>
      refine ⟨ih.known, fun p hp => ⟨(ih.kept p hp).1, ?_⟩⟩
      have hanswer : exchange.answerTo? (ProcessTable.handle ids n) = none := by
        have hexchange : exchange = ((localExecutor ids).serve before instruction).1 := by rw [served]
        rw [hexchange]
        cases instruction with
        | dispatch tool => rfl
        | status name => exact if_neg fun hname => other (congrArg Instruction.status hname)
        | cancel name => rfl
      simpa [hanswer] using (ih.kept p hp).2.serves distinct (serves_of_serve served)
  | turns _ turn ih => exact ih.turns turn

/-- The loop that polls one tool alone is one of the ways to poll it. -/
lemma Awaited.complete {config : Configuration} {name : String} {handed : World ProcessTable} {fuel : ℕ} {p : Polling}
    {seen calls : List Call} {events later : List Event} {world after : World ProcessTable} {result : Outcome Unit}
    (h : Awaited ids config name handed (.again p) seen world)
    (hrun : Polling.complete (localExecutor ids).recorded config fuel p events (world.recording seen) =
      (some result, later, after.recording calls)) :
    Awaited ids config name handed (.ended result) calls after := by
  induction fuel generalizing p seen events world with
  | zero => simp [Polling.complete] at hrun
  | succ fuel ih =>
      have hwoken : Awaited ids config name handed (.again p) seen (woken p world) := h.passes ⟨rfl, rfl⟩
      obtain ⟨progress, between, reached, more, hturn, -⟩ :=
        turn_asks (localExecutor ids) config p (woken p world) seen
      have hnext := hwoken.turns hturn
      have hstart : woken p (world.recording seen) = (woken p world).recording seen := rfl
      rw [complete_succ, hstart, hturn] at hrun
      cases progress with
      | ended last =>
          simp only [Prod.mk.injEq, Option.some.injEq, recording_inj] at hrun
          obtain ⟨rfl, -, rfl, rfl⟩ := hrun
          exact hnext
      | again next => exact ih hnext hrun

end Polling

/-! ## Together -/

/-- **Each end is reported once.**  In whatever order any tasks use the executor, and whenever the processes end: the
answers about a process that was started say that it runs, then at most once how it ended, and after that only that
it is unknown; no handle is given out twice, and the table holds as many processes as were started and not reported
to have ended; and a task that hands a tool over and is the only one to ask for it never gets the answer that it is
unknown. -/
theorem ends_reported_once (distinct : Function.Injective ids) {first last : World ProcessTable}
    {exchanges : List Exchange} (fresh : first.executor = .empty) (h : History ids first exchanges last) :
    (∀ earlier tool name later, exchanges = earlier ++ .dispatched tool (.ok name) :: later →
        EndsOnce (answersTo name later)) ∧
      (givenIn exchanges).Nodup ∧
      last.executor.active = (givenIn exchanges).countP (isOpen exchanges) ∧
      ∀ {config tool name handed progress seen world}, (localExecutor ids).dispatch tool last = (.ok name, handed) →
        Polling.Awaited ids config name handed progress seen world →
        ∀ asked answer, .asked asked answer ∈ seen →
          asked = name ∧ ∃ status : ToolStatus, answer = .ok status ∧ status ≠ .unknown := by
  have accounted := h.accounted distinct fresh
  refine ⟨fun earlier tool name later hsplit => ?_, ?_, ?_, fun {_ tool name handed} _ _ _ hdispatch awaited => ?_⟩
  · obtain ⟨before, instruction, after, -, hserved, hlater⟩ := h.split hsplit
    obtain ⟨n, rfl, traced⟩ := (serves_of_serve hserved).traced
    exact (hlater.traced distinct traced).endsOnce
  · rw [accounted.given]
    exact List.nodup_range.map (handle_injective distinct)
  · rw [ProcessTable.active_eq, accounted.handles, List.countP_eq_length_filter]
  · have hserve : (localExecutor ids).serve last (.dispatch tool) = (.dispatched tool (.ok name), handed) :=
      congrArg (Prod.map (Exchange.dispatched tool) id) hdispatch
    obtain ⟨n, rfl, traced⟩ := (serves_of_serve hserve).traced
    exact (awaited.watched distinct traced).known

/-- A tool that fails. -/
def failingTool : PreparedTool where
  task := "#main"
  image := "ubuntu"
  words := ["exit", "3"]
  directory := "/"
  environment := []
  resources := default
  volumes := []
  stdin := none
  stdout := none
  stderr := none

/-- A world without files, some milliseconds after the start, with its table. -/
def worldAt (milliseconds started : ℕ) (children : OrderedMap Child) : World ProcessTable :=
  ⟨default, milliseconds * 1000000, none, ⟨started, children⟩⟩

/-- A process that fails ten milliseconds after the start. -/
def failingChild : Child := ⟨10000000, .code 3⟩

/-- The handle of a process whose identifier is its number. -/
abbrev numbered (n : ℕ) : String := handle identifier n

/-- The exchanges about a tool that is asked for once while it runs and twice after it has failed. -/
def failingExchanges : List Exchange :=
  [.dispatched failingTool (.ok (numbered 0)), .asked (numbered 0) (.ok .running),
    .asked (numbered 0) (.ok (.failed "exit code 3")), .asked (numbered 0) (.ok .unknown)]

/-- A tool fails after ten milliseconds: it is reported to run before, then to have failed, and then to be unknown.
A second one is polled by its own task alone, and fails at the first poll. -/
theorem failing_tool_reported_once :
    Function.Injective identifier ∧ (worldAt 0 0 []).executor = .empty ∧
      History identifier (worldAt 0 0 []) failingExchanges (worldAt 10 1 []) ∧
      EndsOnce [.ok .running, .ok (.failed "exit code 3"), .ok .unknown] ∧
      (worldAt 10 1 []).executor.active = 0 ∧
      (localExecutor identifier).dispatch failingTool (worldAt 10 1 []) =
        (.ok (numbered 1), worldAt 10 2 [(numbered 1, failingChild)]) ∧
      ∃ result, Polling.Awaited identifier Polling.fastConfig (numbered 1) (worldAt 10 2 [(numbered 1, failingChild)])
          (.ended result) [.asked (numbered 1) (.ok (.failed "exit code 3"))] (worldAt 11 2 []) ∧
        ∃ status : ToolStatus, .ok (.failed "exit code 3") = (.ok status : Outcome ToolStatus) ∧ status ≠ .unknown := by
  have hdispatch : (localExecutor identifier).serve (worldAt 0 0 []) (.dispatch failingTool) =
      (.dispatched failingTool (.ok (numbered 0)), worldAt 0 1 [(numbered 0, ⟨0, .code 3⟩)]) := by cbv
  have hrunning : (localExecutor identifier).serve (worldAt 0 1 [(numbered 0, failingChild)]) (.status (numbered 0)) =
      (.asked (numbered 0) (.ok .running), worldAt 0 1 [(numbered 0, failingChild)]) := by cbv
  have hfailed : (localExecutor identifier).serve (worldAt 10 1 [(numbered 0, failingChild)]) (.status (numbered 0)) =
      (.asked (numbered 0) (.ok (.failed "exit code 3")), worldAt 10 1 []) := by cbv
  have hgone : (localExecutor identifier).serve (worldAt 10 1 []) (.status (numbered 0)) =
      (.asked (numbered 0) (.ok .unknown), worldAt 10 1 []) := by cbv
  have hsecond : (localExecutor identifier).dispatch failingTool (worldAt 10 1 []) =
      (.ok (numbered 1), worldAt 10 2 [(numbered 1, failingChild)]) := by cbv
  have hpolled : Polling.complete (localExecutor identifier).recorded Polling.fastConfig 1
      (Polling.start Polling.fastConfig (numbered 1) (worldAt 10 2 [(numbered 1, failingChild)]).now) []
      ((worldAt 10 2 [(numbered 1, failingChild)]).recording []) =
        (some (.error (.dispatch ("tool " ++ numbered 1 ++ " failed: exit code 3"))), [],
          (worldAt 11 2 []).recording [.asked (numbered 1) (.ok (.failed "exit code 3"))]) := by cbv
  -- The first process turns out to end after ten milliseconds, and these go by after the first answer.
  have spawned : History identifier (worldAt 0 0 []) (failingExchanges.take 1)
      (worldAt 0 1 [(numbered 0, failingChild)]) :=
    (History.start.serves hdispatch).passes ⟨rfl, rfl⟩
  have waited : History identifier (worldAt 0 0 []) (failingExchanges.take 2)
      (worldAt 10 1 [(numbered 0, failingChild)]) :=
    (spawned.serves hrunning).passes ⟨rfl, rfl⟩
  have history : History identifier (worldAt 0 0 []) failingExchanges (worldAt 10 1 []) :=
    (waited.serves hfailed).serves hgone
  have awaited := Polling.Awaited.start.complete hpolled
  obtain ⟨hends, -, hactive, hseen⟩ := ends_reported_once identifier_injective rfl history
  refine ⟨identifier_injective, rfl, history, hends [] failingTool (numbered 0) _ rfl, ?_, hsecond, _, awaited, ?_⟩
  · rw [hactive]
    decide
  · exact (hseen hsecond awaited _ _ List.mem_cons_self).2

end WorkflowEngine.Tool
