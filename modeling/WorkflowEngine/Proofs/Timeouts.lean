import Mathlib.Algebra.Order.Floor.Div
import Mathlib.Tactic.Common
import Mathlib.Tactic.Positivity
import WorkflowEngine.Tool.Polling

/-!
# What ends polling

A tool is polled after waits that double up to a longest one.  Each status is a report about the tool at some
time, and the reports alone say when polling ends and how: with the tool, or when its status has been unknown
for too long, or when it has run for too long.

**Polls.**  `Watch`: a tool that was handed over.  `Watch.wait`, `Watch.report` and `Watch.time` say how long
is waited for a poll, what is reported at it, and when.  The executor may let any time go by while it is asked.

**Ends.**  `Watch.TerminalAt`, `Watch.LostAt` and `Watch.OverdueAt` are read off the reports and their times.
`Watch.Undisturbed`: up to the end there is always a report, the clock runs on, and the run is not cancelled.

**States.**  `Watch.polling` is the state before a poll.  One turn takes it to the next one (`turn_again`) or
ends (`turn_ended`), and so the whole loop is known (`run_add`).

**The loop.**  `polling_ends`, for every configuration that is accepted.
-/

namespace WorkflowEngine.Tool.Polling

/-! ## Polls -/

/-- A tool that was handed over. -/
structure Watch (ε : Type) where
  executor : Executor ε
  config : Configuration
  handle : String
  /-- The world in which it was handed over. -/
  world : World ε

namespace Watch

variable {ε : Type} (w : Watch ε)

/-- The wait before a poll: twice as long each time, up to a longest one. -/
def wait (k : ℕ) : ℕ := min (w.config.pollInterval.nanoseconds * 2 ^ k) w.config.maxPollInterval.nanoseconds

/-- The world after a wait. -/
def waited (world : World ε) (wait : ℕ) : World ε := { world with now := world.now + wait }

/-- The world after some polls. -/
def worldAfter : ℕ → World ε
  | 0 => w.world
  | k + 1 => (w.executor.status w.handle (waited (worldAfter k) (w.wait k))).2

/-- What is reported at a poll. -/
def report (k : ℕ) : Outcome ToolStatus := (w.executor.status w.handle (waited (w.worldAfter k) (w.wait k))).1

/-- The time of a report. -/
def time (k : ℕ) : ℕ := (w.worldAfter (k + 1)).now

lemma now_worldAfter_succ (k : ℕ) : (w.worldAfter (k + 1)).now = w.time k := rfl

/-- The tool is polled until polling ends, at most `fuel` times. -/
def run (fuel : ℕ) : Option (Outcome Unit) × List Event × World ε :=
  complete w.executor w.config fuel (start w.config w.handle w.world.now) [] w.world

/-! ## Ends -/

/-- The tool is reported to have ended. -/
def TerminalAt (k : ℕ) : Prop := ∃ status, w.report k = .ok status ∧ status.isTerminal = true

/-- Each report from one to another is that the status is unknown. -/
def UnknownFrom (j k : ℕ) : Prop := j ≤ k ∧ ∀ i, j ≤ i → i ≤ k → w.report i = .ok .unknown

/-- The status has been unknown for too long. -/
def LostAt (k : ℕ) : Prop :=
  ∃ j, w.UnknownFrom j k ∧ w.time j + w.config.unknownTimeout.nanoseconds ≤ w.time k

/-- The tool has run for too long. -/
def OverdueAt (k : ℕ) : Prop := w.world.now + w.config.taskTimeout.nanoseconds ≤ w.time k

/-- Polling ends with a poll. -/
def EndsAt (k : ℕ) : Prop := w.TerminalAt k ∨ w.LostAt k ∨ w.OverdueAt k

/-- Polling does not end before a poll. -/
def Reached (k : ℕ) : Prop := ∀ j < k, ¬ w.EndsAt j

/-- At each poll that is reached there is a report, later than the last one by the wait or more, and the run is
not cancelled. -/
structure Undisturbed : Prop where
  reports : ∀ {k}, w.Reached k → ∃ status, w.report k = .ok status
  runs_on : ∀ {k}, w.Reached k → (w.worldAfter k).now + w.wait k ≤ w.time k
  uncancelled : ∀ {k}, w.Reached k → (w.worldAfter k).cancelAt = none

/-- An executor that reports in every world, never sets the clock back and cancels no run leaves polling
undisturbed. -/
lemma undisturbed_of_steady (uncancelled : w.world.cancelAt = none)
    (steady : ∀ world, (∃ status, (w.executor.status w.handle world).1 = .ok status) ∧
      world.now ≤ (w.executor.status w.handle world).2.now ∧
      (w.executor.status w.handle world).2.cancelAt = world.cancelAt) : w.Undisturbed where
  reports _ := (steady _).1
  runs_on {k} _ := (steady (waited (w.worldAfter k) (w.wait k))).2.1
  uncancelled := by
    rintro k -
    induction k with
    | zero => exact uncancelled
    | succ k ih => exact (steady _).2.2.trans ih

lemma Reached.of_le {w : Watch ε} {j k : ℕ} (h : w.Reached k) (hjk : j ≤ k) : w.Reached j :=
  fun i hi => h i (hi.trans_le hjk)

lemma reached_succ {k : ℕ} : w.Reached (k + 1) ↔ w.Reached k ∧ ¬ w.EndsAt k :=
  Nat.forall_lt_succ_right

variable {w} in
lemma Reached.eq {j k : ℕ} (hj : w.Reached j) (hjends : w.EndsAt j) (hk : w.Reached k) (hkends : w.EndsAt k) :
    j = k :=
  Nat.le_antisymm (Nat.le_of_not_lt fun h => hj k h hkends) (Nat.le_of_not_lt fun h => hk j h hjends)

section Unknown

variable {w} {j k : ℕ}

lemma unknownFrom_self (h : w.report k = .ok .unknown) : w.UnknownFrom k k :=
  ⟨le_rfl, fun i hki hik => by rwa [le_antisymm hik hki]⟩

lemma UnknownFrom.report_eq (h : w.UnknownFrom j k) : w.report k = .ok .unknown := h.2 k h.1 le_rfl

lemma UnknownFrom.succ (h : w.UnknownFrom j k) (hnext : w.report (k + 1) = .ok .unknown) :
    w.UnknownFrom j (k + 1) := by
  refine ⟨h.1.trans (Nat.le_succ k), fun i hji hi => ?_⟩
  rcases Nat.le_succ_iff.mp hi with hi | rfl
  · exact h.2 i hji hi
  · exact hnext

lemma UnknownFrom.of_succ (h : w.UnknownFrom j (k + 1)) (hjk : j ≤ k) : w.UnknownFrom j k :=
  ⟨hjk, fun i hji hik => h.2 i hji (hik.trans (Nat.le_succ k))⟩

lemma LostAt.report_eq (h : w.LostAt k) : w.report k = .ok .unknown := by
  obtain ⟨j, hfrom, -⟩ := h
  exact hfrom.report_eq

end Unknown

/-! ## Waits -/

section Waits

variable {w} (valid : w.config.check = .ok ())

include valid

lemma intervals : 0 < w.config.pollInterval.nanoseconds ∧
    w.config.pollInterval.nanoseconds ≤ w.config.maxPollInterval.nanoseconds ∧
    0 < w.config.taskTimeout.nanoseconds := by
  rw [Configuration.check] at valid
  split_ifs at valid with hpoll hmax htask
  exact ⟨Nat.pos_of_ne_zero hpoll, not_lt.mp hmax, Nat.pos_of_ne_zero htask⟩

lemma wait_zero : w.wait 0 = w.config.pollInterval.nanoseconds := by
  simp [wait, (intervals valid).2.1]

lemma pollInterval_le_wait (k : ℕ) : w.config.pollInterval.nanoseconds ≤ w.wait k :=
  le_min (Nat.le_mul_of_pos_right _ (by positivity)) (intervals valid).2.1

end Waits

lemma wait_succ (k : ℕ) : w.wait (k + 1) = min (2 * w.wait k) w.config.maxPollInterval.nanoseconds := by
  simp only [wait, pow_succ, ← mul_assoc]
  omega

/-! ## Times -/

section Times

variable {w} (undisturbed : w.Undisturbed)

include undisturbed

lemma time_mono {j k : ℕ} (hjk : j ≤ k) (reached : w.Reached k) : w.time j ≤ w.time k := by
  induction k, hjk using Nat.le_induction with
  | base => exact le_rfl
  | succ k _ ih =>
      have hlast := ih (reached.of_le (Nat.le_succ k))
      have hnext := undisturbed.runs_on reached
      rw [now_worldAfter_succ] at hnext
      omega

variable (valid : w.config.check = .ok ())

include valid

lemma le_now {k : ℕ} (reached : w.Reached k) :
    w.world.now + k * w.config.pollInterval.nanoseconds ≤ (w.worldAfter k).now := by
  induction k with
  | zero => simp [worldAfter]
  | succ k ih =>
      have before := reached.of_le (Nat.le_succ k)
      have hlast := ih before
      have hnext := undisturbed.runs_on before
      have hwait := pollInterval_le_wait valid k
      rw [now_worldAfter_succ, add_mul, one_mul]
      omega

/-- There is a last poll before waits of the shortest length use up the task timeout. -/
lemma exists_last :
    ∃ last < w.config.taskTimeout.nanoseconds ⌈/⌉ w.config.pollInterval.nanoseconds,
      w.Reached last ∧ w.EndsAt last := by
  classical
  suffices hends :
      ∃ k < w.config.taskTimeout.nanoseconds ⌈/⌉ w.config.pollInterval.nanoseconds, w.EndsAt k by
    obtain ⟨k, hk, ends⟩ := hends
    exact ⟨Nat.find ⟨k, ends⟩, (Nat.find_min' ⟨k, ends⟩ ends).trans_lt hk, fun j hj => Nat.find_min _ hj,
      Nat.find_spec ⟨k, ends⟩⟩
  obtain ⟨hpoll, -, htask⟩ := intervals valid
  have hcover := le_smul_ceilDiv (b := w.config.taskTimeout.nanoseconds) hpoll
  rw [smul_eq_mul, mul_comm] at hcover
  by_contra hnone
  have reached : w.Reached (w.config.taskTimeout.nanoseconds ⌈/⌉ w.config.pollInterval.nanoseconds) :=
    fun j hj hends => hnone ⟨j, hj, hends⟩
  have hlate := le_now undisturbed valid reached
  generalize w.config.taskTimeout.nanoseconds ⌈/⌉ w.config.pollInterval.nanoseconds = polls at *
  cases polls with
  | zero => omega
  | succ last =>
      rw [now_worldAfter_succ] at hlate
      exact (reached_succ w).mp reached |>.2 (.inr (.inr (by rw [OverdueAt]; omega)))

end Times

/-! ## States -/

/-- The time of the first report of those without interruption, up to a poll, that the status is unknown. -/
def unknownSince : ℕ → Option ℕ
  | 0 => none
  | k + 1 => match w.report k with
    | .ok .unknown => some ((unknownSince k).getD (w.time k))
    | _ => none

/-- The state before a poll. -/
def polling (k : ℕ) : Polling where
  handle := w.handle
  started := w.world.now
  delay := w.wait k
  wake := (w.worldAfter k).now + w.wait k
  unknownSince := w.unknownSince k

lemma start_eq (valid : w.config.check = .ok ()) : start w.config w.handle w.world.now = w.polling 0 := by
  simp only [start, polling, wait_zero valid, worldAfter, unknownSince]

lemma unknownSince_succ {k : ℕ} (h : w.report k = .ok .unknown) :
    w.unknownSince (k + 1) = some ((w.unknownSince k).getD (w.time k)) := by
  rw [unknownSince, h]

lemma unknownSince_succ_of_ne {k : ℕ} (h : w.report k ≠ .ok .unknown) :
    w.unknownSince (k + 1) = none := by
  rw [unknownSince]
  split
  · exact absurd ‹_› h
  · rfl

/-- The timer of unknown reports was set at the first of them. -/
lemma exists_first {k : ℕ} (h : w.report k = .ok .unknown) :
    ∃ j, w.UnknownFrom j k ∧ (w.unknownSince k).getD (w.time k) = w.time j ∧
      ∀ i, w.UnknownFrom i k → j ≤ i := by
  induction k with
  | zero => exact ⟨0, unknownFrom_self h, rfl, fun i _ => Nat.zero_le i⟩
  | succ k ih =>
      by_cases hlast : w.report k = .ok .unknown
      · -- The run of unknown reports goes on.
        obtain ⟨j, hfrom, htime, hfirst⟩ := ih hlast
        refine ⟨j, hfrom.succ h, by rw [w.unknownSince_succ hlast]; exact htime, fun i hi => ?_⟩
        rcases Nat.le_succ_iff.mp hi.1 with hik | rfl
        · exact hfirst i (hi.of_succ hik)
        · exact hfrom.1.trans (Nat.le_succ k)
      · -- It starts here.
        refine ⟨k + 1, unknownFrom_self h, by rw [w.unknownSince_succ_of_ne hlast]; rfl, fun i hi => ?_⟩
        by_contra hik
        exact hlast (hi.of_succ (by omega)).report_eq

variable {w} in
lemma continue_overdue {k : ℕ} (overdue : w.OverdueAt k) (since : Option ℕ) :
    continue_ w.config (w.polling k) (w.time k) since = .overdue := by
  rw [OverdueAt] at overdue
  rw [continue_, if_pos (by simp only [polling]; omega)]

variable {w} in
lemma continue_again (valid : w.config.check = .ok ()) {k : ℕ} (intime : ¬ w.OverdueAt k) :
    continue_ w.config (w.polling k) (w.time k) (w.unknownSince (k + 1)) = .again (w.polling (k + 1)) := by
  have htask := (intervals valid).2.2
  rw [OverdueAt] at intime
  rw [continue_, if_neg (by simp only [polling]; omega)]
  simp only [polling, ← wait_succ, now_worldAfter_succ]

/-- A failure about a tool is not the one about its status. -/
lemma dispatch_tool_ne_lost {config : Configuration} {handle text : String} :
    Failure.dispatch ("tool " ++ text) ≠ lost config handle := by
  intro h
  have hmessage : "tool " ++ text = "status of " ++ handle ++ " unknown for " ++ config.unknownTimeout.text := by
    simpa [Failure.dispatch, lost, Failure.of] using h
  have hchars := congrArg String.toList hmessage
  simp at hchars

lemma tooLong_ne_lost {config : Configuration} {handle : String} :
    tooLong config handle ≠ lost config handle := by
  rw [tooLong, String.append_assoc, String.append_assoc]
  exact dispatch_tool_ne_lost

section Turns

variable {w} (undisturbed : w.Undisturbed) {k : ℕ} (reached : w.Reached k)

include undisturbed reached

/-- The timer says whether the status has been unknown for too long. -/
lemma lostAt_iff (h : w.report k = .ok .unknown) :
    w.LostAt k ↔
      w.config.unknownTimeout.nanoseconds ≤ w.time k - (w.unknownSince k).getD (w.time k) := by
  obtain ⟨j, hfrom, htime, hfirst⟩ := w.exists_first h
  have hmono : w.time j ≤ w.time k := time_mono undisturbed hfrom.1 reached
  rw [htime]
  constructor
  · rintro ⟨i, hi, hlong⟩
    have hji : w.time j ≤ w.time i := time_mono undisturbed (hfirst i hi) (reached.of_le hi.1)
    omega
  · intro hlong
    exact ⟨j, hfrom, by omega⟩

lemma turn_polling {status : ToolStatus} (hreport : w.report k = .ok status) :
    turn w.executor w.config (w.polling k) (waited (w.worldAfter k) (w.wait k)) =
      match judge w.config (w.polling k) (w.time k) status with
      | .ended result => (.ended result, [], w.worldAfter (k + 1))
      | .again p => (.again p, [], w.worldAfter (k + 1))
      | .overdue =>
        let (events, world) := stop w.executor w.handle (w.worldAfter (k + 1))
        (.ended (.error (tooLong w.config w.handle)), events, world) := by
  have hasked : w.executor.status w.handle (waited (w.worldAfter k) (w.wait k)) =
      (.ok status, w.worldAfter (k + 1)) := Prod.ext hreport rfl
  have hgoes : (waited (w.worldAfter k) (w.wait k)).cancelled = false := by
    rw [World.cancelled, waited, undisturbed.uncancelled reached]
    rfl
  rw [turn, hgoes]
  simp only [polling, hasked]
  rfl

/-- The loop waits for the next poll, and not for a cancellation. -/
lemma complete_polling {p : Progress} {events : List Event} {after : World ε}
    (hturn : turn w.executor w.config (w.polling k) (waited (w.worldAfter k) (w.wait k)) = (p, events, after))
    (fuel : ℕ) :
    complete w.executor w.config (fuel + 1) (w.polling k) [] (w.worldAfter k) =
      match p with
      | .ended result => (some result, events, after)
      | .again next => complete w.executor w.config fuel next events after := by
  have hwake : max (w.worldAfter k).now (w.polling k).wake = (w.worldAfter k).now + w.wait k :=
    max_eq_right (Nat.le_add_right _ _)
  rw [waited, undisturbed.uncancelled reached] at hturn
  simp only [complete, undisturbed.uncancelled reached, hwake, hturn, List.nil_append]
  cases p with
  | ended result => rfl
  | again next => rfl

/-- **One turn**, where polling goes on: the state before a poll becomes the state before the next one. -/
lemma turn_again (valid : w.config.check = .ok ()) (goes : ¬ w.EndsAt k) :
    turn w.executor w.config (w.polling k) (waited (w.worldAfter k) (w.wait k)) =
      (.again (w.polling (k + 1)), [], w.worldAfter (k + 1)) := by
  obtain ⟨status, hreport⟩ := undisturbed.reports reached
  simp only [EndsAt, not_or] at goes
  obtain ⟨hterminal, hlost, hoverdue⟩ := goes
  have hjudge : judge w.config (w.polling k) (w.time k) status = .again (w.polling (k + 1)) := by
    rw [← continue_again valid hoverdue]
    cases status with
    | running => rw [judge, w.unknownSince_succ_of_ne (by rw [hreport]; nofun)]
    | unknown =>
        rw [lostAt_iff undisturbed reached hreport] at hlost
        rw [w.unknownSince_succ hreport]
        exact if_neg hlost
    | completed => exact absurd ⟨_, hreport, rfl⟩ hterminal
    | failed reason => exact absurd ⟨_, hreport, rfl⟩ hterminal
  rw [turn_polling undisturbed reached hreport, hjudge]

/-- **One turn**, where polling ends: the result says how. -/
lemma turn_ended (ends : w.EndsAt k) :
    ∃ result events final,
      turn w.executor w.config (w.polling k) (waited (w.worldAfter k) (w.wait k)) =
        (.ended result, events, final) ∧
      (result = .ok () ↔ w.report k = .ok .completed) ∧
      (result = .error (lost w.config w.handle) ↔ w.LostAt k) := by
  obtain ⟨status, hreport⟩ := undisturbed.reports reached
  rw [turn_polling undisturbed reached hreport]
  have unlost (h : status ≠ .unknown) : ¬ w.LostAt k := fun hlost =>
    h (Except.ok.inj (hreport.symm.trans hlost.report_eq))
  have unsuccessful (h : status ≠ .completed) : w.report k ≠ .ok .completed := fun hcompleted =>
    h (Except.ok.inj (hreport.symm.trans hcompleted))
  -- What is left when neither the tool nor the timer of unknown reports ends polling.
  have hoverdue (goes : status.isTerminal = false) (kept : ¬ w.LostAt k) : w.OverdueAt k := by
    rcases ends with ⟨_, hreport', hterminal⟩ | h | h
    · cases hreport.symm.trans hreport'
      cases goes.symm.trans hterminal
    · exact absurd h kept
    · exact h
  cases status with
  | completed => exact ⟨_, _, _, rfl, iff_of_true rfl hreport, iff_of_false nofun (unlost nofun)⟩
  | failed reason =>
      refine ⟨_, _, _, rfl, iff_of_false nofun (unsuccessful nofun), iff_of_false ?_ (unlost nofun)⟩
      rw [Except.error.injEq, String.append_assoc, String.append_assoc]
      exact dispatch_tool_ne_lost
  | running =>
      rw [judge, continue_overdue (hoverdue rfl (unlost nofun))]
      exact ⟨_, _, _, rfl, iff_of_false nofun (unsuccessful nofun),
        iff_of_false (fun h => tooLong_ne_lost (Except.error.inj h)) (unlost nofun)⟩
  | unknown =>
      have htimer := lostAt_iff undisturbed reached hreport
      by_cases hlost : w.LostAt k
      · have hjudge : judge w.config (w.polling k) (w.time k) .unknown =
            .ended (.error (lost w.config w.handle)) :=
          if_pos (htimer.mp hlost)
        rw [hjudge]
        exact ⟨_, _, _, rfl, iff_of_false nofun (unsuccessful nofun), iff_of_true rfl hlost⟩
      · have hjudge : judge w.config (w.polling k) (w.time k) .unknown = .overdue :=
          (if_neg (htimer.not.mp hlost)).trans (continue_overdue (hoverdue rfl hlost) _)
        rw [hjudge]
        exact ⟨_, _, _, rfl, iff_of_false nofun (unsuccessful nofun),
          iff_of_false (fun h => tooLong_ne_lost (Except.error.inj h)) hlost⟩

end Turns

/-! ## The loop -/

section Loop

variable {w} (valid : w.config.check = .ok ()) (undisturbed : w.Undisturbed)

include valid undisturbed

/-- **The loop**, up to a poll: it goes on from the state before that poll. -/
lemma run_add {k : ℕ} (reached : w.Reached k) (fuel : ℕ) :
    w.run (k + fuel) = complete w.executor w.config fuel (w.polling k) [] (w.worldAfter k) := by
  induction k generalizing fuel with
  | zero =>
      rw [Nat.zero_add, run, w.start_eq valid, worldAfter]
  | succ k ih =>
      obtain ⟨before, goes⟩ := (reached_succ w).mp reached
      have hturn := turn_again undisturbed before valid goes
      rw [Nat.add_right_comm, Nat.add_assoc, ih before, complete_polling undisturbed before hturn]

end Loop

/-- **Polling ends, and decides by the reports.**  There are at most as many polls as waits of the first length
fill the task timeout, and each wait is twice the one before, up to the longest.  The tool has succeeded exactly
if the first end is the report that it completed; it is given up as lost exactly if the first end is that its
status has been unknown for too long. -/
theorem polling_ends (valid : w.config.check = .ok ()) (undisturbed : w.Undisturbed) :
    ∃ polls ≤ w.config.taskTimeout.nanoseconds ⌈/⌉ w.config.pollInterval.nanoseconds,
      ∃ result events final,
        (∀ fuel, w.run (polls + fuel) = (some result, events, final)) ∧
        (∀ k < polls, w.run k = (none, [], w.worldAfter k) ∧
          ∃ p : Polling, p.delay = w.wait k ∧ p.wake = (w.worldAfter k).now + w.wait k ∧
            ∀ fuel, w.run (k + fuel) = complete w.executor w.config fuel p [] (w.worldAfter k)) ∧
        (result = .ok () ↔ ∃ k, w.report k = .ok .completed ∧ w.Reached k) ∧
        (result = .error (lost w.config w.handle) ↔ ∃ k, w.LostAt k ∧ w.Reached k) := by
  obtain ⟨last, hlast, reached, ends⟩ := exists_last undisturbed valid
  obtain ⟨result, events, final, hturn, hcompleted, hlost⟩ := turn_ended undisturbed reached ends
  refine ⟨last + 1, hlast, result, events, final, ?_, ?_, ?_, ?_⟩
  · intro fuel
    rw [Nat.add_right_comm, Nat.add_assoc, run_add valid undisturbed reached,
      complete_polling undisturbed reached hturn]
  · intro k hk
    have before := reached.of_le (Nat.le_of_lt_succ hk)
    exact ⟨run_add valid undisturbed before 0, w.polling k, rfl, rfl, run_add valid undisturbed before⟩
  · rw [hcompleted]
    constructor
    · intro h
      exact ⟨last, h, reached⟩
    · rintro ⟨k, h, hk⟩
      rwa [reached.eq ends hk (.inl ⟨_, h, rfl⟩)]
  · rw [hlost]
    constructor
    · intro h
      exact ⟨last, h, reached⟩
    · rintro ⟨k, h, hk⟩
      rwa [reached.eq ends hk (.inr (.inl h))]

end Watch

/-- An executor that reports the statuses of a list, and the last one again and again. -/
def scripted : Executor (List ToolStatus) where
  dispatch _ world := (.ok "job-1", world)
  status _ world :=
    match world.executor with
    | [] => (.ok .unknown, world)
    | [status] => (.ok status, world)
    | status :: rest => (.ok status, { world with executor := rest })
  cancel _ world := (.ok (), world)

/-- Polls after one, two, and then always four milliseconds, and gives up after thirty. -/
def fastConfig : Configuration :=
  { Configuration.standard with
    pollInterval := .ofMilliseconds 1
    maxPollInterval := .ofMilliseconds 4
    unknownTimeout := .ofMilliseconds 30 }

/-- A tool whose status is never known. -/
def vanished : Watch (List ToolStatus) where
  executor := scripted
  config := fastConfig
  handle := "job-1"
  world := ⟨default, 0, none, [.unknown]⟩

lemma scripted_steady (handle : String) (world : World (List ToolStatus)) :
    (∃ status, (scripted.status handle world).1 = .ok status) ∧
      world.now ≤ (scripted.status handle world).2.now ∧
      (scripted.status handle world).2.cancelAt = world.cancelAt := by
  simp only [scripted]
  split <;> exact ⟨⟨_, rfl⟩, le_rfl, rfl⟩

/-- The tool is given up as lost at the ninth poll, after 31 milliseconds. -/
theorem vanished_lost :
    fastConfig.check = .ok () ∧ vanished.Undisturbed ∧
      (vanished.run 9).1 = some (.error (lost fastConfig "job-1")) ∧
      ∃ k, vanished.LostAt k ∧ vanished.Reached k := by
  have valid : fastConfig.check = .ok () := by rfl
  have undisturbed : vanished.Undisturbed :=
    vanished.undisturbed_of_steady rfl (scripted_steady vanished.handle)
  have hnine : (vanished.run 9).1 = some (.error (lost fastConfig "job-1")) := by rfl
  obtain ⟨polls, -, result, events, final, hend, hgoes, -, hlost⟩ := vanished.polling_ends valid undisturbed
  have hpolls : polls ≤ 9 := by
    by_contra hmore
    rw [(hgoes 9 (Nat.lt_of_not_le hmore)).1] at hnine
    cases hnine
  obtain ⟨fuel, hfuel⟩ := Nat.exists_eq_add_of_le hpolls
  refine ⟨valid, undisturbed, hnine, hlost.mp ?_⟩
  rw [hfuel, hend fuel] at hnine
  exact Option.some.inj hnine

end WorkflowEngine.Tool.Polling
