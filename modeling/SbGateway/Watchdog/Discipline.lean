import SbGateway.Lib.Window
import SbGateway.Watchdog.Cycle

namespace SbGateway.Watchdog

open Lib

/-!
# The discipline of restarts

What holds in every run of the watchdog, over any number of processes:

* `Run.streak_spec` — a termination comes after enough failures of one class in a row;
* `Run.window_spec` — the cycles that are put off between two verified generations lie in one
  window;
* `Run.lease_spec` — a failed deep probe leaves no lease that can be removed;
* `Run.budget_spec` — where each termination is recorded, no hour has more than the budget allows.

`watchdog_discipline` puts them together; `sampleUnrecorded_exceeds` is a run in which the history
cannot be written and the container is terminated more often than the budget allows.
-/

variable {settings : Settings} {w : World} {trace : List Entry}

/-- A part of a run is a run. -/
theorem Run.of_append (h : Run settings w (after ++ before)) : ∃ w', Run settings w' before := by
  induction after generalizing w with
  | nil => exact ⟨w, h⟩
  | cons entry after ih =>
    cases h with
    | boot h => exact ih h
    | cycle h => exact ih h

/-! ### Streaks of failures -/

/-- The class of a cycle that failed. -/
def Kind.failureClass? : Kind → Option FailureClass
  | .failed c | .exhausted c | .terminated c | .exited c => some c
  | _ => none

/-- The failures of a class in a row; a pending probe says nothing. -/
def streak (c : FailureClass) : List Entry → ℕ
  | [] => 0
  | .boot :: _ => 0
  | .cycle _ kind :: before =>
    if kind.failureClass? = some c then streak c before + 1
    else if kind = .probePending then streak c before else 0

/-- A process counts no more failures than there were. -/
def Runner.Counts (r : Runner) (trace : List Entry) : Prop :=
  r.failures = 0 ∨ ∃ c, r.activeFailureClass = some c ∧ r.failures ≤ streak c trace

variable {r : Runner}

/-- One more failure. -/
theorem Runner.fail_counts (h : r.Counts trace) (reasons : List String) :
    (r.fail reasons).failures ≤ streak (classifyFailure reasons) trace + 1 := by
  simp only [Runner.fail, nextFailureStreak]
  split
  · exact Nat.le_add_left _ _
  · rename_i hclass
    rcases h with hzero | ⟨c, hactive, hcount⟩
    · simp [hzero]
    · have hc : classifyFailure reasons = c := by
        rw [hactive] at hclass
        exact Option.some.inj (not_not.mp hclass)
      rw [hc]
      exact Nat.add_le_add_right hcount 1

variable {obs : Observation}

/-- A failed cycle continues the streak of its class. -/
theorem streak_failed (h : kind.failureClass? = some c) :
    streak c (.cycle obs kind :: trace) = streak c trace + 1 := by
  rw [streak, if_pos h]

/-- After a cycle the count is right, and there were enough failures for a termination. -/
def Counted (settings : Settings) (obs : Observation) (trace : List Entry)
    (after : World × Kind) : Prop :=
  (∀ r', after.1.process = some r' → r'.Counts (.cycle obs after.2 :: trace)) ∧
    ∀ c, after.2 = .terminated c → c = classifyFailure obs.reasons ∧
      failureThresholdForReasons settings.failureThreshold obs.reasons ≤
        streak c (.cycle obs after.2 :: trace)

theorem cycle_counted (h : r.Counts trace) :
    Counted settings obs trace (cycle settings obs w r) := by
  refine cycle_cases (fun kind hkind => ⟨?_, ?_⟩) (fun _ => ⟨?_, nofun⟩) (fun _ _ => ⟨?_, nofun⟩)
    (fun _ window _ => ⟨?_, nofun⟩) (fun _ window _ => ?_)
  · rintro r' ⟨⟩
    exact .inl rfl
  · intro c hc
    rcases pause_kind hkind with rfl | rfl | rfl <;> cases hc
  · -- a pending probe changes neither the count nor the streak
    rintro r' ⟨⟩
    rcases h with hzero | ⟨c, hactive, hcount⟩
    · exact .inl hzero
    · have hstreak : streak c (.cycle obs .probePending :: trace) = streak c trace := rfl
      exact .inr ⟨c, hactive, hstreak ▸ hcount⟩
  · rintro r' ⟨⟩
    exact .inl rfl
  · rintro r' ⟨⟩
    exact .inl rfl
  · have hprobed : Runner.Counts { (probed obs w r).2 with coreRecovery := window } trace := h
    have hcount := Runner.fail_counts hprobed obs.reasons
    refine failing_cases ⟨?_, nofun⟩ (fun _ _ => ⟨?_, nofun⟩) (fun hthreshold _ => ⟨nofun, ?_⟩)
    · rintro r' ⟨⟩
      refine .inr ⟨classifyFailure obs.reasons, ?_, ?_⟩
      · simp only [Runner.fail, nextFailureStreak]
        split <;> rfl
      · rw [streak_failed rfl]
        exact hcount
    · rintro r' ⟨⟩
      exact .inl rfl
    · intro c hc
      split at hc
      · obtain rfl := Kind.terminated.inj hc
        refine ⟨rfl, ?_⟩
        rw [if_pos ‹_›, streak_failed rfl]
        exact hthreshold.trans hcount
      · cases hc

/-- In every run a process counts no more failures than there were. -/
theorem Run.counts (h : Run settings w trace) : ∀ r, w.process = some r → r.Counts trace := by
  induction h with
  | start w hnone =>
    intro r hr
    rw [hnone] at hr
    cases hr
  | boot _ now _ access removes _ =>
    rintro r ⟨⟩
    exact .inl rfl
  | cycle _ hr obs _ ih => exact (cycle_counted (ih _ hr)).1

/-- **Streaks.** A termination comes after enough failures of its class in a row. -/
theorem Run.streak_spec (h : Run settings w (.cycle obs (.terminated c) :: before)) :
    c = classifyFailure obs.reasons ∧
      failureThresholdForReasons settings.failureThreshold obs.reasons ≤
        streak c (.cycle obs (.terminated c) :: before) := by
  generalize hentry : Entry.cycle obs (.terminated c) = entry at h
  cases h with
  | boot => cases hentry
  | cycle h hr obs' hclock =>
    obtain ⟨rfl, hkind⟩ := Entry.cycle.inj hentry
    exact (cycle_counted (h.counts _ hr)).2 c hkind.symm

/-! ### Failures that are put off -/

/-- The times of the cycles that were put off since a generation was verified. -/
def deferredSince : List Entry → List ℤ
  | [] => []
  | .boot :: before => deferredSince before
  | .cycle obs kind :: before =>
    if kind = .healthy then []
    else if kind = .deferred then obs.later :: deferredSince before else deferredSince before

/-- The times lie in one window. -/
def InWindow (length : ℤ) (times : List ℤ) : Prop :=
  ∃ first, ∀ t ∈ times, first ≤ t ∧ t < first + length

/-- The window knows the times; a window without a generation puts nothing off. -/
structure CoreRecoveryWindow.Tracks (window : CoreRecoveryWindow) (length clock : ℤ)
    (times : List ℤ) : Prop where
  closed : window.generation ≠ "" → window.deadline = none → times = []
  opened : window.generation ≠ "" → ∀ deadline, window.deadline = some deadline →
    deadline - length ≤ clock ∧ ∀ t ∈ times, deadline - length ≤ t ∧ t < deadline

variable {window : CoreRecoveryWindow} {length clock now : ℤ} {times : List ℤ}

theorem CoreRecoveryWindow.Tracks.later (h : window.Tracks length clock times)
    (hclock : clock ≤ now) : window.Tracks length now times where
  closed := h.closed
  opened := fun hgeneration deadline hdeadline =>
    ⟨(h.opened hgeneration deadline hdeadline).1.trans hclock,
      (h.opened hgeneration deadline hdeadline).2⟩

/-- A window tracks no times if it is closed, or belongs to no generation. -/
theorem CoreRecoveryWindow.tracks_closed (generation : String) :
    (CoreRecoveryWindow.mk generation none).Tracks length clock [] :=
  ⟨fun _ _ => rfl, nofun⟩

variable {window' : CoreRecoveryWindow}

/-- Failures that are not put off leave the times as they are. -/
theorem CoreRecoveryWindow.Tracks.of_not_deferred
    {generation : String} (h : window.Tracks length clock times) (hclock : clock ≤ now)
    (hdefer : window.deferFailures now length generation reasons = (window', false)) :
    window'.Tracks length now times := by
  rw [CoreRecoveryWindow.deferFailures] at hdefer
  split at hdefer
  · obtain ⟨rfl, -⟩ := Prod.mk.inj hdefer
    exact h.later hclock
  · split at hdefer
    · rename_i hclosed
      split at hdefer
      · obtain ⟨rfl, -⟩ := Prod.mk.inj hdefer
        exact h.later hclock
      · -- the window opens, although these failures are not put off
        obtain ⟨rfl, -⟩ := Prod.mk.inj hdefer
        refine ⟨nofun, fun hgeneration deadline hdeadline => ?_⟩
        obtain rfl := Option.some.inj hdeadline
        rw [h.closed hgeneration hclosed]
        exact ⟨by omega, by simp⟩
    · obtain ⟨rfl, -⟩ := Prod.mk.inj hdefer
      exact h.later hclock

/-- Failures that are put off lie in the window. -/
theorem CoreRecoveryWindow.Tracks.of_deferred
    {generation : String} (h : window.Tracks length clock times) (hclock : clock ≤ now)
    (hdefer : window.deferFailures now length generation reasons = (window', true)) :
    window'.Tracks length now (now :: times) ∧ InWindow length (now :: times) := by
  rw [CoreRecoveryWindow.deferFailures] at hdefer
  split at hdefer
  · cases hdefer
  · rename_i hopen
    have hgeneration : window.generation ≠ "" := fun heq => hopen (.inl heq)
    have hlength : 0 < length := by
      by_contra hle
      exact hopen (.inr (.inl (by omega)))
    split at hdefer
    · rename_i hclosed
      split at hdefer
      · cases hdefer
      · obtain ⟨rfl, -⟩ := Prod.mk.inj hdefer
        rw [h.closed hgeneration hclosed]
        refine ⟨⟨nofun, fun _ deadline hdeadline => ?_⟩, now, by simpa using hlength⟩
        obtain rfl := Option.some.inj hdeadline
        exact ⟨by omega, by simpa using hlength⟩
    · rename_i deadline hdeadline
      obtain ⟨rfl, hput⟩ := Prod.mk.inj hdefer
      obtain ⟨hbegin, htimes⟩ := h.opened hgeneration deadline hdeadline
      have hnow : now < deadline := by
        rw [Bool.and_eq_true] at hput
        exact of_decide_eq_true hput.1
      have hall : ∀ t ∈ now :: times, deadline - length ≤ t ∧ t < deadline := by
        rw [List.forall_mem_cons]
        exact ⟨⟨by omega, hnow⟩, htimes⟩
      refine ⟨⟨fun _ hnone => ?_, fun _ deadline' hdeadline' => ?_⟩, deadline - length, ?_⟩
      · rw [hdeadline] at hnone
        cases hnone
      · rw [hdeadline] at hdeadline'
        obtain rfl := Option.some.inj hdeadline'
        exact ⟨by omega, hall⟩
      · simpa using hall

/-- A generation is verified only if there is one. -/
theorem generation_of_reasons_nil (h : obs.reasons = []) : obs.generation ≠ "" := by
  intro heq
  simp [Observation.reasons, heq] at h

/-- The cycles that were put off since a generation was verified lie in one window, and the process
    knows it. -/
def Deferred (settings : Settings) (w : World) (trace : List Entry) : Prop :=
  InWindow settings.startupGrace (deferredSince trace) ∧
    ∀ r, w.process = some r →
      r.coreRecovery.Tracks settings.startupGrace w.clock (deferredSince trace)

theorem cycle_deferred (hr : w.process = some r)
    (hclock : obs.Ordered w.clock) (h : Deferred settings w trace) :
    Deferred settings (cycle settings obs w r).1
      (.cycle obs (cycle settings obs w r).2 :: trace) := by
  obtain ⟨hwindow, htracks⟩ := h
  have htracks := htracks r hr
  obtain ⟨hstart, hnow, hlater, hfinish⟩ := hclock
  have hfinished := htracks.later (show w.clock ≤ obs.finish by omega)
  refine cycle_cases (P := fun after => Deferred settings after.1 (.cycle obs after.2 :: trace))
    (fun kind hkind => ?_) (fun _ => ?_) (fun _ hreasons => ?_) (fun _ window hdefer => ?_)
    (fun _ window hdefer => ?_)
  · have htimes : deferredSince (.cycle obs kind :: trace) = deferredSince trace := by
      rcases pause_kind hkind with rfl | rfl | rfl <;> rfl
    refine ⟨htimes ▸ hwindow, fun r' hr' => ?_⟩
    obtain rfl := Option.some.inj hr'
    exact htimes ▸ hfinished
  · refine ⟨hwindow, fun r' hr' => ?_⟩
    obtain rfl := Option.some.inj hr'
    exact hfinished
  · refine ⟨⟨0, by simp [deferredSince]⟩, fun r' hr' => ?_⟩
    obtain rfl := Option.some.inj hr'
    have hverified : (probed obs w r).2.coreRecovery.verified obs.generation =
        ⟨obs.generation, none⟩ := if_neg (generation_of_reasons_nil hreasons)
    simp only [hverified]
    exact CoreRecoveryWindow.tracks_closed _
  · obtain ⟨htracks', hwindow'⟩ := htracks.of_deferred (show w.clock ≤ obs.later by omega) hdefer
    refine ⟨hwindow', fun r' hr' => ?_⟩
    obtain rfl := Option.some.inj hr'
    exact htracks'.later hfinish
  · have htracks' := (htracks.of_not_deferred (show w.clock ≤ obs.later by omega) hdefer).later
      hfinish
    refine failing_cases (P := fun after => Deferred settings after.1 (.cycle obs after.2 :: trace))
      ⟨hwindow, fun r' hr' => ?_⟩ (fun _ _ => ⟨hwindow, fun r' hr' => ?_⟩)
      (fun _ _ => ⟨?_, nofun⟩)
    · obtain rfl := Option.some.inj hr'
      exact htracks'
    · obtain rfl := Option.some.inj hr'
      exact htracks'
    · split <;> exact hwindow

/-- **Windows.** The cycles that are put off between two verified generations lie in one window of
    the configured length. -/
theorem Run.window_spec (h : Run settings w trace) : Deferred settings w trace := by
  induction h with
  | start w hnone =>
    refine ⟨⟨0, by simp [deferredSince]⟩, fun r hr => ?_⟩
    rw [hnone] at hr
    cases hr
  | boot _ now _ access removes ih =>
    refine ⟨ih.1, fun r hr => ?_⟩
    obtain rfl := Option.some.inj hr
    exact ⟨fun hgeneration => absurd rfl hgeneration, fun hgeneration => absurd rfl hgeneration⟩
  | cycle _ hr obs hclock ih => exact cycle_deferred hr hclock ih

/-! ### The lease -/

/-- A failed deep probe is a reason. -/
theorem reasons_ne_nil (h : obs.deepHealthy = false) : obs.reasons ≠ [] := by
  intro hnil
  have hlast := (List.append_eq_nil_iff.mp hnil).2
  rw [h, if_neg Bool.false_ne_true] at hlast
  split at hlast
  · cases hlast
  · contradiction

/-- **The lease.** A deep probe that failed, and not for the first time, leaves no lease that can be
    removed. -/
theorem cycle_lease (hpause : obs.pause = none)
    (hdeep : obs.deepHealthy = false) (hinitial : obs.initialProbe = false)
    (hremoves : obs.removes = true) : (cycle settings obs w r).1.lease = none := by
  have hprobed : (probed obs w r).1.lease = none := by
    simp [probed, leaseAfterProbes, hdeep, hinitial, hremoves, clearLease]
  refine cycle_cases (P := fun after => after.1.lease = none) (fun kind hkind => ?_) (fun _ => ?_)
    (fun _ hreasons => ?_) (fun _ window _ => ?_) (fun _ window _ => ?_)
  · rw [hpause] at hkind
    cases hkind
  · exact hprobed
  · exact absurd hreasons (reasons_ne_nil hdeep)
  · simp [deferring, hremoves, clearLease]
  · refine failing_cases (P := fun after => after.1.lease = none) hprobed (fun _ _ => ?_)
      (fun _ _ => ?_) <;> simp [hremoves, clearLease]

/-! ### The budget -/

/-- The times of the terminations, the latest first. -/
def terminations : List Entry → List ℤ
  | [] => []
  | .cycle obs (.terminated _) :: before => obs.now :: terminations before
  | _ :: before => terminations before

/-- A termination is recorded: the history is read and written, and no earlier termination of the
    last hour is on the second at which the history forgets.  Where the container could not be
    terminated the history is at least read before it is written. -/
def Recorded (before : List Entry) : Entry → Prop
  | .cycle obs (.terminated _) =>
    obs.secondPrune.read = true ∧ obs.record.read = true ∧ obs.record.write = true ∧
      ∀ t ∈ terminations before, obs.now - t < hour → unix obs.now - unix t < 3600
  | .cycle obs (.exited _) => obs.record.read = true
  | _ => True

/-- Every termination is recorded. -/
def AllRecorded : List Entry → Prop
  | [] => True
  | entry :: before => Recorded before entry ∧ AllRecorded before

/-- The seconds that the history must know at a time. -/
def recent (now : ℤ) (trace : List Entry) : List ℤ :=
  ((terminations trace).map unix).filter fun value => decide (unix (now - hour) < value)

/-- The history knows the terminations of the last hour, and none is in the future. -/
structure Remembers (history : History) (clock : ℤ) (trace : List Entry) : Prop where
  past : ∀ t ∈ terminations trace, t ≤ clock
  known : (recent clock trace).Subperm history.values

theorem unix_mono (h : s ≤ t) : unix s ≤ unix t := Int.ediv_le_ediv (by decide) h

theorem values_timestampBody (values : List ℤ) : (timestampBody values).values = values := by
  simp [timestampBody, History.values]

variable {history : History}

section

variable (h : Remembers history clock trace) (hclock : clock ≤ now)
include h hclock

/-- At a later time the history knows what it must know then. -/
theorem Remembers.valid : (recent now trace).Subperm (history.valid now) := by
  have hfiltered := h.known.filter fun value =>
    decide (unix (now - hour) < value ∧ value ≤ unix now)
  have hrecent : (recent clock trace).filter (fun value =>
      decide (unix (now - hour) < value ∧ value ≤ unix now)) = recent now trace := by
    rw [recent, recent, List.filter_filter]
    refine List.filter_congr fun value hvalue => ?_
    obtain ⟨t, ht, rfl⟩ := List.mem_map.mp hvalue
    have hpast : unix t ≤ unix now := unix_mono ((h.past t ht).trans hclock)
    have hcutoff : unix (clock - hour) ≤ unix (now - hour) := unix_mono (by omega)
    rw [← Bool.decide_and, decide_eq_decide]
    omega
  rwa [hrecent] at hfiltered

/-- Pruning the history keeps what it must know. -/
theorem Remembers.prune (access : Access) (restarts : ℕ) :
    Remembers (pruneRestarts now access history restarts).1 now trace := by
  have hvalid := h.valid hclock
  refine ⟨fun t ht => (h.past t ht).trans hclock, ?_⟩
  have hkept : (recent now trace).Subperm history.values :=
    hvalid.trans List.filter_sublist.subperm
  rw [pruneRestarts]
  split
  · dsimp only
    split
    · exact hkept
    · rw [values_timestampBody]
      exact hvalid
  · exact hkept

theorem Remembers.later : Remembers history now trace :=
  ⟨fun t ht => (h.past t ht).trans hclock, (h.valid hclock).trans List.filter_sublist.subperm⟩

end

/-- Only the terminations of a trace matter. -/
theorem Remembers.of_terminations (h : Remembers history clock trace)
    (heq : terminations trace' = terminations trace) : Remembers history clock trace' := by
  refine ⟨heq ▸ h.past, ?_⟩
  rw [recent, heq]
  exact h.known

/-- A history that is read before it is written forgets nothing. -/
theorem Remembers.rewrite (h : Remembers history now trace) (restarts : ℕ)
    (hread : access.read = true) :
    Remembers (recordRestart now access history restarts).1 now trace := by
  refine ⟨h.past, ?_⟩
  simp only [recordRestart, hread, if_true]
  split
  · rw [values_timestampBody]
    exact h.known.trans (List.sublist_append_left _ _).subperm
  · exact h.known

/-- A termination that is recorded is known. -/
theorem Remembers.record (h : Remembers history now trace)
    (hnow : obs.now = now) (c : FailureClass) (restarts : ℕ) (hread : obs.record.read = true)
    (hwrite : obs.record.write = true) :
    Remembers (recordRestart now obs.record history restarts).1 now
      (.cycle obs (.terminated c) :: trace) := by
  refine ⟨?_, ?_⟩
  · rw [terminations, List.forall_mem_cons]
    exact ⟨hnow.le, h.past⟩
  · have hfits : unix (now - hour) < unix now := by
      rw [unix, unix, hour, second]
      omega
    have hrecent : recent now (.cycle obs (.terminated c) :: trace) =
        unix now :: recent now trace := by
      simp [recent, terminations, hnow, hfits]
    have hvalues : (recordRestart now obs.record history restarts).1.values =
        history.values ++ [unix now] := by
      simp only [recordRestart, hread, hwrite, if_true, values_timestampBody]
    rw [hrecent, hvalues]
    exact ((List.subperm_cons _).mpr h.known).trans (List.perm_append_singleton _ _).symm.subperm

/-- A history that is read counts at least what it must know. -/
theorem Remembers.length_le (h : Remembers history clock trace) (hclock : clock ≤ now)
    (hread : access.read = true) (restarts : ℕ) :
    (recent now trace).length ≤ (pruneRestarts now access history restarts).2 := by
  simp only [pruneRestarts, hread, if_true]
  exact (h.valid hclock).length_le

/-- Where earlier terminations of the last hour are not forgotten, there are no more of them than
    the history must know. -/
theorem countP_terminations_le
    (h : ∀ t ∈ terminations trace, obs.now - t < hour → unix obs.now - unix t < 3600) :
    (terminations trace).countP (fun t => obs.now - t < hour) ≤ (recent obs.now trace).length := by
  have hcutoff : unix (obs.now - hour) = unix obs.now - 3600 := by
    rw [unix, unix, hour, second]
    omega
  rw [recent, ← List.countP_eq_length_filter, List.countP_map]
  refine List.countP_mono_left fun t ht hin => ?_
  have hclose := h t ht (of_decide_eq_true hin)
  rw [Function.comp_apply, decide_eq_true_eq, hcutoff]
  omega

/-- The history knows the terminations, and they keep to the budget. -/
def Budgeted (settings : Settings) (w : World) (trace : List Entry) : Prop :=
  Remembers w.history w.clock trace ∧ Spaced hour settings.restartBudget (terminations trace)

theorem cycle_budgeted (hclock : obs.Ordered w.clock) (h : Budgeted settings w trace)
    (hrecorded : Recorded trace (.cycle obs (cycle settings obs w r).2)) :
    Budgeted settings (cycle settings obs w r).1
      (.cycle obs (cycle settings obs w r).2 :: trace) := by
  obtain ⟨hremembers, hspaced⟩ := h
  obtain ⟨hstart, hnow, hlater, hfinish⟩ := hclock
  have hbegun : Remembers (beginning obs w r).1.history obs.start trace :=
    hremembers.prune hstart _ _
  have hfinished := hbegun.later (show obs.start ≤ obs.finish by omega)
  have hend : obs.now ≤ obs.finish := by omega
  revert hrecorded
  refine cycle_cases (P := fun after => Recorded trace (.cycle obs after.2) →
      Budgeted settings after.1 (.cycle obs after.2 :: trace))
    (fun kind hkind _ => ?_) (fun _ _ => ⟨hfinished.of_terminations rfl, hspaced⟩)
    (fun _ _ _ => ⟨hfinished.of_terminations rfl, hspaced⟩)
    (fun _ _ _ _ => ⟨hfinished.of_terminations rfl, hspaced⟩) (fun _ window _ => ?_)
  · have hsame : terminations (.cycle obs kind :: trace) = terminations trace := by
      rcases pause_kind hkind with rfl | rfl | rfl <;> rfl
    exact ⟨hfinished.of_terminations hsame, hsame ▸ hspaced⟩
  · have hpruned := hbegun.prune hnow obs.secondPrune (beginning obs w r).2.restarts
    refine failing_cases (P := fun after => Recorded trace (.cycle obs after.2) →
        Budgeted settings after.1 (.cycle obs after.2 :: trace))
      (fun _ => ⟨hfinished.of_terminations rfl, hspaced⟩)
      (fun _ _ _ => ⟨(hpruned.later hend).of_terminations rfl, hspaced⟩)
      (fun _ hbudget hrecorded => ?_)
    split at hrecorded
    · rename_i hterminates
      obtain ⟨hprune, hread, hwrite, hseconds⟩ := hrecorded
      have hcount := (countP_terminations_le hseconds).trans
        (hbegun.length_le hnow hprune (beginning obs w r).2.restarts)
      simp only [if_pos hterminates]
      refine ⟨(hpruned.record rfl _ _ hread hwrite).later hend, ?_, ?_, hspaced⟩
      · exact hpruned.past
      · exact hcount.trans_lt hbudget
    · rename_i hexits
      simp only [if_neg hexits]
      exact ⟨((hpruned.rewrite _ hrecorded).later hend).of_terminations rfl, hspaced⟩

/-- **The budget.** Where each termination is recorded, the terminations keep to the budget. -/
theorem Run.budget_spec (h : Run settings w trace) (hrecorded : AllRecorded trace) :
    Budgeted settings w trace := by
  induction h with
  | start w _ => exact ⟨⟨by simp [terminations], by simp [recent, terminations]⟩, trivial⟩
  | boot _ now hclock access removes ih =>
    obtain ⟨hremembers, hspaced⟩ := ih hrecorded.2
    exact ⟨(hremembers.prune hclock access 0).of_terminations rfl, hspaced⟩
  | cycle _ hr obs hclock ih => exact cycle_budgeted hclock (ih hrecorded.2) hrecorded.1

/-! ### The discipline -/

/-- The discipline of restarts, in a run that ends in `w`. -/
structure Discipline (settings : Settings) (w : World) (trace : List Entry) : Prop where
  /-- No hour has more terminations than the budget allows. The time of a termination is the `now`
      that its cycle read and recorded, not the moment of the signal. -/
  budget : ∀ first, (terminations trace).countP (fun t => first ≤ t ∧ t < first + hour) ≤
    settings.restartBudget
  /-- A termination comes after enough failures of its class in a row. -/
  streak : ∀ after obs c before, trace = after ++ .cycle obs (.terminated c) :: before →
    c = classifyFailure obs.reasons ∧
      failureThresholdForReasons settings.failureThreshold obs.reasons ≤
        streak c (.cycle obs (.terminated c) :: before)
  /-- At any point of the run, the cycles that were put off since a generation was verified lie in
      one window of the configured length. -/
  window : ∀ after before, trace = after ++ before →
    InWindow settings.startupGrace (deferredSince before)
  /-- A deep probe that failed, and not for the first time, leaves no lease. -/
  lease : ∀ obs kind before, trace = .cycle obs kind :: before → obs.pause = none →
    obs.deepHealthy = false → obs.initialProbe = false → w.lease = none

/-- The lease can be removed in every cycle. -/
def Removable (trace : List Entry) : Prop :=
  ∀ obs kind, Entry.cycle obs kind ∈ trace → obs.removes = true

/-- **The discipline of restarts.** In every run over any number of processes in which each
    termination is recorded and the lease can be removed, the watchdog keeps the discipline. -/
theorem watchdog_discipline (h : Run settings w trace) (hrecorded : AllRecorded trace)
    (hremovable : Removable trace) : Discipline settings w trace where
  budget := fun first => (h.budget_spec hrecorded).2.countP_window_le first
  streak := fun after obs c before heq => by
    subst heq
    obtain ⟨w', h'⟩ := h.of_append
    exact h'.streak_spec
  window := fun after before heq => by
    subst heq
    obtain ⟨w', h'⟩ := h.of_append
    exact h'.window_spec.1
  lease := fun obs kind before heq hpause hdeep hinitial => by
    subst heq
    have hremoves := hremovable obs kind List.mem_cons_self
    generalize hentry : Entry.cycle obs kind = entry at h
    cases h with
    | boot => cases hentry
    | cycle h hr obs' hclock =>
      obtain ⟨rfl, -⟩ := Entry.cycle.inj hentry
      exact cycle_lease hpause hdeep hinitial hremoves

/-! ### A history that cannot be written -/

/-- One failure is enough, and one restart an hour is allowed. -/
def sampleSettings : Settings :=
  { interval := 5, failureThreshold := 1, recoveryThreshold := 1, restartBudget := 1,
    startupGrace := 0 }

/-- A cycle in which the deep probe fails. -/
def sampleFailure (now : ℤ) (writes : Bool) : Observation :=
  { start := now, applyActive := false, readiness := some ⟨true, true, false⟩, generation := "g",
    coreRunning := true, coreConfig := true, now, identity := "g", deepHealthy := false,
    deepReasons := ["dns"], initialProbe := false, later := now, finish := now,
    firstPrune := ⟨true, writes⟩, secondPrune := ⟨true, writes⟩, record := ⟨true, writes⟩,
    removes := true, publishes := true, terminates := true }

def sampleWorld : World := { history := none, lease := none, clock := 0, process := none }

/-- The watchdog terminates the container. -/
def sampleRestart (now : ℤ) (writes : Bool) : List Entry :=
  [.cycle (sampleFailure now writes) (.terminated .dataPlane), .boot]

theorem sampleRestart_run (h : Run sampleSettings w trace) (hhistory : w.history = none)
    (hclock : w.clock ≤ now) (writes : Bool) :
    ∃ w', Run sampleSettings w' (sampleRestart now writes ++ trace) ∧ w'.clock = now ∧
      (writes = false → w'.history = none) := by
  obtain ⟨history, lease, clock, process⟩ := w
  obtain rfl : history = none := hhistory
  have hboot := h.boot now hclock ⟨true, true⟩ true
  have hcycle := hboot.cycle rfl (sampleFailure now writes) ⟨le_rfl, le_rfl, le_rfl, le_rfl⟩
  refine ⟨_, hcycle, rfl, ?_⟩
  rintro rfl
  rfl

theorem sampleWorld_run : Run sampleSettings sampleWorld [] := .start _ rfl

/-- A recorded termination keeps the discipline. -/
theorem sampleRecorded_disciplined : ∃ w, Run sampleSettings w (sampleRestart (10 * second) true) ∧
      Discipline sampleSettings w (sampleRestart (10 * second) true) := by
  obtain ⟨w, hrun, -⟩ :=
    sampleRestart_run sampleWorld_run rfl (show (0 : ℤ) ≤ 10 * second by decide) true
  refine ⟨w, hrun, watchdog_discipline hrun ⟨⟨rfl, rfl, rfl, nofun⟩, trivial, trivial⟩ ?_⟩
  intro obs kind hmem
  simp only [sampleRestart, List.mem_cons, Entry.cycle.injEq, List.not_mem_nil,
    or_false, reduceCtorEq] at hmem
  rw [hmem.1]
  rfl

/-- Where the history cannot be written, the container is terminated twice in a minute, with a
    budget of one restart an hour. -/
theorem sampleUnrecorded_exceeds :
    ∃ w trace, Run sampleSettings w trace ∧ ¬ Discipline sampleSettings w trace ∧
      (terminations trace).countP (fun t => 0 ≤ t ∧ t < 0 + hour) = 2 := by
  obtain ⟨w, hrun, hclock, hhistory⟩ :=
    sampleRestart_run sampleWorld_run rfl (show (0 : ℤ) ≤ 10 * second by decide) false
  have hlater : w.clock ≤ 20 * second := by
    rw [hclock]
    decide
  obtain ⟨w', hrun', -⟩ := sampleRestart_run hrun (hhistory rfl) hlater false
  have htwo : (terminations (sampleRestart (20 * second) false ++
      (sampleRestart (10 * second) false ++ []))).countP (fun t => 0 ≤ t ∧ t < 0 + hour) = 2 := by
    decide
  refine ⟨w', _, hrun', fun hdiscipline => ?_, htwo⟩
  have hbudget := hdiscipline.budget 0
  rw [htwo] at hbudget
  revert hbudget
  decide

end SbGateway.Watchdog
