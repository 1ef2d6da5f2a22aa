import Mathlib

namespace SbGateway.Watchdog

/-!
# The cycle of the watchdog

The watchdog examines the appliance in cycles.  It keeps a lease as long as the data plane is
verified, tolerates a bounded time while the core restarts, counts failures in a row, and terminates
the container when there are too many of them and the budget of restarts allows it.  The history of
restarts is a file that outlives the process.

* `cycle` — a cycle, with what it observes and which accesses to the files succeed;
* `cycle_cases` — the ways in which a cycle ends;
* `Run` — the runs over any number of processes.

A time is in nanoseconds.
-/

/-! ### Reasons -/

/-- A second in nanoseconds. -/
def second : ℤ := 1000000000

/-- An hour. -/
def hour : ℤ := 3600 * second

/-- The seconds of a time. -/
def unix (t : ℤ) : ℤ := t / second

/-- The settings of the watchdog. -/
structure Settings where
  /-- The interval between cycles, in seconds. -/
  interval : ℤ
  failureThreshold : ℕ
  recoveryThreshold : ℕ
  restartBudget : ℕ
  startupGrace : ℤ

/-- What has failed. -/
inductive FailureClass where
  | controlPlane
  | dataPlane
  deriving DecidableEq

/-- Failures of the panel alone that are tolerated. -/
def controlPlaneThreshold : ℕ := 24

/-- Only the panel fails. -/
def controlPlaneOnlyFailure (reasons : List String) : Bool :=
  reasons ≠ [] && reasons.all fun reason => reason = "api_configured" || reason = "api_ready"

/-- The class of some reasons. -/
def classifyFailure (reasons : List String) : FailureClass :=
  if controlPlaneOnlyFailure reasons then .controlPlane else .dataPlane

/-- The failures in a row that end the appliance. -/
def failureThresholdForReasons (base : ℕ) (reasons : List String) : ℕ :=
  if !controlPlaneOnlyFailure reasons then base
  else if base < controlPlaneThreshold then controlPlaneThreshold else base

/-- The class and the length of the streak of failures. -/
def nextFailureStreak (previous : Option FailureClass) (count : ℕ) (reasons : List String) :
    FailureClass × ℕ :=
  let current := classifyFailure reasons
  if some current ≠ previous then (current, 1) else (current, count + 1)

/-! ### The recovery window of the core -/

/-- How long a new core may fail. -/
structure CoreRecoveryWindow where
  generation : String
  deadline : Option ℤ

/-- The core works. -/
def CoreRecoveryWindow.verified (window : CoreRecoveryWindow) (generation : String) :
    CoreRecoveryWindow :=
  if generation = "" then window else { generation, deadline := none }

/-- The failures that the restart of the core explains. -/
def coreReasons : List String :=
  ["core_startup", "core_process", "tcp_listener", "udp_listener", "tproxy_policy_rule",
    "tproxy_local_route", "transparent_nft"]

/-- Whether the failures are put off; the window begins with the first failure of another
    generation. -/
def CoreRecoveryWindow.deferFailures (window : CoreRecoveryWindow) (now maximum : ℤ)
    (generation : String) (reasons : List String) : CoreRecoveryWindow × Bool :=
  if window.generation = "" ∨ maximum ≤ 0 ∨ reasons = [] then (window, false)
  else
    match window.deadline with
    | none =>
      if generation = window.generation then (window, false)
      else
        ({ window with deadline := some (now + maximum) },
          decide (now < now + maximum) && reasons.all coreReasons.contains)
    | some deadline => (window, decide (now < deadline) && reasons.all coreReasons.contains)

/-! ### The history of restarts -/

/-- A file with a time on each line, in seconds; `none` is a line with something else. -/
abbrev History := Option (List (Option ℤ))

/-- The times in the file. -/
def History.values (history : History) : List ℤ := (Option.getD history []).filterMap id

/-- The file with some times. -/
def timestampBody (values : List ℤ) : History := some (values.map some)

/-- Whether reading and writing a file succeed.  That a file does not exist is no failure. -/
structure Access where
  read : Bool
  write : Bool

/-- The times of the last hour. -/
def History.valid (history : History) (now : ℤ) : List ℤ :=
  history.values.filter fun value => decide (unix (now - hour) < value ∧ value ≤ unix now)

/-- `pruneRestarts`: the file and the number of restarts. -/
def pruneRestarts (now : ℤ) (access : Access) (history : History) (restarts : ℕ) : History × ℕ :=
  if access.read then
    let valid := history.valid now
    (if (history = none ∧ valid = []) ∨ history = timestampBody valid ∨ access.write = false then
      history else timestampBody valid, valid.length)
  else (history, restarts)

/-- `recordRestart` -/
def recordRestart (now : ℤ) (access : Access) (history : History) (restarts : ℕ) : History × ℕ :=
  let values := if access.read then history.values else []
  if access.write then (timestampBody (values ++ [unix now]), restarts + 1) else (history, restarts)

/-! ### The lease -/

/-- Removes the lease, if that succeeds. -/
def clearLease (removes : Bool) (lease : Option ℤ) : Option ℤ := if removes then none else lease

/-- `ReadinessLeaseTTL`, in seconds. -/
def readinessLeaseTTL (intervalSeconds : ℤ) : ℤ :=
  if intervalSeconds ≤ 5 then 15 else if 448 ≤ intervalSeconds then 900 else intervalSeconds * 2 + 5

/-- The lease has not expired. -/
def liveLease (settings : Settings) (lease : Option ℤ) (now : ℤ) : Bool :=
  lease.any fun issued =>
    decide (0 ≤ unix now - issued ∧ unix now - issued ≤ readinessLeaseTTL settings.interval)

/-- The successes that a lease needs. -/
def recoverySuccessThreshold (configured : ℕ) (leasePublished liveLease : Bool) : ℕ :=
  if leasePublished && liveLease then 1 else if !leasePublished then 1 else configured

/-! ### Processes -/

/-- What the panel says about itself. -/
structure Readiness where
  configured : Bool
  ready : Bool
  applyRecoveryPending : Bool

/-- What a cycle finds, and which of its accesses succeed. -/
structure Observation where
  start : ℤ
  applyActive : Bool
  /-- The answer of the controller, if there is one. -/
  readiness : Option Readiness
  generation : String
  coreRunning : Bool
  coreConfig : Bool
  now : ℤ
  /-- What the deep probe is about. -/
  identity : String
  deepHealthy : Bool
  deepReasons : List String
  initialProbe : Bool
  later : ℤ
  finish : ℤ
  firstPrune : Access
  secondPrune : Access
  record : Access
  removes : Bool
  publishes : Bool
  /-- Whether the container can be terminated. -/
  terminates : Bool

/-- The clock does not go back. -/
def Observation.Ordered (obs : Observation) (clock : ℤ) : Prop :=
  clock ≤ obs.start ∧ obs.start ≤ obs.now ∧ obs.now ≤ obs.later ∧ obs.later ≤ obs.finish

/-- How a cycle ends. -/
inductive Kind where
  | applying
  | recoveryPending
  | unconfigured
  | probePending
  | healthy
  | deferred
  | failed (failureClass : FailureClass)
  | exhausted (failureClass : FailureClass)
  | terminated (failureClass : FailureClass)
  /-- The container could not be terminated, and the process ends. -/
  | exited (failureClass : FailureClass)
  deriving DecidableEq

/-- What a process knows. -/
structure Runner where
  restarts : ℕ
  failures : ℕ
  successes : ℕ
  leasePublished : Bool
  activeFailureClass : Option FailureClass
  coreRecovery : CoreRecoveryWindow
  identity : String

/-- The files, the clock and the process, if one runs. -/
structure World where
  history : History
  /-- When the lease was issued, in seconds. -/
  lease : Option ℤ
  clock : ℤ
  process : Option Runner

/-- The cycles that examine nothing. -/
def Observation.pause (obs : Observation) : Option Kind :=
  if obs.applyActive then some .applying
  else
    match obs.readiness with
    | some ready =>
      if ready.applyRecoveryPending then some .recoveryPending
      else if !ready.configured then some .unconfigured else none
    | none => none

/-- What speaks against the appliance. -/
def Observation.reasons (obs : Observation) : List String :=
  (if obs.readiness.any (·.configured) then [] else ["api_configured"]) ++
  (if obs.readiness.any (·.ready) then [] else ["api_ready"]) ++
  (if obs.coreRunning then [] else ["core_process"]) ++
  (if obs.coreConfig then [] else ["core_config"]) ++
  (if obs.generation = "" then ["core_startup"] else []) ++
  (if obs.deepHealthy then []
    else if obs.deepReasons = [] then ["deep_probe"] else obs.deepReasons)

/-- A streak is over. -/
def Runner.settle (r : Runner) : Runner :=
  { r with leasePublished := false, failures := 0, successes := 0, activeFailureClass := none }

section

variable (settings : Settings) (obs : Observation) (w : World) (r : Runner)

/-- A cycle that examines nothing. -/
def pausing : World :=
  { w with
    lease := clearLease obs.removes w.lease
    process := some { r.settle with identity := "" } }

/-- The lease after the probes. -/
def leaseAfterProbes : Option ℤ :=
  if (obs.generation ≠ r.coreRecovery.generation ∨ obs.identity ≠ r.identity) ∨
      (obs.deepHealthy = false ∧ obs.initialProbe = false) then
    clearLease obs.removes w.lease
  else w.lease

/-- The process after the probes: a lease of another generation or probe does not count. -/
def probing : Runner :=
  { r with
    leasePublished := if obs.generation ≠ r.coreRecovery.generation ∨ obs.identity ≠ r.identity
      then false else r.leasePublished
    identity := obs.identity }

/-- A cycle without failures. -/
def succeeding : World :=
  let threshold := recoverySuccessThreshold settings.recoveryThreshold r.leasePublished
    (liveLease settings w.lease obs.later)
  let publishes := decide (threshold ≤ r.successes + 1) && obs.publishes
  { w with
    lease := if publishes then some (unix obs.finish) else w.lease
    process := some
      { r with
        coreRecovery := r.coreRecovery.verified obs.generation
        failures := 0
        activeFailureClass := none
        successes := r.successes + 1
        leasePublished := publishes || r.leasePublished } }

/-- A cycle whose failures are put off. -/
def deferring : World :=
  { w with lease := clearLease obs.removes w.lease, process := some r.settle }

/-- The process after one more failure. -/
def Runner.fail (reasons : List String) : Runner :=
  let streak := nextFailureStreak r.activeFailureClass r.failures reasons
  { r with successes := 0, activeFailureClass := some streak.1, failures := streak.2 }

/-- A cycle with failures that are not put off; `r` counts them already. -/
def failing : World × Kind :=
  let failureClass := classifyFailure obs.reasons
  if failureThresholdForReasons settings.failureThreshold obs.reasons ≤ r.failures then
    let (history, restarts) := pruneRestarts obs.now obs.secondPrune w.history r.restarts
    let w := { w with history, lease := clearLease obs.removes w.lease }
    if settings.restartBudget ≤ restarts then
      ({ w with process := some { r with restarts, failures := 0 } }, .exhausted failureClass)
    else
      ({ w with history := (recordRestart obs.now obs.record history restarts).1, process := none },
        if obs.terminates then .terminated failureClass else .exited failureClass)
  else ({ w with process := some r }, .failed failureClass)

/-- The rest of a cycle after the probes. -/
def judging : World × Kind :=
  if obs.initialProbe = true ∧ obs.reasons = ["deep_probe"] then
    ({ w with process := some r }, .probePending)
  else if obs.reasons = [] then (succeeding settings obs w r, .healthy)
  else
    let (coreRecovery, deferred) := r.coreRecovery.deferFailures obs.later settings.startupGrace
      obs.generation obs.reasons
    let r := { r with coreRecovery }
    if deferred then (deferring obs w r, .deferred)
    else failing settings obs w (r.fail obs.reasons)

/-- A cycle begins. -/
def beginning : World × Runner :=
  let (history, restarts) := pruneRestarts obs.start obs.firstPrune w.history r.restarts
  ({ w with history, clock := obs.finish }, { r with restarts })

/-- The probes are done. -/
def probed : World × Runner :=
  let (w, r) := beginning obs w r
  ({ w with lease := leaseAfterProbes obs w r }, probing obs r)

/-- A cycle. -/
def cycle : World × Kind :=
  match obs.pause with
  | some kind => (pausing obs (beginning obs w r).1 (beginning obs w r).2, kind)
  | none => judging settings obs (probed obs w r).1 (probed obs w r).2

end

/-- A process begins. -/
def boot (now : ℤ) (access : Access) (removes : Bool) (w : World) : World :=
  let (history, restarts) := pruneRestarts now access w.history 0
  { history, lease := clearLease removes w.lease, clock := now,
    process := some
      { restarts, failures := 0, successes := 0, leasePublished := false,
        activeFailureClass := none, coreRecovery := ⟨"", none⟩, identity := "" } }

/-! ### The ends of a cycle -/

variable {settings : Settings} {obs : Observation} {w : World} {r : Runner}

/-- A cycle that examines nothing ends as one of these. -/
theorem pause_kind (h : obs.pause = some kind) :
    kind = .applying ∨ kind = .recoveryPending ∨ kind = .unconfigured := by
  rw [Observation.pause] at h
  split at h
  · exact .inl (Option.some.inj h).symm
  · split at h
    · split_ifs at h
      · exact .inr (.inl (Option.some.inj h).symm)
      · exact .inr (.inr (Option.some.inj h).symm)
    · cases h

/-- **The ends of a cycle.** Nothing is examined, the probe is pending, nothing failed, the
    failures are put off, or they count. -/
theorem cycle_cases {P : World × Kind → Prop} (pause : ∀ kind, obs.pause = some kind →
      P (pausing obs (beginning obs w r).1 (beginning obs w r).2, kind))
    (pending : obs.pause = none →
      P ({ (probed obs w r).1 with process := some (probed obs w r).2 }, .probePending))
    (healthy : obs.pause = none → obs.reasons = [] →
      P (succeeding settings obs (probed obs w r).1 (probed obs w r).2, .healthy))
    (deferred : obs.pause = none → ∀ window,
      r.coreRecovery.deferFailures obs.later settings.startupGrace obs.generation obs.reasons =
        (window, true) →
      P (deferring obs (probed obs w r).1 { (probed obs w r).2 with coreRecovery := window },
        .deferred))
    (failed : obs.pause = none → ∀ window,
      r.coreRecovery.deferFailures obs.later settings.startupGrace obs.generation obs.reasons =
        (window, false) →
      P (failing settings obs (probed obs w r).1
        ({ (probed obs w r).2 with coreRecovery := window }.fail obs.reasons))) :
    P (cycle settings obs w r) := by
  rw [cycle]
  split
  · exact pause _ ‹_›
  · rename_i hpause
    rw [judging]
    split
    · exact pending hpause
    · split
      · exact healthy hpause ‹_›
      · have hwindow : (probed obs w r).2.coreRecovery = r.coreRecovery := rfl
        rw [hwindow]
        cases hdefer : r.coreRecovery.deferFailures obs.later settings.startupGrace
          obs.generation obs.reasons with
        | mk window put =>
          cases put with
          | false => exact failed hpause window hdefer
          | true => exact deferred hpause window hdefer

/-- The ends of a cycle with failures that count. -/
theorem failing_cases {P : World × Kind → Prop}
    (failed : P ({ w with process := some r }, .failed (classifyFailure obs.reasons))) (exhausted :
      failureThresholdForReasons settings.failureThreshold obs.reasons ≤ r.failures →
      settings.restartBudget ≤ (pruneRestarts obs.now obs.secondPrune w.history r.restarts).2 →
      P ({ w with
          history := (pruneRestarts obs.now obs.secondPrune w.history r.restarts).1
          lease := clearLease obs.removes w.lease
          process := some { r with
            restarts := (pruneRestarts obs.now obs.secondPrune w.history r.restarts).2
            failures := 0 } }, .exhausted (classifyFailure obs.reasons)))
    (ended :
      failureThresholdForReasons settings.failureThreshold obs.reasons ≤ r.failures →
      (pruneRestarts obs.now obs.secondPrune w.history r.restarts).2 < settings.restartBudget →
      P ({ w with
          history := (recordRestart obs.now obs.record
            (pruneRestarts obs.now obs.secondPrune w.history r.restarts).1
            (pruneRestarts obs.now obs.secondPrune w.history r.restarts).2).1
          lease := clearLease obs.removes w.lease
          process := none },
        if obs.terminates then .terminated (classifyFailure obs.reasons)
          else .exited (classifyFailure obs.reasons))) :
    P (failing settings obs w r) := by
  rw [failing]
  split
  · rename_i hthreshold
    dsimp only
    split
    · exact exhausted hthreshold ‹_›
    · exact ended hthreshold (by omega)
  · exact failed

/-! ### Runs -/

/-- What the record of a run tells. -/
inductive Entry where
  | boot
  | cycle (obs : Observation) (kind : Kind)

/-- The runs, with what happened in them, the latest first.  A process may end and another begin at
    any time. -/
inductive Run (settings : Settings) : World → List Entry → Prop where
  | start (w : World) (h : w.process = none) : Run settings w []
  | boot {w : World} {trace : List Entry} (h : Run settings w trace) (now : ℤ)
      (hclock : w.clock ≤ now) (access : Access) (removes : Bool) :
      Run settings (boot now access removes w) (.boot :: trace)
  | cycle {w : World} {trace : List Entry} {r : Runner} (h : Run settings w trace)
      (hr : w.process = some r) (obs : Observation) (hclock : obs.Ordered w.clock) :
      Run settings (cycle settings obs w r).1 (.cycle obs (cycle settings obs w r).2 :: trace)

end SbGateway.Watchdog
