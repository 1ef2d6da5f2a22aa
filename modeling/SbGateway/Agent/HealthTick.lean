import SbGateway.Agent.HealthController

namespace SbGateway.Agent.Health

open Lib Prog

/-!
# The health controller's tick (`tickPolicy` and `Tick` in `internal/agent/health.go`)

One tick reads the selector back, replaces a removed node, probes candidates, fails over in an
outage and moves the selector; every exit hands an error to `Tick`, which keeps the confirmation
only if the error is `errHealthYield` or `errPolicyTransitionPending`.

What the controller computes from the probe history alone (which nodes to probe, which node is
wanted) is part of the tick's input, as are the probe outcomes, so a run may take any of them.

* `probeEmergencyCandidates` — an emergency batch, whose callback selects the first available
  candidate while the batch is still running;
* `tickPolicy` — a policy's full tick;
* `tick` — one policy's turn in `Tick`, with its error handling;
* `run` — any sequence of turns.
-/

/-! ### Emergency batches -/

/-- What the loop of `probeParallel` receives: a result, the end of the preference wait, or a
    replaced generation. -/
inductive BatchEvent where
  | result (candidate : String) (evidence : Evidence)
  | deadline
  | changed

/-- An emergency batch: its targets and preferences, and what happens while it runs. -/
structure EmergencyBatch where
  targets : List String
  /-- The preferences of a parallel batch; a single lane has none. -/
  preferred : List String
  /-- The preflight that ordered the targets was interrupted. -/
  preflightInterrupted : Bool
  /-- The generation was already replaced when the batch starts. -/
  stale : Bool
  events : List BatchEvent
  /-- The generation was replaced by the time a successful `Select` returned. -/
  changedAfterSelect : Bool
  /-- The generation was replaced by the time the last result was consumed. -/
  changedAtEnd : Bool

/-- The local variables of the batch: `measured`, `emergencyChoice` and `selectErr`. -/
structure Progress where
  measured : List (String × Evidence)
  firstSuccess : String
  expired : Bool
  selectErr : Option String

/-- The preferred candidates of `emergencyChoice.ready`, in order; `pending` remembers an
    unchecked one. -/
def readyPreferred (p : Progress) (pending : Bool) : List String → Except Bool String
  | [] => .error pending
  | candidate :: rest =>
    match p.measured.lookup candidate with
    | none => readyPreferred p true rest
    | some evidence =>
      if evidence.ok then .ok (if pending && !p.expired then "" else candidate)
      else readyPreferred p pending rest

/-- `emergencyChoice.ready`: the candidate to publish, `""` for none. -/
def ready (p : Progress) (preferred : List String) : String :=
  match readyPreferred p false preferred with
  | .ok candidate => candidate
  | .error pending =>
    if p.firstSuccess ≠ "" ∧ (pending = false ∨ p.expired = true) then p.firstSuccess else ""

/-- The evidence of a measured candidate. -/
def Progress.ok (p : Progress) (candidate : String) : Bool :=
  (p.measured.lookup candidate).elim false Evidence.ok

/-- The batch after a result. -/
def Progress.record (p : Progress) (candidate : String) (evidence : Evidence) : Progress :=
  { p with
    measured := (candidate, evidence) :: p.measured
    firstSuccess := if evidence.ok ∧ p.firstSuccess = "" then candidate else p.firstSuccess }

/-- The candidate a result offers to `accept`: itself without preferences, else the choice. -/
def Progress.offer (p : Progress) (preferred : List String) (candidate : String) : String :=
  if preferred = [] then candidate else ready p preferred

/-- `accept`: select the first available candidate; an error is kept and ends the attempts. -/
def accept (policyID candidate : String) (p : Progress) : M (Bool × Option String) := do
  if candidate = "" ∨ p.selectErr.isSome ∨ p.ok candidate = false then
    return (false, p.selectErr)
  else
    match ← attempt (select policyID candidate) with
    | .error e => return (false, some e)
    | .ok _ => return (true, none)

/-- `publish`: offer a candidate to `accept`, and recheck the generation after its `Select`. -/
def publish (policyID : String) (b : EmergencyBatch) (candidate : String) (p : Progress) :
    M (Bool × Option String) := do
  let accepted ← accept policyID candidate p
  Prog.when (accepted.1 = true ∧ b.changedAfterSelect = true) (alter (·.interrupt errHealthYield))
  return accepted

/-- The end of a batch that published no candidate. -/
def endBatch (interruption : Option String) (p : Progress) : M (String × Option String) := do
  alter (fun st => { st with interrupted := interruption.or st.interrupted })
  return ("", p.selectErr)

/-- The loop of `probeParallel` for an emergency batch. -/
def batchLoop (policyID : String) (b : EmergencyBatch) :
    List BatchEvent → Progress → M (String × Option String)
  | [], p => endBatch (if b.changedAtEnd then some errHealthYield else none) p
  | .changed :: _, p => endBatch (some errHealthYield) p
  | .deadline :: rest, p => do
    let p := { p with expired := true }
    let candidate := ready p b.preferred
    let published ← publish policyID b candidate p
    if published.1 then return (candidate, none)
    else batchLoop policyID b rest { p with selectErr := published.2 }
  | .result measured evidence :: rest, p =>
    if evidence.localFailure then endBatch (some errProbeSelectorUnavailable) p
    else do
      let p := p.record measured evidence
      let candidate := p.offer b.preferred measured
      let published ← publish policyID b candidate p
      if published.1 then return (candidate, none)
      else batchLoop policyID b rest { p with selectErr := published.2 }

section

variable (policyID : String) (b : EmergencyBatch)

/-- Run the batch. -/
def emergencyBatch : M (String × Option String) :=
  if b.targets = [] then pure ("", none)
  else if b.stale then endBatch (some errHealthYield) ⟨[], "", false, none⟩
  else batchLoop policyID b b.events ⟨[], "", false, none⟩

/-- `emergencyTargets` and `probeEmergencyCandidates`: the selected candidate, `""` for none.
    An interruption is returned even if the `Select` succeeded. -/
def probeEmergencyCandidates : M String := do
  Prog.when (b.preflightInterrupted = true) (alter (·.interrupt errHealthYield))
  let chosen ← emergencyBatch policyID b
  takeProbeInterruption
  raise chosen.2
  return chosen.1

end

/-! ### The tick of a policy -/

/-- The routine probe of one target, its evidence and the state of the underlay. -/
structure QualityProbe where
  candidate : String
  probe : RoutineProbe
  evidence : Evidence
  underlay : Option Underlay

/-- What the evaluation of a batch leaves in the policy's state. -/
structure Evaluation where
  availabilityOK : String → Bool
  availabilityFailures : String → ℕ
  failureClass : String → ProbeFailure

/-- One tick of a policy: the contract, the outcomes of all probes, and the decisions the
    controller takes from the probe history. -/
structure TickInput where
  contract : Contract
  transition : TransitionInput
  /-- The error of `publishHealthState`, where it is called. -/
  publishError : Option String
  underlay : Option Underlay
  /-- The batch of an outage that is known when the probes start. -/
  emergency : EmergencyBatch
  /-- The shared batch of a regular tick with several targets. -/
  survey : Option RoutineProbe
  quality : List QualityProbe
  /-- The batch of an outage that a regular probe confirms. -/
  reserves : EmergencyBatch
  evaluation : Evaluation
  /-- `selectDesired`, and whether its reason is `all-candidates-unavailable`. -/
  selectDesired : String → String × Bool
  /-- `reverseOnlineStatus`. -/
  reverseOnline : Except String Bool
  /-- `coldSelection`. -/
  cold : Bool
  /-- The fastest node of the first batch, `""` for none. -/
  lowestLatency : String
  /-- `gatePlannedOptimization`. -/
  gate : String → String → String

/-- What the readback establishes: `selected`, `actual` and `replacedRemovedActive`. -/
structure Reconciled where
  selected : String
  actual : String
  replaced : Bool

/-- Move the selector to the replacement of a removed node. -/
def replaceActive (policyID actual : String) : Option String → M Reconciled
  | none => fail errPolicyTransitionPending
  | some replacement => do
    match ← attempt (select policyID replacement) with
    | .error e => do
      alter (·.setItem policyID fun item =>
        { item with runtimeConfirmed := false, runtimeSelected := actual })
      fail e
    | .ok _ => do
      alter (·.setItem policyID (PolicyHealth.confirm replacement))
      return ⟨replacement, replacement, decide (replacement ≠ "block")⟩

/-- The tick after a successful readback. -/
def adoptActual (policyID actual : String) (candidates : List String) (input : TickInput) :
    M Reconciled := do
  let item := (← state).items policyID
  if actual ≠ "" then
    if actual ∉ candidates ∧ actual ≠ "block" then do
      let replacement ← transitionRemovedActive policyID actual input.contract input.transition
      replaceActive policyID actual replacement
    else do
      alter (·.setItem policyID (PolicyHealth.confirm actual))
      return ⟨actual, actual, false⟩
  else do
    alter (·.setItem policyID fun item =>
      { item with runtimeSelected := "", runtimeConfirmed := false })
    return ⟨item.selected, "", false⟩

/-- Read the selector back and adopt or replace what it names. -/
def reconcileActive (policyID : String) (candidates : List String) (input : TickInput) :
    M Reconciled := do
  match ← attempt (current policyID) with
  | .error e => do
    alter (·.setItem policyID fun item =>
      { item with runtimeConfirmed := false, runtimeSelected := "" })
    fail e
  | .ok actual => adoptActual policyID actual candidates input

/-- The selection a tick starts from: a candidate, moved up if the priority order changed. -/
def startingSelection (mode : String) (candidates : List String) (item : PolicyHealth)
    (r : Reconciled) : String :=
  let selected :=
    if r.selected ∉ candidates ∧ r.selected ≠ "block" then candidates.headD "" else r.selected
  if r.replaced = false ∧ mode = "priority" ∧ item.candidateSignature ≠ "" ∧
      priorityOrderChanged item.candidateSignature candidates ∧ selected ∈ candidates then
    ((candidates.takeWhile (fun c => c ≠ selected)).find? item.availabilityOK).getD selected
  else selected

/-- `Select` and record the choice. -/
def selectAndConfirm (policyID node : String) : M Unit := do
  select policyID node
  alter (·.setItem policyID (PolicyHealth.confirm node))

/-- Bring Xray to the starting selection. -/
def restoreSelection (policyID selected actual : String) : M Unit := do
  let st ← state
  Prog.when (st.warmStarted policyID = false ∨ (st.items policyID).runtimeConfirmed = false ∨
    selected ≠ actual) (selectAndConfirm policyID selected)
  alter (·.setItem policyID fun item => { item with runtimeError := "" })

/-- The outage decision before the probes. -/
inductive OutageCheck where
  | suppressed
  | outage
  | clear
  deriving DecidableEq

section

variable (policyID selected : String) (candidates : List String) (input : TickInput)

/-- Is the selection in a confirmed outage?  A shared underlay failure suppresses the tick, and
    its end asks for a new probe. -/
def checkOutage : M OutageCheck := do
  let item := (← state).items policyID
  if selected = "block" then return .outage
  else if item.availabilityFailures selected < input.contract.failureThreshold then return .clear
  else do
    let suppressed ← suppressForUnderlayFailure policyID .timeout input.underlay
    if suppressed then do
      alter (·.setItem policyID (PolicyHealth.setFailures selected 0))
      return .suppressed
    else if item.underlayFailure ≠ "" then do
      alter (·.setItem policyID (PolicyHealth.setFailures selected 0))
      return .clear
    else return .outage

/-- Run an emergency batch and record what it selected: the selection and whether it moved. -/
def failOver (b : EmergencyBatch) : M (String × Bool) := do
  let chosen ← probeEmergencyCandidates policyID b
  if chosen ≠ "" then do
    alter (·.setItem policyID (PolicyHealth.confirm chosen))
    return (chosen, true)
  else return (selected, false)

/-- The loop over the regular targets; it returns whether the selection's outage is confirmed. -/
def qualityLoop (policyID selected : String) (failureThreshold : ℕ) (warm : Bool) :
    List QualityProbe → M Bool
  | [] => pure false
  | q :: rest => do
    routineProbe q.probe
    takeProbeInterruption
    if q.evidence.deferred then qualityLoop policyID selected failureThreshold warm rest
    else if q.evidence.localFailure then fail errProbeSelectorUnavailable
    else if q.candidate = selected ∧ q.evidence.ok = false then do
      alter (·.setItem policyID (PolicyHealth.setClass selected q.evidence.failure))
      let recovering := ((← state).items policyID).underlayFailure ≠ ""
      let suppressed ← suppressForUnderlayFailure policyID q.evidence.failure q.underlay
      let item := (← state).items policyID
      if suppressed = true ∨
          (recovering ∧ item.underlayFailure = "" ∧ q.evidence.failure ≠ .tls) then do
        alter (·.setItem policyID (PolicyHealth.setFailures selected 0))
        qualityLoop policyID selected failureThreshold warm rest
      else if item.availabilityFailures selected + 1 ≥
          startupFailureConfirmationThreshold q.evidence.failure failureThreshold warm then do
        alter (·.setItem policyID (PolicyHealth.setFailures selected failureThreshold))
        return true
      else qualityLoop policyID selected failureThreshold warm rest
    else qualityLoop policyID selected failureThreshold warm rest

/-- The shared batch of a regular tick. -/
def surveyBatch : Option RoutineProbe → M Unit
  | none => pure ()
  | some probe => do
    routineProbe probe
    takeProbeInterruption

/-- The probes of a tick: an emergency batch in an outage, else the regular targets and, if they
    confirm an outage, the batch of the reserves.  It returns the selection and whether an
    emergency moved it. -/
def probePhase (warm : Bool) (outage : Bool) (input : TickInput) : M (String × Bool) := do
  if outage then failOver policyID selected input.emergency
  else do
    surveyBatch input.survey
    let confirmed ← qualityLoop policyID selected input.contract.failureThreshold warm input.quality
    if confirmed then failOver policyID selected input.reserves
    else return (selected, false)

/-- `retainTimedOutSelection`. -/
def retainTimedOutSelection : M Bool := do
  let item := (← state).items policyID
  if item.runtimeConfirmed = false ∨ selected = "" ∨ selected = "block" ∨
      selected ∉ candidates ∨ item.failureClass selected ≠ .timeout then
    return false
  else if input.contract.protocol selected = "vless" ∨
      input.contract.protocol selected = "reality" then
    return true
  else if input.contract.protocol selected = "xray-reverse" then
    match input.reverseOnline with
    | .ok online => return online
    | .error e => fail (if e = errHealthYield then e else errProbeSelectorUnavailable)
  else return false

/-- The decision of `selectDesired`, with a timed-out selection retained. -/
def desiredOrRetained : M String := do
  let desired := input.selectDesired selected
  if desired.1 = "block" ∧ desired.2 = true then do
    let retain ← retainTimedOutSelection policyID selected candidates input
    return if retain then selected else desired.1
  else return desired.1

/-- The node the tick ends with. -/
def finalSelection (switched replaced : Bool)
    (candidates : List String) (input : TickInput) : M String := do
  let desired ← desiredOrRetained policyID selected candidates input
  let item := (← state).items policyID
  let desired :=
    if input.cold = true ∧ input.contract.mode = "best" ∧ switched = false ∧
        input.lowestLatency ≠ "" ∧ input.lowestLatency ≠ selected then input.lowestLatency
    else desired
  let desired :=
    if switched then selected
    else if replaced = true ∧ selected ≠ "block" ∧
        item.availabilityFailures selected < input.contract.failureThreshold then selected
    else desired
  return input.gate selected desired

end

section Services

variable (sha : String → String)

/-- The target of a service selector: the policy's node where its group allows the service. -/
def serviceTarget (policyID serviceID desired : String) (contract : Contract) : String :=
  if desired ≠ "block" ∧
      serviceID ∈ contract.candidateServiceAccess (contract.groupSelector desired) then desired
  else serviceBlockTag sha policyID

/-- Move the service selectors of a priority policy. -/
def selectServices (policyID desired : String) (contract : Contract) : M Unit :=
  Prog.when (contract.mode = "priority")
    (forEach contract.candidateServiceIDs fun serviceID =>
      select (serviceSelectorTag sha policyID serviceID)
        (serviceTarget sha policyID serviceID desired contract))

/-- The end of a tick: the evaluation is stored, and the selectors move to the decision. -/
def finishTick (policyID selected : String) (switched replaced : Bool) (candidates : List String)
    (input : TickInput) : M Unit := do
  alter (fun st => { st with warmStarted := Function.update st.warmStarted policyID true })
  alter (·.setItem policyID fun item =>
    { item with
      availabilityOK := input.evaluation.availabilityOK
      availabilityFailures := input.evaluation.availabilityFailures
      failureClass := input.evaluation.failureClass })
  let desired ← finalSelection policyID selected switched replaced candidates input
  selectServices sha policyID desired input.contract
  Prog.when (desired ≠ selected) (select policyID desired)
  alter (·.setItem policyID fun item =>
    { item.confirm desired with
      runtimeError := ""
      candidateSignature := "\n".intercalate candidates })

/-- The probes and the decision of a tick, after the selection was restored. -/
def probeAndDecide (policyID selected : String) (warm replaced : Bool) (candidates : List String)
    (input : TickInput) : M Unit := do
  let checked ← checkOutage policyID selected input
  if checked = .suppressed then pure ()
  else do
    let probed ← probePhase policyID selected warm (decide (checked = .outage)) input
    finishTick sha policyID probed.1 probed.2 replaced candidates input

/-- `tickPolicy`. -/
def tickPolicy (policyID : String) (input : TickInput) : M Unit := do
  let candidates := uniqueCandidates input.contract.candidates
  let warm := (← state).warmStarted policyID = false
  if candidates = [] then pure ()
  else do
    let r ← reconcileActive policyID candidates input
    let item := (← state).items policyID
    let selected := startingSelection input.contract.mode candidates item r
    restoreSelection policyID selected r.actual
    raise input.publishError
    probeAndDecide sha policyID selected (decide warm) r.replaced candidates input

/-! ### Runs -/

/-- Whether a policy's turn is a full tick or a check of the active path. -/
inductive Lane where
  | full
  | fast (check : ActiveCheck)

/-- One policy's turn in `Tick`. -/
structure Turn where
  policyID : String
  input : TickInput
  lane : Lane

/-- The work of a turn: `tickPolicy` or `tickActiveAvailability`. -/
def turnBody (turn : Turn) : Lane → M Unit
  | .full => tickPolicy sha turn.policyID turn.input
  | .fast check => do
    let _ ← checkActiveAvailability (tickPolicy sha turn.policyID turn.input) turn.policyID
      turn.input.contract.candidates turn.input.contract.failureThreshold check
    return ()

/-- The error handling of `Tick`: a yield and a pending transition keep the confirmation, any
    other error withdraws it. -/
def settle (policyID : String) : Except String Unit → M Unit
  | .ok _ => pure ()
  | .error e =>
    if e = errHealthYield ∨ e = errPolicyTransitionPending then pure ()
    else alter (·.setItem policyID fun item =>
      { item with runtimeError := e, runtimeConfirmed := false })

/-- A turn with the error handling of `Tick`. -/
def tick (turn : Turn) : M Unit := do
  let result ← attempt (turnBody sha turn turn.lane)
  settle turn.policyID result

/-- The state after a turn. -/
def step (st : Controller) (turn : Turn) : Controller := (tick sha turn).exec st

/-- The state after a sequence of turns. -/
def run (st : Controller) (turns : List Turn) : Controller := turns.foldl (step sha) st

end Services

end SbGateway.Agent.Health
