import Mathlib
import SbGateway.Lib.Prog

namespace SbGateway.Agent.Health

open Lib

/-!
# The health controller (`internal/agent/health_liveness.go`, `health_transition.go`)

For every policy the controller keeps what it last selected and whether Xray confirmed it.  Xray
is an oracle here: the choice of a selector is the value of the last successful `Select`, and
`Current` returns it.  Every such call takes its outcome from a script of faults, and every probe
its evidence from the input.

* `checkActiveAvailability` — the check of the active path, in the fast lane and, through
  `checkDuringProbe`, while a routine probe of another policy is waited for;
* `transitionRemovedActive` — the replacement of an active node that left the candidates.
-/

/-! ### Data -/

/-- A batch yields to newer state. -/
def errHealthYield : String := "background probe yielded to active path or runtime change"
/-- The replacement of a node goes on. -/
def errPolicyTransitionPending : String := "policy replacement is still being probed"
/-- Nothing can be probed. -/
def errProbeSelectorUnavailable : String := "Xray probe selector is unavailable"

/-- `probeFailureClass`. -/
inductive ProbeFailure where
  | none
  | timeout
  | fatal
  | tls
  | dns
  | transient
  deriving DecidableEq

/-- `probeEvidence`, as far as the selection reads it. -/
structure Evidence where
  ok : Bool
  localFailure : Bool
  deferred : Bool
  failure : ProbeFailure

/-- `underlayEvidence` of a known status. -/
structure Underlay where
  wanOK : Bool
  dnsOK : Bool

/-- `policyHealthState`: the selection and the counters that decide about it. -/
structure PolicyHealth where
  selected : String
  runtimeSelected : String
  runtimeConfirmed : Bool
  runtimeError : String
  candidateSignature : String
  underlayFailure : String
  availabilityOK : String → Bool
  availabilityFailures : String → ℕ
  failureClass : String → ProbeFailure

/-- `newPolicyHealthState`. -/
def newPolicyHealthState : PolicyHealth where
  selected := ""
  runtimeSelected := ""
  runtimeConfirmed := false
  runtimeError := ""
  candidateSignature := ""
  underlayFailure := ""
  availabilityOK := fun _ => false
  availabilityFailures := fun _ => 0
  failureClass := fun _ => .none

/-- The controller, the responsive runtime's pending interruption and the Xray oracle. -/
structure Controller where
  items : String → PolicyHealth
  warmStarted : String → Bool
  interrupted : Option String
  /-- The current choice of each selector in Xray. -/
  choice : String → String
  /-- The outcomes of the next `Select` and `Current` calls; past its end they succeed. -/
  faults : List (Option String)

/-- A method of the controller. -/
abbrev M (α : Type) : Type := Prog Controller α

open Prog

/-- `healthPolicyContract` with the settings the tick reads. -/
structure Contract where
  candidates : List String
  mode : String
  failureThreshold : ℕ
  /-- The protocol of each node. -/
  protocol : String → String
  candidateServiceIDs : List String
  /-- `groupSelector`, the candidate group of a node. -/
  groupSelector : String → String
  candidateServiceAccess : String → List String

/-- Change one policy's state. -/
def Controller.setItem (st : Controller) (policyID : String) (f : PolicyHealth → PolicyHealth) :
    Controller :=
  { st with items := Function.update st.items policyID (f (st.items policyID)) }

/-- Leave an interruption for the next `takeProbeInterruption`. -/
def Controller.interrupt (st : Controller) (e : String) : Controller :=
  { st with interrupted := some e }

/-- Record a selection that Xray confirmed. -/
def PolicyHealth.confirm (node : String) (item : PolicyHealth) : PolicyHealth :=
  { item with selected := node, runtimeSelected := node, runtimeConfirmed := true }

/-- Set a node's failure counter. -/
def PolicyHealth.setFailures (node : String) (n : ℕ) (item : PolicyHealth) : PolicyHealth :=
  { item with availabilityFailures := Function.update item.availabilityFailures node n }

/-- Set a node's failure class. -/
def PolicyHealth.setClass (node : String) (failure : ProbeFailure) (item : PolicyHealth) :
    PolicyHealth :=
  { item with failureClass := Function.update item.failureClass node failure }

/-! ### The runtime -/

/-- The next fault of the script. -/
def nextFault : M (Option String) := fun st =>
  (.ok (st.faults.headD none), { st with faults := st.faults.tail })

/-- Fail if there is an error. -/
def raise : Option String → M Unit
  | some e => fail e
  | none => pure ()

/-- `Select`. -/
def select (selector node : String) : M Unit := do
  raise (← nextFault)
  alter (fun st => { st with choice := Function.update st.choice selector node })

/-- `Current`. -/
def current (selector : String) : M String := do
  raise (← nextFault)
  return (← state).choice selector

/-- `takeProbeInterruption`; every caller returns the error it finds. -/
def takeProbeInterruption : M Unit := do
  let st ← state
  alter (fun st => { st with interrupted := none })
  raise st.interrupted

/-! ### Helpers of the tick -/

/-- `uniqueCandidates`. -/
def uniqueFrom (seen : List String) : List String → List String
  | [] => []
  | value :: rest =>
    if value ≠ "" ∧ value ≠ "block" ∧ value ∉ seen then
      value :: uniqueFrom (value :: seen) rest
    else uniqueFrom seen rest

@[inherit_doc uniqueFrom]
def uniqueCandidates (values : List String) : List String := uniqueFrom [] values

/-- The candidates of a policy: distinct nodes, neither the empty id nor `block`. -/
structure Candidates where
  ids : List String
  nodup : ids.Nodup
  named : "" ∉ ids
  unblocked : "block" ∉ ids

theorem of_mem_uniqueFrom (h : value ∈ uniqueFrom seen values) :
    value ≠ "" ∧ value ≠ "block" ∧ value ∉ seen := by
  induction values generalizing seen with
  | nil => exact absurd h List.not_mem_nil
  | cons head values ih =>
    rw [uniqueFrom] at h
    split at h
    · next hhead =>
      rcases List.mem_cons.mp h with rfl | h
      · exact hhead
      · obtain ⟨hname, hblock, hseen⟩ := ih h
        exact ⟨hname, hblock, fun hmem => hseen (List.mem_cons_of_mem _ hmem)⟩
    · exact ih h

theorem nodup_uniqueFrom (seen values : List String) : (uniqueFrom seen values).Nodup := by
  induction values generalizing seen with
  | nil => exact List.nodup_nil
  | cons head values ih =>
    rw [uniqueFrom]
    split
    · refine List.nodup_cons.mpr ⟨fun hmem => ?_, ih _⟩
      exact (of_mem_uniqueFrom hmem).2.2 List.mem_cons_self
    · exact ih _

/-- `uniqueCandidates` gives the candidates of a policy. -/
def Candidates.ofValues (values : List String) : Candidates where
  ids := uniqueCandidates values
  nodup := nodup_uniqueFrom [] values
  named := fun h => (of_mem_uniqueFrom h).1 rfl
  unblocked := fun h => (of_mem_uniqueFrom h).2.1 rfl

/-- `priorityOrderChanged`. -/
def priorityOrderChanged (signature : String) (candidates : List String) : Bool :=
  if signature = "" then true
  else
    let previous := uniqueCandidates (signature.splitOn "\n")
    decide (previous.filter (fun node => candidates.contains node) ≠
      (uniqueCandidates candidates).filter (fun node => previous.contains node))

/-- `failureConfirmationThreshold`. -/
def failureConfirmationThreshold (failure : ProbeFailure) (configured : ℕ) : ℕ :=
  match failure with
  | .fatal | .tls => 1
  | .timeout => min configured 2
  | _ => configured

/-- `startupFailureConfirmationThreshold`. -/
def startupFailureConfirmationThreshold (failure : ProbeFailure) (configured : ℕ)
    (warm : Bool) : ℕ :=
  let threshold := failureConfirmationThreshold failure configured
  if warm ∧ failure ≠ .tls ∧ 1 < configured ∧ threshold < 2 then 2 else threshold

/-- The marker `suppressForUnderlayFailure` leaves, given what the underlay probe reports. -/
def underlayMark (failure : ProbeFailure) (underlay : Option Underlay) (old : String) : String :=
  if failure = .tls then ""
  else match underlay with
    | none => old
    | some u => if u.wanOK = false then "wan" else if u.dnsOK = false then "dns" else ""

/-- `suppressForUnderlayFailure`. -/
def suppressForUnderlayFailure (policyID : String) (failure : ProbeFailure)
    (underlay : Option Underlay) : M Bool := do
  alter (·.setItem policyID fun item =>
    { item with underlayFailure := underlayMark failure underlay item.underlayFailure })
  return decide (failure ≠ .tls) && underlay.isSome &&
    decide (underlayMark failure underlay "" ≠ "")

/-- `serviceSelectorTag`. -/
def serviceSelectorTag (sha : String → String) (policyID serviceID : String) : String :=
  "svc-" ++ String.ofList ((sha (policyID ++ "\x00" ++ serviceID)).toList.take 20)

/-- `serviceBlockTag`. -/
def serviceBlockTag (sha : String → String) (policyID : String) : String :=
  "svc-block-" ++ String.ofList ((sha policyID).toList.take 16)

/-! ### The fast lane -/

/-- What one active check meets: whether it is due, what the availability probe returns and
    whether it was interrupted, and the state of the underlay. -/
structure ActiveCheck where
  due : Bool
  interruption : Option String
  evidence : Evidence
  underlay : Option Underlay

/-- The probe of an active check: a replaced generation interrupts it. -/
def probeActive (check : ActiveCheck) : M Unit := do
  alter (fun st => { st with interrupted := check.interruption.or st.interrupted })
  takeProbeInterruption

/-- The failing branch of an active check: suppress it in a shared outage, count it, and hand a
    confirmed outage to `recover`. -/
def countActiveFailure (recover : M Unit) (policyID selected : String) (failureThreshold : ℕ)
    (check : ActiveCheck) : M Unit := do
  alter (·.setItem policyID (PolicyHealth.setClass selected check.evidence.failure))
  let recovering := ((← state).items policyID).underlayFailure ≠ ""
  let suppressed ← suppressForUnderlayFailure policyID check.evidence.failure check.underlay
  let item := (← state).items policyID
  if suppressed then
    alter (·.setItem policyID (PolicyHealth.setFailures selected 0))
  else if recovering ∧ item.underlayFailure = "" ∧ check.evidence.failure ≠ .tls then
    alter (·.setItem policyID (PolicyHealth.setFailures selected 0))
  else if item.availabilityFailures selected + 1 ≥
      failureConfirmationThreshold check.evidence.failure failureThreshold then do
    alter (·.setItem policyID (PolicyHealth.setFailures selected failureThreshold))
    recover
  else
    alter (·.setItem policyID
      (PolicyHealth.setFailures selected (item.availabilityFailures selected + 1)))

/-- The active check after the readback named the recorded selection. -/
def checkConfirmedActive (recover : M Unit) (policyID selected : String) (failureThreshold : ℕ)
    (check : ActiveCheck) : M Bool := do
  let before := (← state).items policyID
  alter (·.setItem policyID fun item =>
    { item with runtimeConfirmed := true, runtimeSelected := selected, runtimeError := "" })
  probeActive check
  if check.evidence.localFailure then fail errProbeSelectorUnavailable
  else if check.evidence.ok then do
    alter (·.setItem policyID fun item =>
      { (item.setFailures selected 0).setClass selected .none with underlayFailure := "" })
    return decide (0 < before.availabilityFailures selected) || !before.runtimeConfirmed ||
      decide (before.runtimeError ≠ "")
  else do
    countActiveFailure recover policyID selected failureThreshold check
    return true

/-- `checkActiveAvailability`.  `recover` is what a lost or failed selection leads to:
    `tickPolicy` if `recoverNow`, the error `errHealthYield` otherwise. -/
def checkActiveAvailability (recover : M Unit) (policyID : String) (candidates : List String)
    (failureThreshold : ℕ) (check : ActiveCheck) : M Bool := do
  let selected := ((← state).items policyID).selected
  if selected ∉ candidates then do
    recover
    return true
  else if check.due = false then return false
  else
    match ← attempt (current policyID) with
    | .error e => do
      alter (·.setItem policyID fun item => { item with runtimeConfirmed := false })
      fail e
    | .ok actual =>
      if actual ≠ selected then do
        recover
        return true
      else checkConfirmedActive recover policyID selected failureThreshold check

/-! ### Background checks and routine probes -/

/-- One policy's turn in `checkDuringProbe`, with its contract. -/
structure BackgroundCheck where
  policyID : String
  candidates : List String
  failureThreshold : ℕ
  check : ActiveCheck

/-- `checkDuringProbe` passes over a policy without a node, and over a confirmed outage. -/
def BackgroundCheck.skips (c : BackgroundCheck) (st : Controller) : Prop :=
  (st.items c.policyID).selected = "" ∨ (st.items c.policyID).selected = "block" ∨
    c.failureThreshold ≤
      (st.items c.policyID).availabilityFailures (st.items c.policyID).selected

instance (c : BackgroundCheck) (st : Controller) : Decidable (c.skips st) :=
  inferInstanceAs (Decidable (_ ∨ _ ∨ _))

/-- The check failed, or it left a pending failure: the probe in progress has to yield. -/
def BackgroundCheck.unsettled (c : BackgroundCheck) (result : Except String Bool)
    (st : Controller) : Bool :=
  match result with
  | .error _ => true
  | .ok changed =>
    changed && decide (0 <
      (st.items c.policyID).availabilityFailures (st.items c.policyID).selected)

/-- The loop of `checkDuringProbe`: it stops at the first unsettled policy. -/
def checkPolicies : List BackgroundCheck → M Unit
  | [] => pure ()
  | c :: rest => do
    let st ← state
    if c.skips st then checkPolicies rest
    else do
      let result ← attempt (checkActiveAvailability (fail errHealthYield) c.policyID
        c.candidates c.failureThreshold c.check)
      if c.unsettled result (← state) then fail errHealthYield
      else checkPolicies rest

/-- The policies one `checkDuringProbe` visits, and whether its publication fails. -/
structure BackgroundPass where
  checks : List BackgroundCheck
  publishFails : Bool

/-- `checkDuringProbe`. -/
def checkDuringProbe (pass : BackgroundPass) : M Unit := do
  checkPolicies pass.checks
  Prog.when (pass.publishFails = true) (fail errHealthYield)

/-- A routine probe: the background passes that run while it is waited for, and the
    interruption (a replaced generation, an unusable lane) it ends with. -/
structure RoutineProbe where
  passes : List BackgroundPass
  interruption : Option String

/-- Keep an error as the runtime's interruption. -/
def keepInterruption : Except String Unit → M Unit
  | .error e => alter (·.interrupt e)
  | .ok _ => pure ()

/-- A routine probe up to `takeProbeInterruption`: a failed background pass stops it. -/
def routineProbe (probe : RoutineProbe) : M Unit := do
  keepInterruption (← attempt (do
    forEach probe.passes checkDuringProbe
    raise probe.interruption))

/-! ### Replacing a removed node -/

/-- The probe of one replacement candidate; `changed` says that a replaced generation
    interrupted it. -/
structure ReplacementProbe where
  candidate : String
  evidence : Evidence
  changed : Bool

/-- What `transitionRemovedActive` meets. -/
structure TransitionInput where
  graceOver : Bool
  liveness : ActiveCheck
  /-- The preflight of a new transition and whether it was interrupted. -/
  preflight : Option Bool
  /-- The parallel batch, if there are lanes for it. -/
  parallel : Option RoutineProbe
  probes : List ReplacementProbe

/-- The results of a parallel batch, in the order they arrive. -/
def acceptReplacement (policyID : String) : List ReplacementProbe → M String
  | [] => pure ""
  | p :: rest =>
    if p.evidence.ok then pure p.candidate
    else do
      alter (·.setItem policyID fun item =>
        { item with availabilityOK := Function.update item.availabilityOK p.candidate false })
      acceptReplacement policyID rest

/-- The candidates probed one after the other.  An interrupted probe is reported as a local
    failure, and its interruption stays behind. -/
def probeReplacements (policyID : String) : List ReplacementProbe → M String
  | [] => pure ""
  | p :: rest =>
    if p.changed then do
      alter (·.interrupt errHealthYield)
      fail errProbeSelectorUnavailable
    else if p.evidence.localFailure then fail errProbeSelectorUnavailable
    else if p.evidence.ok then pure p.candidate
    else do
      alter (·.setItem policyID fun item =>
        { item with availabilityOK := Function.update item.availabilityOK p.candidate false })
      probeReplacements policyID rest

/-- The preflight of a new transition. -/
def preflightReplacements : Option Bool → M Unit
  | none => pure ()
  | some interrupted => do
    Prog.when (interrupted = true) (alter (·.interrupt errHealthYield))
    takeProbeInterruption

/-- Probe the replacements in parallel or in turn. -/
def replacementBatch (policyID : String) (input : TransitionInput) : M String :=
  match input.parallel with
  | some probe => do
    let chosen ← acceptReplacement policyID input.probes
    routineProbe probe
    return chosen
  | none => probeReplacements policyID input.probes

/-- Find a replacement; `none` means that the transition is still pending. -/
def findReplacement (policyID : String) (input : TransitionInput) : M (Option String) := do
  preflightReplacements input.preflight
  let chosen ← replacementBatch policyID input
  takeProbeInterruption
  return if chosen = "" then none else some chosen

/-- The working path was checked first: a failed check ends the transition if it confirmed an
    outage. -/
def afterLiveness (policyID actual : String) (failureThreshold : ℕ) (input : TransitionInput) :
    Except String Bool → M (Option String)
  | .error e => do
    let st ← state
    if failureThreshold ≤ (st.items policyID).availabilityFailures actual then
      return some "block"
    else fail e
  | .ok _ => findReplacement policyID input

/-- `transitionRemovedActive`: the replacement for an active node that left the candidates, or
    `none` while it is pending. -/
def transitionRemovedActive (policyID actual : String) (contract : Contract)
    (input : TransitionInput) : M (Option String) := do
  let item := (← state).items policyID
  if item.runtimeConfirmed = false ∨ item.runtimeSelected ≠ actual ∨ item.selected ≠ actual ∨
      contract.failureThreshold ≤ item.availabilityFailures actual then
    return some "block"
  else if input.graceOver then return some "block"
  else do
    let checked ← attempt (checkActiveAvailability (fail errHealthYield) policyID
      (contract.candidates ++ [actual]) contract.failureThreshold input.liveness)
    afterLiveness policyID actual contract.failureThreshold input checked

end SbGateway.Agent.Health
