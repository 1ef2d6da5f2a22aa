import Mathlib
import SbGateway.Lib.Prog

namespace SbGateway.Agent

open Lib

/-!
# The Xray selector runtime (`internal/agent/xray_health.go`)

`xraySelectorRuntime` points the policy and service selectors of a running Xray at nodes.  A
node that is not part of the static configuration gets a *dynamic handler*: it is added under
a tag derived from its definition, the selector is overridden to the tag, the override is
read back, and only then the previous handler is retired and, one switch later, removed.

The state joins the runtime's bookkeeping with the Xray process it talks to (`handlers`,
`overrides`).  Every API call takes its outcome from a script: it succeeds, fails without
effect, or takes effect while the acknowledgement is lost.  `removals` records every
`RemoveOutbound` with the selectors of the pool that were overridden to the tag when it was
issued.

SHA-256 is a parameter: `sha s` is the hex text of the digest of `s`.
-/

/-! ### Data -/

/-- `healthPool`, as far as the runtime reads it. -/
structure HealthPool where
  policies : AList (fun _ : String => List String)
  /-- The candidates of each health contract. -/
  healthPolicies : AList (fun _ : String => List String)
  policyPrefixes : AList (fun _ : String => String)
  baseOutboundTags : List String
  outbounds : AList (fun _ : String => String)

/-- A policy or service selector the pool lists. -/
def HealthPool.lists (pool : HealthPool) (selector : String) : Prop :=
  selector ∈ pool.policies.keys

instance (pool : HealthPool) (selector : String) : Decidable (pool.lists selector) :=
  inferInstanceAs (Decidable (selector ∈ pool.policies.keys))

/-- The zero value of a pool. -/
def HealthPool.empty : HealthPool := ⟨∅, ∅, ∅, [], ∅⟩

/-- `pendingOutbound`. -/
structure PendingOutbound where
  selector : String
  nodeID : String
  deriving DecidableEq

/-- The outcome of one Xray API call.  `lost` takes effect without an acknowledgement;
    `deadline` says that the error is a timeout of a request that is still wanted. -/
inductive Outcome where
  | ok
  | failed (deadline : Bool)
  | lost (deadline : Bool)
  deriving DecidableEq

/-- An issued `RemoveOutbound` and the listed selectors that pointed at its tag. -/
structure Removal where
  tag : String
  carrying : List String
  deriving DecidableEq

/-- `xraySelectorRuntime` together with the Xray process it controls. -/
structure State where
  probeSelector : String
  pool : HealthPool
  poolSignature : String
  xrayPID : ℕ
  pendingReset : Bool
  loadedDynamic : Finset String
  verifiedDynamic : Finset String
  activeByPolicy : String → String
  activeByNode : AList (fun _ : String => String)
  retiredByPolicy : AList (fun _ : String => List String)
  pendingDynamic : AList (fun _ : String => PendingOutbound)
  unknownDynamic : Finset String
  inventoryLoaded : Bool
  selectorMembers : String → String
  probeRuntimeTag : String
  /-- The outbound handlers of the Xray process. -/
  handlers : Finset String
  /-- The override of each balancer, empty when there is none. -/
  overrides : String → String
  /-- The outcomes of the next API calls; further calls succeed. -/
  script : List Outcome
  /-- The readback of a tag is less than a second old. -/
  fresh : String → Bool
  removals : List Removal

/-- A method of the runtime. -/
abbrev M (α : Type) : Type := Prog State α

open Prog

/-- `retiredByPolicy[policyID]`. -/
def State.retiredOf (st : State) (policyID : String) : List String :=
  (st.retiredByPolicy.lookup policyID).getD []

/-- `probeSelectorName`. -/
def State.probeSelectorName (st : State) : String :=
  if st.probeSelector ≠ "" then st.probeSelector else "outbound-health-probe"

/-- The listed selectors whose override is `tag`. -/
def State.carrying (st : State) (tag : String) : List String :=
  st.pool.policies.keys.filter (fun selector => st.overrides selector = tag)

/-- `strings.HasPrefix`. -/
def hasPrefix (s lead : String) : Bool := lead.toList.isPrefixOf s.toList

/-- The rest of a text after `n` characters `[a-f0-9]`. -/
def dropHex : ℕ → List Char → Option (List Char)
  | 0, rest => some rest
  | _ + 1, [] => none
  | n + 1, c :: rest => if c ∈ "0123456789abcdef".toList then dropHex n rest else none

/-- The rest of a text after a literal. -/
def dropText (lead : String) (text : List Char) : Option (List Char) :=
  if lead.toList.isPrefixOf text then some (text.drop lead.length) else none

/-- The expression `agentDynamicTag`. -/
def agentDynamicTag (tag : String) : Bool :=
  let policy := dropText "sb-urltest-" tag.toList >>= dropHex 12 >>= dropText "-" >>= dropHex 12
  let probe := dropText "sb-urltest-probe-" tag.toList >>= dropHex 12
  let health := dropText "sb-health-" tag.toList >>= dropHex 8 >>= dropText "-" >>= dropHex 12
  policy == some [] || probe == some [] || health == some []

section Tags

variable (sha : String → String)

/-- `shortHash`. -/
def shortHash (value : String) (length : ℕ) : String :=
  String.ofList ((sha value).toList.take length)

/-- `urlTestPolicyPrefix`: the tag prefix published for a policy and its services. -/
def urlTestPolicyPrefix (policyID : String) : String :=
  "sb-urltest-" ++ shortHash sha policyID 12 ++ "-"

/-- `dynamicDigest`. -/
def HealthPool.dynamicDigest (pool : HealthPool) (nodeID : String) : String :=
  shortHash sha (nodeID ++ "\x00" ++ (pool.outbounds.lookup nodeID).getD "") 12

/-- `dynamicTag`, that is `DynamicOutboundTag` at the node's definition. -/
def HealthPool.dynamicTag (pool : HealthPool) (lead nodeID : String) : String :=
  lead ++ pool.dynamicDigest sha nodeID

/-- `isBase`. -/
def HealthPool.isBase (pool : HealthPool) (tag : String) : Bool :=
  pool.baseOutboundTags.contains tag

/-- `policyPrefix`. -/
def HealthPool.policyPrefix (pool : HealthPool) (policyID : String) : String :=
  let published := (pool.policyPrefixes.lookup policyID).getD ""
  if published ≠ "" then published else "sb-urltest-" ++ shortHash sha policyID 12 ++ "-"

/-- `policyRuntimeTag`. -/
def HealthPool.policyRuntimeTag (pool : HealthPool) (policyID nodeID : String) : String :=
  if pool.isBase nodeID ∨ (pool.outbounds.lookup nodeID).isNone then nodeID
  else pool.dynamicTag sha (pool.policyPrefix sha policyID) nodeID

/-- The tags of a probe lane: every parallel lane owns its handlers. -/
def probeFamily (probeSelector digest : String) : String :=
  if probeSelector ≠ "" then
    "sb-health-" ++ shortHash sha probeSelector 8 ++ "-" ++ digest
  else "sb-urltest-probe-" ++ digest

/-- The tag `probeTag` derives for a node. -/
def State.probeHandlerTag (st : State) (nodeID : String) : String :=
  probeFamily sha st.probeSelector (st.pool.dynamicDigest sha nodeID)

end Tags

/-! ### API calls -/

/-- The outcome of the next API call. -/
def nextOutcome : M Outcome := fun st =>
  match st.script with
  | [] => (.ok .ok, st)
  | outcome :: rest => (.ok outcome, { st with script := rest })

/-- `selectedRuntimeMember`: the override of a selector, read back. -/
def selectedRuntimeMember (selector : String) : M String := do
  match ← nextOutcome with
  | .ok => return (← state).overrides selector
  | _ => fail "Xray selector state is unavailable"

/-- `outboundTags`. -/
def outboundTags : M (Finset String) := do
  match ← nextOutcome with
  | .ok => return (← state).handlers
  | _ => fail "Xray outbound list is unavailable"

/-- `outboundPresent`. -/
def outboundPresent (tag : String) : M Bool := do
  let tags ← outboundTags
  return decide (tag ∈ tags)

/-- The balancer override call. -/
def overrideBalancer (selector tag : String) : M Unit := do
  let applied := alter
    (fun st => { st with overrides := Function.update st.overrides selector tag })
  match ← nextOutcome with
  | .ok => applied
  | .lost _ => do
    applied
    fail "Xray rejected selector update"
  | .failed _ => fail "Xray rejected selector update"

/-- The `AddOutbound` call; its outcome is handed to the caller. -/
def addOutbound (tag : String) : M Outcome := do
  let outcome ← nextOutcome
  match outcome with
  | .failed _ => return outcome
  | _ => do
    alter (fun st => { st with handlers := insert tag st.handlers })
    return outcome

/-- The effect of a `RemoveOutbound` call. -/
def takeOff (tag : String) (outcome : Outcome) : M Outcome := do
  match outcome with
  | .failed _ => return outcome
  | _ => do
    alter (fun st => { st with handlers := st.handlers.erase tag })
    return outcome

/-- The record of a `RemoveOutbound` call. -/
def State.recordRemoval (st : State) (tag : String) : State :=
  { st with removals := st.removals ++ [⟨tag, st.carrying tag⟩] }

/-- The `RemoveOutbound` call. -/
def removeCall (tag : String) : M Outcome := do
  alter (·.recordRemoval tag)
  let outcome ← nextOutcome
  takeOff tag outcome

/-! ### Handlers -/

/-- Forget a removed handler: the end of `removeOutbound`. -/
def State.forget (st : State) (tag : String) : State :=
  { st with
    loadedDynamic := st.loadedDynamic.erase tag
    unknownDynamic := st.unknownDynamic.erase tag
    verifiedDynamic := st.verifiedDynamic.erase tag
    activeByNode := st.activeByNode.keys.foldl (fun nodes node =>
      if nodes.lookup node = some tag then nodes.erase node else nodes) st.activeByNode
    selectorMembers := fun selector =>
      if st.selectorMembers selector = tag then "" else st.selectorMembers selector
    probeRuntimeTag := if st.probeRuntimeTag = tag then "" else st.probeRuntimeTag
    pendingDynamic := st.pendingDynamic.erase tag }

/-- A lost acknowledgement is told apart from a live handler by a list readback. -/
def confirmRemoval (tag : String) : M Unit := do
  match ← attempt (outboundPresent tag) with
  | .ok false => alter (·.forget tag)
  | _ => fail "Xray outbound cleanup was not confirmed"

/-- `removeOutbound`. -/
def removeOutbound (tag : String) : M Unit := do
  if tag = "" then return ()
  else if tag ∉ (← state).loadedDynamic then return ()
  else
    let outcome ← removeCall tag
    if outcome = .ok then alter (·.forget tag) else confirmRemoval tag

/-- `markPendingOutbound`. -/
def markPendingOutbound (tag selector nodeID : String) : M Unit :=
  alter (fun st => { st with pendingDynamic := st.pendingDynamic.insert tag ⟨selector, nodeID⟩ })

/-- The bookkeeping after a confirmed handler. -/
def State.confirmHandler (st : State) (tag : String) : State :=
  { st with
    loadedDynamic := insert tag st.loadedDynamic
    verifiedDynamic := insert tag st.verifiedDynamic }

/-- The bookkeeping after a handler was found missing. -/
def State.dropHandler (st : State) (tag : String) : State :=
  { st with
    loadedDynamic := st.loadedDynamic.erase tag
    verifiedDynamic := st.verifiedDynamic.erase tag }

/-- The presence readback after an addition. -/
def presentAfterAdd (tag : String) : M Bool := do
  match ← attempt (outboundPresent tag) with
  | .ok present => return present
  | .error _ => fail "Xray dynamic outbound presence is unconfirmed after add"

/-- The two attempts of `ensureOutbound`. -/
def addAttempts (repair : Bool) (tag : String) : M Unit := do
  let outcome ← addOutbound tag
  if !repair && outcome = .ok then return ()
  else if ← presentAfterAdd tag then return ()
  else if outcome = .failed true ∨ outcome = .lost true then do
    -- only a timed-out call is repeated, and only after its absence was read back
    let _ ← addOutbound tag
    if ← presentAfterAdd tag then return ()
    else fail "Xray dynamic outbound was not confirmed after add"
  else fail "Xray dynamic outbound was not confirmed after add"

/-- The addition in `ensureOutbound`: decode, encode, add, record. -/
def installOutbound (repair : Bool) (nodeID tag : String) : M Unit := do
  if ((← state).pool.outbounds.lookup nodeID).isNone then fail "unexpected end of JSON input"
  else if (← nextOutcome) ≠ .ok then fail "Xray dynamic outbound configuration is invalid"
  else do
    addAttempts repair tag
    alter (fun st =>
      { (st.confirmHandler tag) with unknownDynamic := st.unknownDynamic.erase tag })

/-- `ensureOutbound`. -/
def ensureOutbound (nodeID tag : String) : M Unit := do
  let st ← state
  if tag ∉ st.loadedDynamic then installOutbound false nodeID tag
  else if tag ∈ st.verifiedDynamic ∧ st.fresh tag then return ()
  else if ← outboundPresent tag then
    alter (fun st => { st with verifiedDynamic := insert tag st.verifiedDynamic })
  else do
    alter (·.dropHandler tag)
    installOutbound true nodeID tag

/-- Removals that a policy may wait for. -/
def maxCleanupBacklogPerPolicy : ℕ := 8
/-- Removals that all wait for. -/
def maxCleanupBacklogGlobal : ℕ := 64
/-- Handlers of a policy. -/
def maxLiveDynamicPerPolicy : ℕ := 10
/-- Handlers of all policies. -/
def maxLiveDynamicGlobal : ℕ := 128

/-- `cleanupBacklog`: the unfinished removals of one policy and of all. -/
def State.cleanupBacklog (st : State) (policyID : String) : ℕ × ℕ :=
  let unfinished := st.pendingDynamic.entries.filter (fun entry =>
    entry.1 ≠ st.activeByPolicy entry.2.selector ∧ entry.1 ∉ st.retiredOf entry.2.selector)
  ((st.retiredOf policyID).length - 1
      + (unfinished.filter (fun entry => entry.2.selector = policyID)).length,
    (st.retiredByPolicy.keys.map (fun selector => (st.retiredOf selector).length - 1)).sum
      + unfinished.length)

/-- `loadDynamicInventory`. -/
def loadDynamicInventory : M Unit := do
  let tags ← outboundTags
  alter (fun st =>
    { st with
      unknownDynamic := tags.filter (fun tag => agentDynamicTag tag ∧ tag ∉ st.loadedDynamic)
      inventoryLoaded := true })

/-- `admitDynamicTag`. -/
def admitDynamicTag (tag lead : String) : M Unit := do
  let st ← state
  let known := st.unknownDynamic ∪ st.loadedDynamic ∪ st.pendingDynamic.keys.toFinset
  let dynamic := known.filter (fun existing => agentDynamicTag existing)
  if st.xrayPID > 0 ∧ ¬ st.inventoryLoaded then
    fail "Xray dynamic outbound inventory is unavailable"
  else if tag ∈ known then return ()
  else if dynamic.card ≥ maxLiveDynamicGlobal
      ∨ (lead ≠ "" ∧ (dynamic.filter (fun existing => hasPrefix existing lead)).card
          ≥ maxLiveDynamicPerPolicy) then
    fail "Xray dynamic outbound inventory limit is full"
  else return ()

/-! ### Selections -/

/-- The removal loop of `pruneRetiredOutbounds`; it returns the tags whose removal failed. -/
def removeRetired (policyID : String) : List String → M (List String)
  | [] => return []
  | tag :: rest => do
    if tag = (← state).activeByPolicy policyID then removeRetired policyID rest
    else
      match ← attempt (removeOutbound tag) with
      | .ok _ => removeRetired policyID rest
      | .error _ => return tag :: (← removeRetired policyID rest)

/-- `pruneRetiredOutbounds`: all but the newest, at most four attempts. -/
def pruneRetiredOutbounds (policyID : String) : M Unit := do
  let retired := (← state).retiredOf policyID
  if retired.length ≤ 1 then return ()
  else do
    let older := retired.dropLast
    let failed ← removeRetired policyID (older.take 4)
    alter (fun st =>
      { st with
        retiredByPolicy := st.retiredByPolicy.insert policyID
          (older.drop 4 ++ failed ++ retired.getLast?.toList) })

/-- The retired list `commitPolicySelection` stores. -/
def retireFor (retired : List String) (lead previous runtimeTag : String) : List String :=
  let remaining := retired.filter (· ≠ runtimeTag)
  if previous ≠ "" ∧ previous ≠ runtimeTag ∧ hasPrefix previous lead ∧ previous ∉ remaining then
    remaining ++ [previous]
  else remaining

section Select

variable (sha : String → String)

/-- The state `commitPolicySelection` prunes in. -/
def State.committed (st : State) (policyID nodeID runtimeTag : String) : State :=
  { st with
    activeByPolicy := Function.update st.activeByPolicy policyID runtimeTag
    activeByNode :=
      if nodeID ≠ "" then st.activeByNode.insert nodeID runtimeTag else st.activeByNode
    retiredByPolicy := st.retiredByPolicy.insert policyID
      (retireFor (st.retiredOf policyID) (st.pool.policyPrefix sha policyID)
        (st.activeByPolicy policyID) runtimeTag)
    pendingDynamic := st.pendingDynamic.erase runtimeTag }

/-- `commitPolicySelection`. -/
def commitPolicySelection (policyID nodeID runtimeTag : String) : M Unit := do
  alter (·.committed sha policyID nodeID runtimeTag)
  pruneRetiredOutbounds policyID

/-- `policyTag`. -/
def policyTag (policyID nodeID : String) : M String := do
  let st ← state
  let tag := st.pool.policyRuntimeTag sha policyID nodeID
  if tag = nodeID then do
    alter (fun st => { st with activeByNode := st.activeByNode.insert nodeID nodeID })
    return nodeID
  else do
    let backlog := st.cleanupBacklog policyID
    when (tag ∉ st.loadedDynamic ∧ tag ∉ st.unknownDynamic ∧ tag ∉ st.pendingDynamic)
      (if backlog.1 ≥ maxCleanupBacklogPerPolicy ∨ backlog.2 ≥ maxCleanupBacklogGlobal then
        fail "Xray dynamic outbound cleanup backlog is full"
      else admitDynamicTag tag (st.pool.policyPrefix sha policyID))
    markPendingOutbound tag policyID nodeID
    ensureOutbound nodeID tag
    return tag

/-- The second half of `probeTag`: a handler of the probe lane's own. -/
def ownProbeTag (nodeID : String) : M String := do
  let st ← state
  if (st.pool.outbounds.lookup nodeID).isNone then return nodeID
  else do
    let tag := st.probeHandlerTag sha nodeID
    when (st.probeRuntimeTag ≠ "" ∧ st.probeRuntimeTag ≠ tag) (removeOutbound st.probeRuntimeTag)
    let st ← state
    when (tag ∉ st.loadedDynamic ∧ tag ∉ st.unknownDynamic) (admitDynamicTag tag "")
    markPendingOutbound tag st.probeSelectorName nodeID
    ensureOutbound nodeID tag
    alter (fun st => { st with probeRuntimeTag := tag })
    return tag

/-- `probeTag`. -/
def probeTag (nodeID : String) : M String := do
  let st ← state
  if nodeID = "block" ∨ nodeID = "direct-wan" ∨ st.pool.isBase nodeID then return nodeID
  else
    let tag := (st.activeByNode.lookup nodeID).getD ""
    if tag = "" then ownProbeTag sha nodeID
    else if tag = nodeID then return tag
    else if tag ∈ st.loadedDynamic ∧ tag ∈ st.verifiedDynamic ∧ st.fresh tag then return tag
    else if ← outboundPresent tag then do
      alter (·.confirmHandler tag)
      return tag
    else do
      alter (fun st =>
        { (st.dropHandler tag) with activeByNode := st.activeByNode.erase nodeID })
      ownProbeTag sha nodeID

/-- `selectorMembers[selector] = member`. -/
def cacheMember (selector member : String) : M Unit :=
  alter (fun st =>
    { st with selectorMembers := Function.update st.selectorMembers selector member })

/-- The first readback of `Select`; a failed one is left for later. -/
def learnMember (selector : String) : M Unit := do
  match ← attempt (selectedRuntimeMember selector) with
  | .ok actual => cacheMember selector actual
  | .error _ => return ()

/-- The selector already points at the wanted handler: adopt it, or add it if it is gone. -/
def adoptHandler (selector member expected : String) : M Unit := do
  if ← outboundPresent expected then alter (·.confirmHandler expected)
  else do
    markPendingOutbound expected selector member
    ensureOutbound member expected

/-- The runtime member `Select` chooses for a policy selector. -/
def policyMember (selector member : String) : M String := do
  let expected := (← state).pool.policyRuntimeTag sha selector member
  when ((← state).selectorMembers selector = "") (learnMember selector)
  if expected ≠ member ∧ (← state).selectorMembers selector = expected then do
    -- adopt the live handler instead of adding the same tag a second time
    adoptHandler selector member expected
    return expected
  else policyTag sha selector member

/-- The runtime member `Select` chooses. -/
def runtimeMemberOf (selector member : String) : M String := do
  let st ← state
  if selector = st.probeSelectorName then probeTag sha member
  else if st.pool.lists selector ∧ member ≠ "block" ∧ member ≠ "direct-wan" then
    policyMember sha selector member
  else return member

/-- The end of `Select`: commit a policy selection, or settle the pending handler. -/
def settleSelection (policySelector : Bool) (selector member runtimeMember : String) : M Unit := do
  if policySelector then commitPolicySelection sha selector member runtimeMember
  else alter (fun st => { st with pendingDynamic := st.pendingDynamic.erase runtimeMember })

/-- `Select`. -/
def select (selector member : String) : M Unit := do
  let policySelector := decide ((← state).pool.lists selector)
  let runtimeMember ← runtimeMemberOf sha selector member
  if (← state).selectorMembers selector = runtimeMember then
    settleSelection sha policySelector selector member runtimeMember
  else
    match ← attempt (overrideBalancer selector runtimeMember) with
    | .error e => do
      -- an override may have applied even when its acknowledgement was lost
      cacheMember selector ""
      fail e
    | .ok _ =>
      match ← attempt (selectedRuntimeMember selector) with
      | .error e => do
        cacheMember selector ""
        fail e
      | .ok actual =>
        if actual ≠ runtimeMember then do
          cacheMember selector ""
          fail ("Xray selector \"" ++ selector ++ "\" remained on \"" ++ actual
            ++ "\" instead of \"" ++ runtimeMember ++ "\"")
        else do
          cacheMember selector runtimeMember
          settleSelection sha policySelector selector member runtimeMember

/-- A map is visited in any order: `order` decides among the keys, each met once. -/
def visitOrder (order keys : List String) : List String :=
  (order.filter (· ∈ keys)).dedup ++ keys.filter (· ∉ order)

/-- The last loop of `Current`: a node whose active handler is the member. -/
def currentByNode (selector member : String) (order : List String) : M String := do
  let st ← state
  match (visitOrder order st.activeByNode.keys).find?
      (fun node => st.activeByNode.lookup node = some member) with
  | none => return member
  | some node =>
    if (st.pool.outbounds.lookup node).isNone ∨ st.pool.isBase node then return node
    else if st.pool.policyRuntimeTag sha selector node ≠ member then
      -- move new streams to the refreshed definition of the node
      match ← attempt (select sha selector node) with
      | .ok _ => return node
      | .error e => fail ("refresh selected outbound generation: " ++ e)
    else do
      ensureOutbound node member
      return node

/-- `Current`; `order` is the order in which its two maps are visited. -/
def current (selector : String) (order : List String) : M String := do
  let member ← selectedRuntimeMember selector
  if member = "" then do
    cacheMember selector ""
    return ""
  else do
    cacheMember selector member
    let st ← state
    let lead := st.pool.policyPrefix sha selector
    if member = "block" ∨ member = "direct-wan" then return member
    else
      match st.pool.healthPolicies.lookup selector with
      | none => currentByNode sha selector member order
      | some candidates =>
        match (candidates ++ visitOrder order st.pool.outbounds.keys).find?
            (fun candidate => (candidate ∈ candidates ∧ member = candidate)
              ∨ member = st.pool.dynamicTag sha lead candidate) with
        | none => currentByNode sha selector member order
        | some candidate =>
          if candidate ∈ candidates ∧ member = candidate then return candidate
          else do
            ensureOutbound candidate member
            return candidate

end Select

/-! ### Reload -/

/-- What a `Reload` meets outside the API calls of its script. -/
structure ReloadInput where
  /-- The pool file and its signature, when it can be read. -/
  snapshot : Option (HealthPool × String)
  /-- A ready file is configured. -/
  readyFile : Bool
  /-- The process the ready file names, 0 when there is none. -/
  pid : ℕ
  /-- The visiting orders of the pending handlers and of the retired lists. -/
  pendingOrder : List String
  policyOrder : List String
  /-- Whether the selector readback and the handler listing answer for a pending tag. -/
  answers : String → Bool × Bool

section Reload

variable (sha : String → String)

/-- One iteration of `reconcilePendingOutbounds`. -/
def reconcilePending (answers : String → Bool × Bool) (tag : String) : M Unit := do
  let st ← state
  match st.pendingDynamic.lookup tag with
  | none => return ()
  | some pending =>
    if (answers tag).1 = false ∨ (answers tag).2 = false then return ()
    else if tag ∉ st.handlers then
      alter (fun st =>
        { (st.dropHandler tag) with pendingDynamic := st.pendingDynamic.erase tag })
    else do
      alter (·.confirmHandler tag)
      if st.overrides pending.selector = tag ∧ st.pool.lists pending.selector then do
        cacheMember pending.selector tag
        commitPolicySelection sha pending.selector pending.nodeID tag
      else if st.overrides pending.selector = tag
          ∧ pending.selector = st.probeSelectorName then do
        cacheMember pending.selector tag
        alter (fun st =>
          { st with probeRuntimeTag := tag, pendingDynamic := st.pendingDynamic.erase tag })
      else
        match ← attempt (removeOutbound tag) with
        | .ok _ =>
          alter (fun st => { st with pendingDynamic := st.pendingDynamic.erase tag })
        | .error _ => return ()

/-- `reconcilePendingOutbounds`. -/
def reconcilePendingOutbounds (input : ReloadInput) : M Unit := do
  forEach (visitOrder input.pendingOrder (← state).pendingDynamic.keys)
    (reconcilePending sha input.answers)

/-- The bookkeeping `Reload` drops when the Xray process changed. -/
def State.resetProcess (st : State) (pid : ℕ) : State :=
  { st with
    xrayPID := pid
    loadedDynamic := ∅
    verifiedDynamic := ∅
    activeByPolicy := fun _ => ""
    activeByNode := ∅
    retiredByPolicy := ∅
    pendingDynamic := ∅
    unknownDynamic := ∅
    inventoryLoaded := false
    selectorMembers := fun _ => ""
    probeRuntimeTag := "" }

/-- `Reload` up to its API calls: take over the snapshot. -/
def State.adoptSnapshot (st : State) (pool : HealthPool) (signature : String) (pid : ℕ) : State :=
  let pidChanged := pid ≠ st.xrayPID
  let contractChanged := signature ≠ st.poolSignature
  let st := { st with pendingReset := st.pendingReset || pidChanged || contractChanged }
  let st := if contractChanged then { st with pool, poolSignature := signature } else st
  if pidChanged then st.resetProcess pid
  else if contractChanged then { st with verifiedDynamic := ∅ }
  else st

/-- `Reload`. -/
def reload (input : ReloadInput) : M Bool := do
  match input.snapshot with
  | none => fail "health pool is unavailable"
  | some (pool, signature) => do
    let st ← state
    if input.readyFile ∧ (input.pid ≠ st.xrayPID ∨ st.poolSignature = "") ∧ input.pid = 0 then
      fail "Xray startup selectors are not ready"
    else do
      alter (·.adoptSnapshot pool signature input.pid)
      when (input.pid > 0 ∧ ¬ (← state).inventoryLoaded) loadDynamicInventory
      reconcilePendingOutbounds sha input
      forEach (visitOrder input.policyOrder (← state).retiredByPolicy.keys) pruneRetiredOutbounds
      let reset := (← state).pendingReset
      alter (fun st => { st with pendingReset := false })
      return reset

end Reload

/-! ### Runs -/

/-- A call of the runtime.  `reaches` says that the reverse-portal check lets a probe go on to
    the probe selector. -/
inductive Call where
  | reload (input : ReloadInput)
  | select (selector member : String)
  | current (selector : String) (order : List String)
  | probe (candidate : String) (reaches : Bool)

/-- A call with the outcomes of its API calls and the age of its readbacks. -/
structure Step where
  call : Call
  script : List Outcome
  fresh : String → Bool

section Run

variable (sha : String → String)

/-- The program of a call. -/
def callProg : Call → M Unit
  | .reload input => do
    let _ ← reload sha input
  | .select selector member => select sha selector member
  | .current selector order => do
    let _ ← current sha selector order
  | .probe candidate reaches => do
    when reaches (select sha (← state).probeSelectorName candidate)

/-- One call. -/
def step (st : State) (s : Step) : State :=
  (callProg sha s.call).exec { st with script := s.script, fresh := s.fresh }

/-- A sequence of calls. -/
def run (st : State) (steps : List Step) : State := steps.foldl (step sha) st

/-- `newXraySelectorRuntime` beside an Xray process with the given handlers and overrides. -/
def newXraySelectorRuntime (probeSelector : String) (handlers : Finset String)
    (overrides : String → String) : State where
  probeSelector
  pool := HealthPool.empty
  poolSignature := ""
  xrayPID := 0
  pendingReset := false
  loadedDynamic := ∅
  verifiedDynamic := ∅
  activeByPolicy := fun _ => ""
  activeByNode := ∅
  retiredByPolicy := ∅
  pendingDynamic := ∅
  unknownDynamic := ∅
  inventoryLoaded := false
  selectorMembers := fun _ => ""
  probeRuntimeTag := ""
  handlers
  overrides
  script := []
  fresh := fun _ => false
  removals := []

end Run

end SbGateway.Agent
