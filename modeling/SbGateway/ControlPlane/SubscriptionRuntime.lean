import SbGateway.ControlPlane.Storage
import SbGateway.RuntimeConfig.EndpointBypass

namespace SbGateway.ControlPlane.Subscription

open Lib
open Lib.Calls
open RuntimeConfig.Endpoints

/-!
# The activation of subscription nodes

New nodes of a subscription are installed in the runtime without an apply.  Three stores change:
the files of the runtime, the bypass list on RouterOS, and the repository.  A journal says that an
activation is not finished; the recovery then installs what the commit point names.

* `World`, `step` — the three stores and the calls to them;
* `installSubscriptionRuntime` — the activation, with its rollback;
* `activatePendingSubscription` — the recovery of an activation that was not finished.
-/

variable {γ ν : Type}

/-! ### The world -/

/-- The files of a runtime, by what they are made from. -/
structure Candidate (γ ν : Type) where
  config : γ
  nodes : List ν

/-- The parts of the server the activation uses. -/
structure Server (γ ν : Type) where
  repository : Env γ ν
  source : Source γ ν
  /-- The digest of the files. -/
  runtimeRevision : Candidate γ ν → String
  /-- There is a RouterOS client for the bypass list. -/
  canSync : Bool

/-- What survives a crash. -/
structure World (γ ν : Type) where
  store : Store γ ν
  runtime : Candidate γ ν
  /-- The bypass list on RouterOS. -/
  bypass : Finset String

/-- The effects of an activation. -/
inductive Call (γ ν : Type) where
  | store (request : FileCall (Content γ ν))
  | prepare (candidate : Candidate γ ν)
  | savePrevious
  | publish (candidate : Candidate γ ν)
  | restore (saved : Candidate γ ν)
  | restart
  | syncEndpoints (values : List String) (prune : Bool)
  | commitRuntime

/-- What a call returns. -/
abbrev Reply : Call γ ν → Type
  | .store request => request.Reply
  | .savePrevious => Except FileError (Candidate γ ν)
  | .prepare _ => Except FileError Unit
  | .publish _ => Except FileError Unit
  | .restore _ => Except FileError Unit
  | .restart => Except FileError Unit
  | .syncEndpoints _ _ => Except FileError Unit
  | .commitRuntime => Except FileError Unit

/-- Other files are published. -/
@[simps]
def World.setRuntime (w : World γ ν) (runtime : Candidate γ ν) : World γ ν := { w with runtime }

/-- A document is written. -/
@[simps]
def World.setStore (store : Store γ ν) (w : World γ ν) : World γ ν := { w with store }

/-- `SyncSubscriptionEndpoints`: without `prune` it only adds. -/
@[simps runtime store]
def World.sync (w : World γ ν) (values : List String) (prune : Bool) : World γ ν :=
  { w with bypass := if prune then values.toFinset else w.bypass ∪ values.toFinset }

/-- A call and how it ends. -/
def step : (request : Call γ ν) → Ending → World γ ν → Reply request × World γ ν
  | .store request, ending, w =>
    let (reply, store) := fileStep request ending w.store
    (reply, w.setStore store)
  | .prepare _, ending, w => (ending.confirm, w)
  | .savePrevious, ending, w => (ending.answer (.ok w.runtime), w)
  | .publish candidate, ending, w =>
    (ending.confirm, if ending.takesEffect then w.setRuntime candidate else w)
  | .restore saved, ending, w =>
    (ending.confirm, if ending.takesEffect then w.setRuntime saved else w)
  | .restart, ending, w => (ending.confirm, w)
  | .syncEndpoints values prune, ending, w =>
    (ending.confirm, if ending.takesEffect then w.sync values prune else w)
  | .commitRuntime, ending, w => (ending.confirm, w)

/-! ### Programs -/

/-- A program of these calls. -/
abbrev Program (γ ν α : Type) := Calls (Call γ ν) Reply α

/-- Code that stops at its first error. -/
abbrev Action (γ ν α : Type) := ExceptT Err (Calls (Call γ ν) Reply) α

/-- A program of the repository. -/
def inStore {α : Type} (program : ControlPlane.Program γ ν α) : Program γ ν α :=
  program.embed Call.store fun _ reply => reply

/-- The store is a part of the world. -/
def storePart : Part fileStep (step (γ := γ) (ν := ν)) Call.store (fun _ reply => reply) where
  get := World.store
  put store w := w.setStore store
  get_put _ _ := rfl
  put_put _ _ _ := rfl
  put_get _ := rfl
  reply _ _ _ := rfl
  effect _ _ _ := rfl

/-- An error ends the action. -/
def orStop {α : Type} (program : Program γ ν (Except FileError α)) : Action γ ν α :=
  ExceptT.mk do return (← program).mapError Err.file

/-- The candidate is validated. -/
def prepare (candidate : Candidate γ ν) : Program γ ν (Except FileError Unit) :=
  perform (Call.prepare candidate)

/-- The published files are saved. -/
def savePrevious : Program γ ν (Except FileError (Candidate γ ν)) := perform Call.savePrevious

/-- The files of the candidate are published. -/
def publishFiles (candidate : Candidate γ ν) : Program γ ν (Except FileError Unit) :=
  perform (Call.publish candidate)

/-- The saved files are published. -/
def restoreFiles (saved : Candidate γ ν) : Program γ ν (Except FileError Unit) :=
  perform (Call.restore saved)

/-- Restart what has changed, and wait until it is ready. -/
def restart : Program γ ν (Except FileError Unit) := perform Call.restart

/-- The bypass list gets the endpoints. -/
def syncSubscriptionEndpoints (values : List String) (prune : Bool) :
    Program γ ν (Except FileError Unit) :=
  perform (Call.syncEndpoints values prune)

/-- The runtime is kept as the last good one. -/
def commitRuntime : Program γ ν (Except FileError Unit) := perform Call.commitRuntime

/-- A document is written. -/
def saveDocument (path : Path) (value : Content γ ν path) : Program γ ν (Except FileError Unit) :=
  inStore (writeJSON path value)

/-- The files a change replaced; nothing, if there is no receipt of a change. -/
abbrev Receipt (γ ν : Type) := Option (Candidate γ ν)

/-- The receipt and the error.  A publication that fails is undone at once, and there is no receipt
    for it, whether that succeeds or not. -/
def activateSubscription (candidate : Candidate γ ν) : Program γ ν (Receipt γ ν × Option Err) := do
  match ← savePrevious with
  | .error e => return (none, some (.file e))
  | .ok saved =>
    match ← publishFiles candidate with
    | .error e =>
      let restored ← restoreFiles saved
      return (none, Err.joined (some (.file e)) (failure (restored.mapError .file)))
    | .ok () =>
      let ready ← restart
      return (some saved, failure (ready.mapError .file))

/-- Without a receipt there is nothing to restore. -/
def rollbackSubscription : Receipt γ ν → Program γ ν (Option Err)
  | none => do return failure ((← restart).mapError .file)
  | some saved => do
    match ← restoreFiles saved with
    | .error e => return some (.file e)
    | .ok () => return failure ((← restart).mapError .file)

/-! ### The activation -/

/-- An error and the stage it ended. -/
structure StageError where
  stage : String
  cause : Err

/-- What is to be installed, and what for. -/
structure Plan (γ ν : Type) where
  config : γ
  metadata : Document
  nodes : List ν
  previousEndpoints : List String
  desiredEndpoints : List String
  source : String

namespace Plan

variable (plan : Plan γ ν)

/-- What the plan publishes. -/
def candidate : Candidate γ ν := ⟨plan.config, plan.nodes⟩

/-- The bypass list must change. -/
def endpointsChanged : Bool := plan.source ≠ plan.metadata.text "routeros_source"

/-- The revision of the nodes. -/
def nodesRevision (server : Server γ ν) : String := server.repository.nodesRevision plan.nodes

/-- What the plan commits. -/
def commit (server : Server γ ν) : CommitMetadata where
  revision := plan.metadata.text "revision"
  previousRevision := plan.metadata.text "previous_revision"
  runtimeRevision := server.runtimeRevision plan.candidate
  previousRuntimeRevision := plan.metadata.text "runtime_revision"
  nodeSnapshotRevision := plan.nodesRevision server
  previousNodeSnapshotRevision := plan.metadata.text "node_snapshot_revision"
  routerOSSource := plan.source
  backupRef := (plan.metadata.lookup "backup_ref").getD .null
  actor := "subscription-refresh"
  committedAt := some server.repository.now

/-- The document names the snapshot and the runtime of the plan. -/
def namedBy (server : Server γ ν) (document : Document) : Bool :=
  document.lookup "node_snapshot_revision" == some (.text (plan.nodesRevision server)) &&
    document.lookup "runtime_revision" == some (.text (server.runtimeRevision plan.candidate))

end Plan

section

variable (server : Server γ ν) (plan : Plan γ ν)

/-- What is decided before anything is written. -/
def makePlan (config : γ) (metadata : Document) (previousNodes nodes : List ν) :
    Except StageError (Plan γ ν) :=
  match routerOSEndpointBypass server.source config previousNodes with
  | .error e => .error ⟨"endpoint_model", .text e⟩
  | .ok previous =>
    match routerOSEndpointBypass server.source config nodes with
    | .error e => .error ⟨"endpoint_model", .text e⟩
    | .ok desired =>
      match updateRouterOSEndpointSource (metadata.text "routeros_source") previous desired with
      | .error e => .error ⟨"endpoint_source", .text e⟩
      | .ok source =>
        let plan : Plan γ ν := ⟨config, metadata, nodes, previous, desired, source⟩
        if plan.endpointsChanged ∧ server.canSync = false then
          .error ⟨"endpoint_source", .text "subscription endpoint sync unavailable"⟩
        else .ok plan

/-- The journal of an activation that goes on. -/
def pendingJournal (endpointsChanged : Bool) : Document :=
  [("endpoints_changed", .bool endpointsChanged), ("pending", .bool true)]

/-- The journal is written. -/
def saveJournal (journal : Document) : Program γ ν (Except FileError Unit) :=
  saveDocument (.journal .subscriptionRuntime) journal

/-- The candidate, its snapshot and the journal. -/
def beginActivation : Program γ ν (Option StageError) := do
  match ← prepare plan.candidate with
  | .error e => return some ⟨"runtime_prepare", .file e⟩
  | .ok () =>
    match ← saveDocument (.snapshot (plan.nodesRevision server))
        ⟨plan.nodesRevision server, plan.nodes⟩ with
    | .error e => return some ⟨"snapshot_save", .file e⟩
    | .ok () =>
      match ← saveJournal (pendingJournal plan.endpointsChanged) with
      | .error e => return some ⟨"snapshot_save", .file e⟩
      | .ok () => return none

/-- The bypass list is only touched if it is to change. -/
def syncWhenChanged (changed : Bool) (values : List String) (prune : Bool) :
    Program γ ν (Option Err) := do
  if changed then return failure ((← syncSubscriptionEndpoints values prune).mapError .file)
  else return none

/-- The end of a rollback that went well. -/
def clearRollback (stage : String) (cause : Err) : Program γ ν (Option StageError) := do
  match ← saveJournal [] with
  | .error e => return some ⟨stage, .join cause (.file e)⟩
  | .ok () => return some ⟨stage, cause⟩

/-- The bypass list goes back even if the runtime does not. -/
def finishRollback (stage : String) (cause : Err) (runtimeErr : Option Err) :
    Program γ ν (Option StageError) := do
  let listErr ← syncWhenChanged plan.endpointsChanged plan.previousEndpoints true
  match Err.joined runtimeErr listErr with
  | some e => return some ⟨stage, .join cause e⟩
  | none => clearRollback stage cause

/-- The runtime and then the rest are restored. -/
def rollback (receipt : Receipt γ ν) (stage : String) (cause : Err) :
    Program γ ν (Option StageError) := do
  finishRollback plan stage cause (← rollbackSubscription receipt)

/-- The end of an activation that is committed. -/
def finishActivation : Program γ ν (Option StageError) := do
  match ← commitRuntime with
  | .error e => return some ⟨"runtime_commit", .file e⟩
  | .ok () =>
    match ← saveJournal [] with
    | .error e => return some ⟨"runtime_commit", .file e⟩
    | .ok () => return none

/-- Whether the reader found the commit of the plan. -/
def confirmed : Except FileError Document → Bool
  | .error _ => false
  | .ok document => plan.namedBy server document

/-- The commit, and a rollback if it is not published. -/
def commitActivation (receipt : Receipt γ ν) : Program γ ν (Option StageError) := do
  let (_, committed) ← inStore (commitActiveDetailed server.repository (plan.commit server))
  match committed with
  | none => finishActivation
  | some e =>
    -- `active.json` is the commit point even if a derivative write failed
    let active ← inStore (readJSON (.pointer .active))
    if confirmed server plan active then
      match ← inStore (reconcileCommitPointers server.repository) with
      | some e => return some ⟨"metadata_commit", e⟩
      | none => finishActivation
    else rollback plan receipt "metadata_commit" e

/-- The stages between the journal and the commit. -/
def runActivation : Program γ ν (Option StageError) := do
  match ← syncWhenChanged plan.endpointsChanged plan.desiredEndpoints false with
  | some e => rollback plan none "endpoint_prepare" e
  | none =>
    match ← activateSubscription plan.candidate with
    | (receipt, some e) => rollback plan receipt "runtime_activate" e
    | (receipt, none) =>
      match ← syncWhenChanged plan.endpointsChanged plan.desiredEndpoints true with
      | some e => rollback plan receipt "endpoint_cleanup" e
      | none => commitActivation server plan receipt

/-- The journal first, then the activation. -/
def installPlan : Program γ ν (Option StageError) := do
  match ← beginActivation server plan with
  | some e => return some e
  | none => runActivation server plan

/-- The error of the activation, with its stage. -/
def installSubscriptionRuntime (config : γ) (metadata : Document)
    (previousNodes nodes : List ν) : Program γ ν (Option StageError) :=
  match makePlan server config metadata previousNodes nodes with
  | .error e => return some e
  | .ok plan => installPlan server plan

end

/-! ### The recovery -/

/-- A document that is absent counts as empty. -/
def readDocument (reply : Except FileError Document) : Except FileError Document :=
  match reply with
  | .error .notExist => .ok []
  | reply => reply

/-- The snapshot that a commit names. -/
def snapshotRevision (metadata : Document) : String :=
  if metadata.text "node_snapshot_revision" = "" then metadata.text "revision"
  else metadata.text "node_snapshot_revision"

section

variable (server : Server γ ν)

/-- A snapshot must have the revision that names it; only the first one is named after its
    configuration. -/
def checkSnapshot (metadata : Document) : Except FileError (Snapshot ν) → Except Err (List ν)
  | .error .notExist => .error (.text "committed subscription snapshot missing")
  | .error e => .error (.file e)
  | .ok snapshot =>
    if snapshot.revision ≠ snapshotRevision metadata then
      .error (.text "committed subscription snapshot missing")
    else if snapshotRevision metadata ≠ metadata.text "revision" ∧
        server.repository.nodesRevision snapshot.nodes ≠ snapshotRevision metadata then
      .error (.text "subscription snapshot checksum mismatch")
    else .ok snapshot.nodes

/-- The bypass list of the committed nodes, if it is to be restored. -/
def recoveredEndpoints (candidate : Candidate γ ν) (changed : Bool) : Except Err (List String) :=
  if changed then
    (routerOSEndpointBypass server.source candidate.config candidate.nodes).mapError .text
  else .ok []

/-- An error ends the action. -/
def orFail (program : Program γ ν (Option Err)) : Action γ ν Unit :=
  ExceptT.mk do
    match ← program with
    | some e => return .error e
    | none => return .ok ()

/-- Install the committed nodes again. -/
def recoverPending (candidate : Candidate γ ν) (changed : Bool) : Action γ ν Unit := do
  orStop (prepare candidate)
  let endpoints ← ExceptT.mk (pure (recoveredEndpoints server candidate changed))
  orFail (syncWhenChanged changed endpoints false)
  orFail (do return (← activateSubscription candidate).2)
  orFail (syncWhenChanged changed endpoints true)
  orStop commitRuntime
  orStop (saveJournal [])

/-- What is committed: the metadata, the configuration and the nodes. -/
def loadCommitted : Action γ ν (Option (Candidate γ ν)) := do
  orFail (inStore (reconcileCommitPointers server.repository))
  let metadata ← orStop (do
    return readDocument (← inStore (readJSON (.pointer .applyMetadata))))
  if safeRevision (metadata.text "revision") = false then return none
  else
    let config ← ExceptT.mk (inStore (loadGeneration server.repository (metadata.text "revision")))
    let nodes ← ExceptT.mk do
      return checkSnapshot server metadata
        (← inStore (readJSON (.snapshot (snapshotRevision metadata))))
    return some ⟨config, nodes⟩

/-- The field is `true`. -/
def Document.isTrue (document : Document) (key : String) : Bool :=
  document.lookup key == some (.bool true)

/-- The recovery, if one is pending: whether there was one. -/
def activatePendingSubscription : Action γ ν Bool := do
  match ← loadCommitted server with
  | none => return false
  | some candidate =>
    let journal ← orStop (do
      return readDocument (← inStore (readJSON (.journal .subscriptionRuntime))))
    if Document.isTrue journal "pending" then
      recoverPending server candidate (Document.isTrue journal "endpoints_changed")
      return true
    else return false

end

end SbGateway.ControlPlane.Subscription
