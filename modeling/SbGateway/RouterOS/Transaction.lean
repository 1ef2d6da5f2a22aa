import SbGateway.RouterOS.Router

namespace SbGateway.RouterOS

open Lib
open Lib.Calls

/-!
# RouterOS transactions (`internal/routeros/transaction.go`, `rollback.go`, `safe_mode.go`)

A transaction runs a candidate under two rollback mechanisms: a one-shot scheduler on RouterOS
that runs the rollback script (the guard), and Safe Mode of an interactive console.
`applyDelta` installs small deltas as scripts, `applyCandidate` uploads files and installs import
scripts; both arm the guard and continue with `applyPrepared`.
-/

/-! ### Errors -/

/-- `TransactionFailureState`. -/
inductive FailureState where
  | rolledBack
  | recoveryPending
  | stateUnconfirmed
  deriving DecidableEq, Repr

/-- An error value with what it wraps. -/
inductive Err where
  | text (message : String)
  | call (cause : CallError)
  /-- `ErrRollbackGuardPending`. -/
  | guardPending
  /-- `ErrRollbackGuardUnconfirmed`. -/
  | guardUnconfirmed
  /-- `errors.Join`. -/
  | join (first second : Err)
  /-- `TransactionFailure`. -/
  | failure (state : FailureState) (cause : Err)
  deriving DecidableEq, Repr

namespace Err

/-- `TransactionFailureStateOf`: the state of the first failure in the tree. -/
def state : Err → Option FailureState
  | failure state _ => some state
  | join first second => first.state <|> second.state
  | _ => none

/-- `errors.Is` for one of the two guard errors. -/
def isGuardError : Err → Bool
  | guardPending => true
  | guardUnconfirmed => true
  | join first second => first.isGuardError || second.isGuardError
  | failure _ cause => cause.isGuardError
  | _ => false

/-- `DefinitiveRequestRejection`. -/
def definitiveRejection : Err → Bool
  | call .rejected => true
  | join first second => first.definitiveRejection || second.definitiveRejection
  | failure _ cause => cause.definitiveRejection
  | _ => false

/-- `errors.Join`, which leaves out a missing error. -/
def joined (first : Err) : Except Err Unit → Err
  | .ok _ => first
  | .error second => join first second

end Err

/-! ### Programs -/

/-- A program of calls to RouterOS. -/
abbrev Program (α : Type) : Type := Calls Call Reply α

/-- A program that stops at its first error. -/
abbrev Action (α : Type) : Type := ExceptT Err (Calls Call Reply) α

/-- A call whose failure is an error of the program. -/
def request (call : Call) : Action (Payload call) :=
  ExceptT.mk (do return (← perform call).mapError .call)

/-! ### Names -/

/-- The role of a script or an import. -/
inductive Role where
  | apply
  | rollback
  deriving DecidableEq, Repr

namespace Role

/-- The role in a name. -/
def text : Role → String
  | apply => "apply"
  | rollback => "rollback"

/-- What the sources of the role install. -/
def generation : Role → Generation
  | apply => .candidate
  | rollback => .previous

end Role

/-- What the transaction takes from elsewhere: twelve digits of SHA-256, and the checks of
    generated sources. -/
structure Env where
  digest : String → String
  validateDirectDelta : String → Option String
  validateImportedDelta : String → Option String
  /-- The check of a full candidate or an imported delta, whichever its header announces. -/
  validateUpload : String → Option String

variable (env : Env)

/-- `managedScriptName`. -/
def managedScriptName (role : Role) (source : String) : String :=
  "SB-GATEWAY-" ++ role.text ++ "-" ++ env.digest source

/-- `managedImportName`. -/
def managedImportName (role : Role) (source : String) : String :=
  "SB-GATEWAY-" ++ role.text ++ "-" ++ env.digest source ++ ".rsc"

/-- `rollbackSchedulerComment`. -/
def rollbackSchedulerComment : String := "SB-GATEWAY Safe Mode rollback fallback"

/-- The fixed part of a guard's name. -/
def guardStem : List Char := "SB-GATEWAY-safe-rollback-".toList

/-- `rollbackSchedulerNamePattern`: the stem and eight hexadecimal digits. -/
def rollbackSchedulerNamePattern (name : String) : Bool :=
  guardStem.isPrefixOf name.toList &&
    (name.toList.drop guardStem.length).length == 8 &&
    (name.toList.drop guardStem.length).all fun c =>
      ('0' ≤ c && c ≤ '9') || ('a' ≤ c && c ≤ 'f')

/-- The name of a guard with a random nonce. -/
def guardName (nonce : BitVec 32) : String :=
  String.ofList (guardStem ++
    (List.range 8).map fun i => Nat.digitChar (nonce.toNat / 16 ^ (7 - i) % 16))

/-! ### The guard -/

/-- A guard of the project that has not fired. -/
def Scheduler.pending (row : Scheduler) : Bool :=
  rollbackSchedulerNamePattern row.name && row.comment == rollbackSchedulerComment &&
    (row.runCount == none || row.runCount == some 0)

/-- `ensureNoPendingRollbackGuard`. -/
def ensureNoPendingRollbackGuard : Action Unit := do
  let rows : List Scheduler ← request .listSchedulers
  if rows.any Scheduler.pending then throw .guardPending

/-- `ArmRollback`: a request that was not definitively rejected may have taken effect. -/
def armRollback (nonce : BitVec 32) (script managedImport : String) : Action String := do
  ensureNoPendingRollbackGuard
  request .readClock
  let name := guardName nonce
  match ← ExceptT.lift
      (request (.putScheduler name rollbackSchedulerComment script managedImport)).run with
  | .ok _ => return name
  | .error e => if e.definitiveRejection then throw e else throw (.join .guardUnconfirmed e)

/-- The scheduler of the name, if the project owns it. -/
def ownedScheduler (name : String) (rows : List Scheduler) : Except Err (Option ℕ) :=
  rows.foldlM (fun found row =>
    if row.name ≠ name then .ok found
    else if found.isSome then .error (.text "RouterOS rollback scheduler is ambiguous")
    else if row.comment ≠ rollbackSchedulerComment then
      .error (.text "refusing to remove an unowned RouterOS scheduler")
    else .ok (some row.id)) none

/-- `DisarmRollback`: a guard that is not there needs no removal. -/
def disarmRollback (name : String) : Action Unit := do
  if !rollbackSchedulerNamePattern name then
    throw (.text "RouterOS rollback scheduler name is invalid")
  else
    let rows : List Scheduler ← request .listSchedulers
    match ownedScheduler name rows with
    | .error e => throw e
    | .ok none => return ()
    | .ok (some id) => request (.deleteScheduler id)

/-! ### Safe Mode -/

/-- `SafeModeSession`. -/
structure Session where
  active : Bool
  autoReleased : Bool
  closed : Bool
  deriving DecidableEq, Repr

/-- `SafeModeSession.begin`: a prompt without the Safe Mode mark says that the mode released
    itself at its history limit. -/
def Session.begin (script : String) : Action Session := do
  request .takeSafeMode
  request (.runInConsole script)
  let safe : Bool ← request .readPrompt
  return { active := safe, autoReleased := !safe, closed := false }

/-- `SafeModeSession.Abort`: closing the owner makes RouterOS undo the floating history. -/
def Session.abort (session : Session) : Action Unit :=
  if session.closed then pure () else request .closeConsole

/-- `BeginSafeMode`. -/
def beginSafeMode (script : String) : Action Session := do
  request .openConsole
  match ← ExceptT.lift (Session.begin script).run with
  | .ok session => return session
  | .error e =>
    let _ ← ExceptT.lift (request .closeConsole).run
    throw e

/-- `SafeModeSession.Commit`. -/
def Session.commit (session : Session) : Action Unit := do
  if session.closed || (!session.active && !session.autoReleased) then
    throw (.text "RouterOS Safe Mode session is not active")
  else if session.autoReleased then request .closeConsole
  else
    match ← ExceptT.lift (request .releaseSafeMode).run with
    | .ok _ => request .closeConsole
    | .error e =>
      let _ ← ExceptT.lift session.abort.run
      throw e

/-! ### Recovery -/

/-- `cleanup` of the imports, if there are any. -/
def cleanupImports (imports : List String) : Action Unit :=
  if imports = [] then pure () else request (.removeImports imports)

/-- `rollbackCommitted`, which `rollbackPrepared` calls with a fresh context. -/
def rollbackPrepared (rollbackName scheduler : String) (imports : List String) : Action Unit := do
  request (.runScript rollbackName)
  request .waitSettled
  disarmRollback scheduler
  cleanupImports imports

/-- `restoreWhileGuardArmed`. -/
def restoreWhileGuardArmed (rollbackName : String) : Action Unit := do
  request (.runScript rollbackName)
  request .waitSettled

/-- `restoreAfterGuardDisarmed`. -/
def restoreAfterGuardDisarmed (rollbackName : String) (imports : List String) : Action Unit := do
  request (.runScript rollbackName)
  request .waitSettled
  cleanupImports imports

/-- The first error of two attempts that are both made. -/
def firstError (first second : Except Err Unit) : Except Err Unit :=
  match first, second with
  | .error e, second => .error (e.joined second)
  | .ok _, second => second

/-- The rollback script runs if Safe Mode has released itself. -/
def rollbackIfReleased (session : Session) (rollbackName : String) : Action Unit :=
  if session.autoReleased then request (.runScript rollbackName) else pure ()

/-- `cleanupAfterAbort`. -/
def cleanupAfterAbort (scheduler rollbackName : String) (session : Session)
    (imports : List String) : Action Unit := do
  let aborted ← ExceptT.lift session.abort.run
  let rolled ← ExceptT.lift (rollbackIfReleased session rollbackName).run
  let settled ← ExceptT.lift (request .waitSettled).run
  match firstError (firstError aborted rolled) settled with
  | .error e => throw e
  | .ok _ =>
    disarmRollback scheduler
    cleanupImports imports

/-- `cleanupUnarmedImports`. -/
def cleanupUnarmedImports (imports : List String) : Action Unit := do
  match ← ExceptT.lift ensureNoPendingRollbackGuard.run with
  | .error e => throw (.failure .recoveryPending e)
  | .ok _ => request (.removeImports imports)

/-! ### The transaction -/

/-- `TransactionOptions`: which callbacks are given, and whether Safe Mode is left out. -/
structure Options where
  healthCheck : Bool
  beforeApply : Bool
  finalize : Bool
  schedulerGuardOnly : Bool
  deriving DecidableEq, Repr

/-- `TransactionResult`. -/
structure Result where
  applyScript : String
  rollbackScript : String
  historyCapReached : Bool
  cleanupPending : Bool
  guardMode : String
  deriving DecidableEq, Repr

/-- The result of nothing. -/
def Result.empty : Result := ⟨"", "", false, false, ""⟩

/-- A result, and an error if there is one. -/
abbrev Outcome : Type := Result × Option Err

/-- `guardedFailure`: rolled back if the recovery succeeded, else the guard is left to act. -/
def guardedFailure (message : String) (cause : Err) (recovery : Except Err Unit) : Err :=
  .failure (match recovery with | .ok _ => .rolledBack | .error _ => .recoveryPending)
    ((Err.text message).join (cause.joined recovery))

/-- The failure after the guard is gone: without a recovery nothing is known. -/
def finalizeFailure (cause : Err) (recovery : Except Err Unit) : Err :=
  .failure (match recovery with | .ok _ => .rolledBack | .error _ => .stateUnconfirmed)
    ((Err.text "RouterOS candidate finalization failed").join (cause.joined recovery))

/-- `BeforeApply`, if it is given. -/
def Options.runBeforeApply (options : Options) : Action Unit :=
  if options.beforeApply then request .beforeApply else pure ()

/-- `Finalize`, if it is given. -/
def Options.runFinalize (options : Options) : Action Unit :=
  if options.finalize then request .finalize else pure ()

section

variable (result : Result) (scheduler : String) (options : Options) (imports : List String)

/-- The last part: the guard is gone. -/
def finalizeCandidate : Program Outcome := do
  match ← options.runFinalize.run with
  | .error e =>
    let recovery ← (restoreAfterGuardDisarmed result.rollbackScript imports).run
    return (result, some (finalizeFailure e recovery))
  | .ok _ =>
    let cleaned ← (cleanupImports imports).run
    return ({ result with cleanupPending := cleaned.isOk = false }, none)

/-- The end of both ways: the health check has passed, the candidate is committed. -/
def disarmAndFinalize : Program Outcome := do
  match ← (disarmRollback scheduler).run with
  | .error e =>
    let recovery ← (restoreWhileGuardArmed result.rollbackScript).run
    return (result, some
      (guardedFailure "RouterOS rollback guard could not be disarmed" e recovery))
  | .ok _ => finalizeCandidate result options imports

/-- `applyWithSchedulerGuard`. -/
def applyWithSchedulerGuard : Program Outcome := do
  match ← (request (.runScript result.applyScript)).run with
  | .error e =>
    let recovery ← (rollbackPrepared result.rollbackScript scheduler imports).run
    return (result, some (guardedFailure "RouterOS guarded candidate failed" e recovery))
  | .ok _ =>
    match ← (request .healthCheck).run with
    | .error e =>
      let recovery ← (rollbackPrepared result.rollbackScript scheduler imports).run
      return (result, some
        (guardedFailure "RouterOS candidate failed post-apply health check" e recovery))
    | .ok _ => disarmAndFinalize result scheduler options imports

/-- The candidate inside Safe Mode, with the scheduler as a fallback. -/
def applyInSafeMode : Program Outcome := do
  match ← (beginSafeMode result.applyScript).run with
  | .error e =>
    match ← (request .waitSettled).run with
    | .error settleErr => return (result, some (.failure .recoveryPending (e.join settleErr)))
    | .ok _ =>
      applyWithSchedulerGuard { result with guardMode := "rollback_scheduler_fallback" } scheduler
        options imports
  | .ok session =>
    let result := { result with
      guardMode := "ssh_safe_mode"
      historyCapReached := session.autoReleased }
    match ← (request .healthCheck).run with
    | .error e =>
      let recovery ← (cleanupAfterAbort scheduler result.rollbackScript session imports).run
      return (result, some
        (guardedFailure "RouterOS candidate failed post-apply health check" e recovery))
    | .ok _ =>
      match ← (do session.commit; request .waitSettled : Action Unit).run with
      | .error e => return (result, some (.failure .recoveryPending e))
      | .ok _ => disarmAndFinalize result scheduler options imports

/-- `applyPrepared`: the guard is armed. -/
def applyPrepared : Program Outcome := do
  match ← options.runBeforeApply.run with
  | .error e =>
    let recovery ← (rollbackPrepared result.rollbackScript scheduler imports).run
    return (result, some (guardedFailure "RouterOS pre-apply runtime guard failed" e recovery))
  | .ok _ =>
    if options.schedulerGuardOnly then
      applyWithSchedulerGuard { result with guardMode := "rollback_scheduler" } scheduler options
        imports
    else applyInSafeMode result scheduler options imports

end

/-- `classifyRollbackArmFailure`. -/
def classifyRollbackArmFailure (e : Err) : Err :=
  if e.isGuardError then .failure .recoveryPending e else e

/-- `uploadCandidate`. -/
def uploadCandidate (role : Role) (source : String) : Action String := do
  match env.validateUpload source with
  | some message => throw (.text message)
  | none =>
    request (.upload (managedImportName env role source) role.generation)
    return managedImportName env role source

/-- `PrepareImportScript`. -/
def prepareImportScript (role : Role) (importName : String) : Action String := do
  let name := managedScriptName env role ("/import file-name=\"" ++ importName ++ "\" verbose=no")
  request (.installScript name (.importFile importName))
  return name

/-- `PrepareDirectDelta`. -/
def prepareDirectDelta (role : Role) (source : String) : Action String := do
  match env.validateDirectDelta source with
  | some message => throw (.text message)
  | none =>
    request (.installScript (managedScriptName env role source) (.delta role.generation))
    return managedScriptName env role source

/-- `ApplyCandidate`. -/
def applyCandidate (nonce : BitVec 32) (applySource rollbackSource : String)
    (options : Options) : Program Outcome := do
  if !options.healthCheck then
    return (.empty, some (.text "RouterOS post-apply health check is required"))
  else match ← ensureNoPendingRollbackGuard.run with
  | .error e => return (.empty, some (.failure .recoveryPending e))
  | .ok _ => match ← (uploadCandidate env .rollback rollbackSource).run with
  | .error e => return (.empty, some e)
  | .ok rollbackImport => match ← (uploadCandidate env .apply applySource).run with
  | .error e =>
    let cleaned ← (cleanupUnarmedImports [rollbackImport]).run
    return (.empty, some (e.joined cleaned))
  | .ok applyImport =>
    let imports := [applyImport, rollbackImport]
    match ← (prepareImportScript env .rollback rollbackImport).run with
    | .error e =>
      let cleaned ← (cleanupUnarmedImports imports).run
      return (.empty, some (e.joined cleaned))
    | .ok rollbackName => match ← (prepareImportScript env .apply applyImport).run with
    | .error e =>
      let cleaned ← (cleanupUnarmedImports imports).run
      return ({ Result.empty with rollbackScript := rollbackName }, some (e.joined cleaned))
    | .ok applyName =>
      let result := { Result.empty with rollbackScript := rollbackName, applyScript := applyName }
      match ← (armRollback nonce rollbackName rollbackImport).run with
      | .error e =>
        if (classifyRollbackArmFailure e).state.isSome then
          return (result, some (classifyRollbackArmFailure e))
        else
          let cleaned ← (cleanupUnarmedImports imports).run
          return (result, some ((classifyRollbackArmFailure e).joined cleaned))
      | .ok scheduler => applyPrepared result scheduler options imports

/-- `maxDirectScriptBytes`. -/
def maxDirectScriptBytes : ℕ := 16 * 1024

/-- `ApplyDelta`. -/
def applyDelta (nonce : BitVec 32) (applySource rollbackSource : String) (options : Options) :
    Program Outcome := do
  if applySource.utf8ByteSize > maxDirectScriptBytes ∨
      rollbackSource.utf8ByteSize > maxDirectScriptBytes then
    match env.validateImportedDelta applySource <|> env.validateImportedDelta rollbackSource with
    | some message => return (.empty, some (.text message))
    | none => applyCandidate env nonce applySource rollbackSource options
  else if !options.healthCheck then
    return (.empty, some (.text "RouterOS post-apply health check is required"))
  else match ← (prepareDirectDelta env .rollback rollbackSource).run with
  | .error e => return (.empty, some e)
  | .ok rollbackName => match ← (prepareDirectDelta env .apply applySource).run with
  | .error e => return ({ Result.empty with rollbackScript := rollbackName }, some e)
  | .ok applyName =>
    let result := { Result.empty with rollbackScript := rollbackName, applyScript := applyName }
    match ← (armRollback nonce rollbackName "").run with
    | .error e => return (result, some (classifyRollbackArmFailure e))
    | .ok scheduler => applyPrepared result scheduler options []

end SbGateway.RouterOS
