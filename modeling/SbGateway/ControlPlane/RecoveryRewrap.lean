import SbGateway.ControlPlane.Secrets

namespace SbGateway.ControlPlane.Recovery

open Lib
open Lib.Calls

/-!
# The change of the administrator's password

The recovery master key is wrapped with the administrator's password, once in the secret store
and once in every retained archive.  A change of the password writes a new wrapper to the inactive
slot of each archive, then to the secret store, and then the new hash.

* `readRecoveryArchivePrefix` — the active wrapper of an archive;
* `rewrapRecoveryProtection` — new wrappers for everything;
* `changePassword` — the handler, with what it does to undo a change that fails.
-/

variable {c : Crypto}

/-! ### Archives -/

/-- The marker, the digest and the fields of the record are in order. -/
def Slot.valid (slot : Slot c) : Bool := slot.generation ≠ 0 && slot.wrapper.supported

/-- Of two valid slots the one of the higher generation; the first, if they are equal. -/
def activeSlot : Option (Slot c) → Option (Slot c) → Option (Bool × Slot c)
  | some first, some second =>
    if first.generation < second.generation then some (true, second) else some (false, first)
  | some first, none => some (false, first)
  | none, some second => some (true, second)
  | none, none => none

/-- The index and the record of the active slot. -/
def readRecoveryArchivePrefix (archive : Archive c) : Except Err (Bool × Slot c) :=
  if archive.readable = false then .error (.text "recovery archive format is not supported")
  else
    match activeSlot ((archive.slots false).filter Slot.valid)
        ((archive.slots true).filter Slot.valid) with
    | none => .error (.text "recovery archive has no valid key wrapper")
    | some active => .ok active

/-- A slot that is to be written. -/
structure RewrapPlan (c : Crypto) where
  name : String
  index : Bool
  record : Slot c

/-- An archive is read. -/
def readArchive (name : String) : Program c (Except FileError (Archive c)) :=
  perform (Call.readArchive name)

/-- A slot of an archive is written. -/
def writeRecoveryWrapperSlot (plan : RewrapPlan c) : Program c (Except FileError Unit) :=
  perform (Call.writeSlot plan.name plan.index plan.record)

/-- The new wrapper goes to the inactive slot, with the next generation. -/
def planArchive (master : c.Key) (wrapper : KeyWrap c) (name : String) (archive : Archive c) :
    Except Err (RewrapPlan c) :=
  match readRecoveryArchivePrefix archive with
  | .error e => .error (.wrapped s!"retained recovery archive {name} is invalid" e)
  | .ok (index, active) =>
    if active.wrapper.keyID ≠ c.keyID master then
      .error (.text s!"retained recovery archive {name} uses another master key")
    else if active.generation = 2 ^ 64 - 1 then
      .error (.text s!"retained recovery archive {name} exhausted wrapper generations")
    else .ok ⟨name, !index, ⟨active.generation + 1, wrapper⟩⟩

/-- All archives are read before the first one is written. -/
def planArchives (master : c.Key) (wrapper : KeyWrap c) :
    List String → Action c (List (RewrapPlan c))
  | [] => return []
  | name :: names => do
    let archive ← inContext s!"retained recovery archive {name} is invalid"
      (orStop (readArchive name))
    let plan ← ExceptT.mk (pure (planArchive master wrapper name archive))
    return plan :: (← planArchives master wrapper names)

/-- The slots are written one after another. -/
def writePlans : List (RewrapPlan c) → Action c Unit
  | [] => return ()
  | plan :: plans => do
    inContext s!"update retained recovery archive {plan.name}"
      (orStop (writeRecoveryWrapperSlot plan))
    writePlans plans

/-! ### New wrappers -/

/-- `secretStore.read` of a secret that must be there. -/
def readRequired (ref : Ref) : Action c (Secret c ref) := orStop (secret (.read ref))

/-- The current password must unwrap the stored master key. -/
def checkCurrent (master : c.Key) (wrapper : KeyWrap c) (currentPassword : String) :
    Except Err Unit :=
  if wrapper.supported = false then .error (.text "recovery key wrapper suite is unsupported")
  else
    match unwrapRecoveryMasterKey wrapper currentPassword with
    | .ok unwrapped =>
      if c.keyID unwrapped = c.keyID master then .ok ()
      else .error (.text "current administrator password does not unlock recovery protection")
    | .error _ =>
      .error (.text "current administrator password does not unlock recovery protection")

/-- The secrets, after the archives. -/
def rewrapSecrets (currentPassword newPassword : String) (wrapper : KeyWrap c) : Action c Unit := do
  writeSecret .backupPassword newPassword true
  match ← ExceptT.lift (writeSecret .keyWrap wrapper true).run with
  | .ok () => return ()
  | .error e =>
    let _ ← ExceptT.lift (writeSecret (c := c) .backupPassword currentPassword true).run
    throw e

/-- The archives that are retained. -/
def listArchives : Program c (Except FileError (List String)) := perform Call.listArchives

/-- Wrap the master key with the new password, everywhere. -/
def rewrapAll (master : c.Key) (currentPassword newPassword : String) : Action c (List String) := do
  let wrapper ← wrapRecoveryMasterKey master newPassword
  let names ← inContext "list recovery archives" (orStop listArchives)
  let plans ← planArchives master wrapper names
  writePlans plans
  rewrapSecrets currentPassword newPassword wrapper
  return names

/-- The keys and the archives are opened by the new password. -/
def rewrapRecoveryProtection (currentPassword newPassword : String) : Action c (List String) :=
  match validateRecoveryPassword newPassword with
  | some e => throw e
  | none => do
    let master ← readRequired .masterKey
    let wrapper ← readRequired .keyWrap
    ExceptT.mk (pure (checkCurrent master wrapper currentPassword))
    rewrapAll master currentPassword newPassword

/-! ### The handler -/

/-- The answer to a failed request. -/
structure RequestFailure where
  status : Nat
  code : String
  message : String
  deriving DecidableEq, Repr

/-- The answer that tells no cause. -/
def internalError : RequestFailure :=
  ⟨500, "internal_error", "The request could not be completed."⟩

/-- The signing key is stored last; if that fails, the old hash and the old wrappers are to come
    back. -/
def storeSigningKey (encoded : c.Hash) (key : c.Key) (currentPassword newPassword : String) :
    Program c (Option RequestFailure) := do
  match ← (writeSecret (c := c) .sessionSigningKey key true).run with
  | .ok () => return none
  | .error _ =>
    let _ ← (writeSecret (c := c) .adminPasswordHash encoded true).run
    let _ ← (rewrapRecoveryProtection (c := c) newPassword currentPassword).run
    return some internalError

/-- The hash is stored after the wrappers; if that fails, the old wrappers are to come back. -/
def storeHash (encoded newHash : c.Hash) (key : c.Key) (currentPassword newPassword : String) :
    Program c (Option RequestFailure) := do
  match ← (writeSecret (c := c) .adminPasswordHash newHash true).run with
  | .ok () => storeSigningKey encoded key currentPassword newPassword
  | .error _ =>
    let _ ← (rewrapRecoveryProtection (c := c) newPassword currentPassword).run
    return some internalError

/-- The salt of the new hash and the new signing key.  The session of the response needs random
    bytes as well. -/
def newCredentials : Action c (c.Salt × c.Key) := do
  let salt ← orStop randomSalt
  let key ← orStop randomKey
  let _session ← orStop randomKey
  return (salt, key)

/-- The change itself, after the request was checked. -/
def applyPassword (encoded : c.Hash) (currentPassword newPassword : String) :
    Program c (Option RequestFailure) := do
  match ← (newCredentials (c := c)).run with
  | .error _ => return some internalError
  | .ok (salt, key) =>
    match ← (rewrapRecoveryProtection (c := c) currentPassword newPassword).run with
    | .error _ => return some ⟨500, "recovery_protection_failed",
        "Encrypted recovery protection could not be updated."⟩
    | .ok _ => storeHash encoded (c.makeHash newPassword salt) key currentPassword newPassword

/-- `authPassword`: the failure of a change of the password, if any. -/
def changePassword (currentPassword newPassword confirmation : String) :
    Program c (Option RequestFailure) := do
  match ← (readOptional (c := c) .adminPasswordHash).run with
  | .ok (some encoded) =>
    if c.verify currentPassword encoded = false then
      return some ⟨403, "administrator_password_invalid",
        "Current administrator password is invalid."⟩
    else if validateRecoveryPassword newPassword ≠ none ∨ newPassword ≠ confirmation then
      return some ⟨422, "weak_administrator_password",
        "New password must contain at least 12 characters and match confirmation."⟩
    else if c.verify newPassword encoded = true then
      return some ⟨422, "administrator_password_unchanged",
        "Choose a password different from the current one."⟩
    else applyPassword encoded currentPassword newPassword
  | _ =>
    return some ⟨403, "administrator_password_invalid",
      "Current administrator password is invalid."⟩

end SbGateway.ControlPlane.Recovery
