import Mathlib
import SbGateway.Lib.Files

namespace SbGateway.ControlPlane.Recovery

open Lib
open Lib.Calls

/-!
# Secrets and recovery archives

The secret store, the recovery archives with their two key slots, and the wrapping of the
recovery master key by the administrator's password.

* `Crypto`, `Crypto.Ideal` — the primitives the code uses, and what is assumed of them;
* `wrapRecoveryMasterKey`, `unwrapRecoveryMasterKey` — the master key under a password;
* `World`, `step` — the stored state and the calls that change it.
-/

/-! ### Keys and passwords -/

/-- The primitives: SHA-256 of a key, AES-256-GCM under a key that scrypt derives from a
    password, and the password hash.  The `Id` is part of what is authenticated. -/
structure Crypto where
  Key : Type
  Salt : Type
  Nonce : Type
  Id : Type
  Box : Type
  Hash : Type
  decideId : DecidableEq Id
  keyID : Key → Id
  encrypt : String → Salt → Nonce → Id → Key → Box
  decrypt : String → Salt → Nonce → Id → Box → Option Key
  makeHash : String → Salt → Hash
  verify : String → Hash → Bool

instance (c : Crypto) : DecidableEq c.Id := c.decideId

/-- Ideal primitives: a box opens with the password it was made with and with no other, a hash
    accepts its password and no other, and different keys have different identifiers. -/
structure Crypto.Ideal (c : Crypto) : Prop where
  decrypt_encrypt : ∀ p s n i k, c.decrypt p s n i (c.encrypt p s n i k) = some k
  decrypt_other : ∀ p p' s n i k, p' ≠ p → c.decrypt p' s n i (c.encrypt p s n i k) = none
  verify_iff : ∀ p p' s, c.verify p' (c.makeHash p s) = true ↔ p' = p
  keyID_injective : ∀ k k', c.keyID k = c.keyID k' → k = k'

variable {c : Crypto}

/-- The only cipher. -/
def recoveryCipher : String := "AES-256-GCM"

/-- The only key derivation. -/
def recoveryKDF : String := "scrypt-16384-8-1"

/-- The master key under a password. -/
structure KeyWrap (c : Crypto) where
  cipher : String
  kdf : String
  salt : c.Salt
  nonce : c.Nonce
  wrappedKey : c.Box
  keyID : c.Id

/-- An error and its context. -/
inductive Err where
  | text (message : String)
  | file (error : FileError)
  | wrapped (context : String) (cause : Err)

/-- Twelve characters, none of them NUL. -/
def validateRecoveryPassword (password : String) : Option Err :=
  if password.length < 12 ∨ '\x00' ∈ password.toList then
    some (.text "recovery password must contain at least 12 characters")
  else none

/-- The wrapper for a salt and a nonce. -/
def wrapKey (master : c.Key) (password : String) (salt : c.Salt) (nonce : c.Nonce) : KeyWrap c where
  cipher := recoveryCipher
  kdf := recoveryKDF
  salt := salt
  nonce := nonce
  wrappedKey := c.encrypt password salt nonce (c.keyID master) master
  keyID := c.keyID master

/-- The cipher suite of a wrapper is the only one there is. -/
def KeyWrap.supported (wrapper : KeyWrap c) : Bool :=
  wrapper.cipher == recoveryCipher && wrapper.kdf == recoveryKDF

/-- The master key, if the password opens the wrapper. -/
def unwrapRecoveryMasterKey (wrapper : KeyWrap c) (password : String) : Except Err c.Key :=
  match validateRecoveryPassword password with
  | some e => .error e
  | none =>
    if wrapper.supported = false then .error (.text "recovery key wrapper suite is unsupported")
    else
      match c.decrypt password wrapper.salt wrapper.nonce wrapper.keyID wrapper.wrappedKey with
      | none => .error (.text "administrator password does not unlock this archive")
      | some master =>
        if c.keyID master = wrapper.keyID then .ok master
        else .error (.text "recovery master key failed verification")

/-! ### The stored state -/

/-- The secrets that are used here. -/
inductive Ref where
  | masterKey
  | keyWrap
  | backupPassword
  | adminPasswordHash
  | sessionSigningKey
  deriving DecidableEq, Repr

/-- The secrets, decoded.  A text that cannot be decoded counts as unreadable. -/
abbrev Secret (c : Crypto) : Ref → Type
  | .masterKey => c.Key
  | .keyWrap => KeyWrap c
  | .backupPassword => String
  | .adminPasswordHash => c.Hash
  | .sessionSigningKey => c.Key

/-- A valid record in a key slot. -/
structure Slot (c : Crypto) where
  generation : Nat
  wrapper : KeyWrap c

/-- An archive: its two key slots, of which each may be invalid, and whether the rest of its
    prefix can be read. -/
structure Archive (c : Crypto) where
  slots : Bool → Option (Slot c)
  readable : Bool

/-- The secrets and the archives. -/
structure World (c : Crypto) where
  secrets : Files (Secret c)
  archives : String → Archive c
  /-- The retained archives, newest first. -/
  retained : List String
  distinct : retained.Nodup

/-- Calls to the disk and to the random source. -/
inductive Call (c : Crypto) where
  | secret (request : FileCall (Secret c))
  | randomKey
  | randomSalt
  | randomNonce
  | listArchives
  | readArchive (name : String)
  | writeSlot (name : String) (index : Bool) (record : Slot c)

/-- What a call returns. -/
abbrev Reply : Call c → Type
  | .secret request => request.Reply
  | .randomKey => Except FileError c.Key
  | .randomSalt => Except FileError c.Salt
  | .randomNonce => Except FileError c.Nonce
  | .listArchives => Except FileError (List String)
  | .readArchive _ => Except FileError (Archive c)
  | .writeSlot _ _ _ => Except FileError Unit

/-- How a call ends; whether a failed write has torn its slot; and the random values. -/
structure Choice (c : Crypto) where
  ending : Ending
  torn : Bool
  key : c.Key
  salt : c.Salt
  nonce : c.Nonce

/-- A secret is stored. -/
def World.setSecret (w : World c) (ref : Ref) (value : Secret c ref) : World c :=
  { w with secrets := w.secrets.set ref (.holds value) }

@[simp] theorem World.setSecret_self (w : World c) (ref : Ref) (value : Secret c ref) :
    (w.setSecret ref value).secrets ref = .holds value :=
  Files.set_self ..

@[simp] theorem World.setSecret_of_ne (w : World c) (value : Secret c ref) (h : other ≠ ref) :
    (w.setSecret ref value).secrets other = w.secrets other :=
  Files.set_of_ne _ _ h

/-- A slot gets a new content. -/
def Archive.setSlot (archive : Archive c) (index : Bool) (slot : Option (Slot c)) : Archive c :=
  { archive with slots := Function.update archive.slots index slot }

/-- A slot of an archive is written. -/
def World.setSlot (w : World c) (name : String) (index : Bool) (slot : Option (Slot c)) : World c :=
  { w with archives := Function.update w.archives name ((w.archives name).setSlot index slot) }

/-- A call and how it ends.  A slot is protected by a digest, so that a record which is written in
    part does not verify. -/
def step : (request : Call c) → Choice c → World c → Reply request × World c
  | .secret request, choice, w =>
    let (reply, secrets) := fileStep request choice.ending w.secrets
    (reply, { w with secrets })
  | .randomKey, choice, w => (choice.ending.answer (.ok choice.key), w)
  | .randomSalt, choice, w => (choice.ending.answer (.ok choice.salt), w)
  | .randomNonce, choice, w => (choice.ending.answer (.ok choice.nonce), w)
  | .listArchives, choice, w => (choice.ending.answer (.ok w.retained), w)
  | .readArchive name, choice, w => (choice.ending.answer (.ok (w.archives name)), w)
  | .writeSlot name index record, choice, w =>
    (choice.ending.confirm,
      if choice.ending.takesEffect then w.setSlot name index (some record)
      else if choice.torn then w.setSlot name index none
      else w)

/-! ### Programs -/

/-- A program of these calls. -/
abbrev Program (c : Crypto) (α : Type) := Calls (Call c) Reply α

/-- Code that stops at its first error. -/
abbrev Action (c : Crypto) (α : Type) := ExceptT Err (Calls (Call c) Reply) α

/-- A call to the secret store. -/
def secret (request : FileCall (Secret c)) : Program c request.Reply :=
  perform (Call.secret request)

/-- Stop at an error of the disk or of the random source. -/
def orStop {α : Type} (program : Program c (Except FileError α)) : Action c α :=
  ExceptT.mk do return (← program).mapError Err.file

/-- Errors are reported with what was tried. -/
def inContext {α : Type} (context : String) (action : Action c α) : Action c α :=
  ExceptT.mk do return (← action.run).mapError (Err.wrapped context)

variable {step' : (request : Call c) → δ → σ → Reply request × σ} {I : σ → Prop}
  {s : σ}

variable {Q : Except Err α → σ → Prop}

theorem wp_orStop :
    wp step' I (orStop program).run Q s ↔ wp step' I program (fun r => Q (r.mapError .file)) s :=
  wp_bind

theorem wp_inContext : wp step' I (inContext context action).run Q s ↔
      wp step' I action.run (fun r => Q (r.mapError (.wrapped context))) s :=
  wp_bind

/-- `secretStore.read` of a secret that need not be there. -/
def readOptional (ref : Ref) : Action c (Option (Secret c ref)) :=
  ExceptT.mk do
    match ← secret (.read ref) with
    | .ok value => return .ok (some value)
    | .error .notExist => return .ok none
    | .error e => return .error (.file e)

/-- The texts that may be stored.  All secrets but a password are encoded by the code itself. -/
def storable : (ref : Ref) → Secret c ref → Bool
  | .backupPassword, password =>
    password ≠ "" && !password.toList.contains '\x00' && password.utf8ByteSize ≤ 2 ^ 20
  | _, _ => true

/-- A secret that is not to be overwritten must not be there. -/
def checkAbsent (ref : Ref) : Action c Unit :=
  ExceptT.mk do
    match ← secret (.stat ref) with
    | .ok _ => return .error (.text "secret reference already exists")
    | .error .notExist => return .ok ()
    | .error e => return .error (.file e)

/-- `secretStore.write` -/
def writeSecret (ref : Ref) (value : Secret c ref) (overwrite : Bool) : Action c Unit :=
  if storable ref value = false then throw (.text "secret value is invalid")
  else if overwrite then orStop (secret (.write ref value))
  else do
    checkAbsent ref
    orStop (secret (.write ref value))

/-- A random key. -/
def randomKey : Program c (Except FileError c.Key) := perform Call.randomKey

/-- A random salt. -/
def randomSalt : Program c (Except FileError c.Salt) := perform Call.randomSalt

/-- A random nonce. -/
def randomNonce : Program c (Except FileError c.Nonce) := perform Call.randomNonce

/-- The master key under a password. -/
def wrapRecoveryMasterKey (master : c.Key) (password : String) : Action c (KeyWrap c) :=
  match validateRecoveryPassword password with
  | some e => throw e
  | none => do
    let salt ← inContext "generate recovery salt" (orStop randomSalt)
    let nonce ← inContext "generate recovery nonce" (orStop randomNonce)
    return wrapKey master password salt nonce

end SbGateway.ControlPlane.Recovery
