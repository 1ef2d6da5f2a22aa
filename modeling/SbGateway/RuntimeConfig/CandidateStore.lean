import SbGateway.Lib.Files

namespace SbGateway.RuntimeConfig.Candidates

open Lib
open Lib.Calls

/-!
# The candidate store

A runtime candidate is a directory with one file for each artifact.  Its activation copies the
files that differ to their destinations; what they replace is saved beside the candidate, for a
rollback.

* `activateAfter` — compare, validate, save and publish;
* `rollbackAfter` — put back what an activation has replaced;
* `commitLastKnownGood` — keep a copy of an activated candidate, and drop what it has replaced.

The paths are those the store has checked: the artifacts have different destinations, and no
destination lies in the directory of a candidate.
-/

/-! ### Files -/

/-- The files the store deals with: the destination of an artifact, the file of a candidate, what
    its activation has saved (`.previous-runtime`), and the last known good copy. -/
inductive Path where
  | destination (name : String)
  | artifact (revision name : String)
  | saved (revision name : String)
  | lkg (name : String)
  | elsewhere (path : String)
  deriving DecidableEq, Repr

/-- The contents of all files are of one type. -/
abbrev Content (β : Type) : Path → Type := fun _ => β

/-- The calls of the store.  The callback is the code that validates the changed set. -/
inductive Call (β : Type) where
  | file (call : FileCall (Content β))
  | removeSaved (revision : String)
  | makeDirectory
  | callback (names : List String)

/-- What a call returns. -/
abbrev Reply {β : Type} : Call β → Type
  | .file request => request.Reply
  | .removeSaved _ => Except FileError Unit
  | .makeDirectory => Except FileError Unit
  | .callback _ => Except FileError Unit

/-- How a call ends; and which files are gone after a removal of a directory has failed. -/
structure Choice where
  ending : Ending
  removed : String → Bool

variable {β : Type}

/-- Remove saved files. -/
def dropSaved (s : Files (Content β)) (revision : String) (which : String → Bool) :
    Files (Content β)
  | .saved revision' name =>
    if revision' = revision ∧ which name = true then .absent else s (.saved revision' name)
  | path => s path

/-- A call and how it ends. -/
def step : (call : Call β) → Choice → Files (Content β) → Reply call × Files (Content β)
  | .file request, choice, s => fileStep request choice.ending s
  | .removeSaved revision, ⟨.done, _⟩, s => (.ok (), dropSaved s revision fun _ => true)
  | .removeSaved revision, choice, s => (.error .failed, dropSaved s revision choice.removed)
  | .makeDirectory, choice, s => (choice.ending.confirm, s)
  | .callback _, choice, s => (choice.ending.confirm, s)

/-! ### Candidates and receipts -/

/-- The directory of a candidate. -/
inductive Directory where
  | managed (revision : String)
  | elsewhere (path : String)
  deriving DecidableEq, Repr

/-- The artifacts of a revision. -/
structure RuntimeCandidate where
  revision : String
  directory : Directory
  /-- The path of each artifact, ordered by the names. -/
  files : List (String × Path)
  nodup : (files.map Prod.fst).Nodup

/-- What an activation has replaced. -/
structure ActivationReceipt where
  candidate : RuntimeCandidate
  previousPresent : List String
  changed : List String

/-- An error. -/
inductive Err where
  | text (message : String)
  | file (error : FileError)
  | join (errors : List Err)
  /-- A failed publication.  The errors of the restoration that follows it are not reported to
      the caller. -/
  | publish (name : String) (error : FileError) (restoration : List Err)

/-- A program of these calls. -/
abbrev Program (β α : Type) := Calls (Call β) Reply α

/-- Code that stops at its first error. -/
abbrev Action (β α : Type) := ExceptT Err (Calls (Call β) Reply) α

/-- A call to the files. -/
def file (call : FileCall (Content β)) : Program β call.Reply :=
  perform (Call.file call)

/-- Remove the files an activation has saved. -/
def removeSaved (revision : String) : Program β (Except FileError Unit) :=
  perform (Call.removeSaved revision)

/-- The directory of the copies is made. -/
def makeDirectory : Program β (Except FileError Unit) := perform Call.makeDirectory

/-- The caller is told what changes. -/
def callback (names : List String) : Program β (Except FileError Unit) :=
  perform (Call.callback names)

/-- Stop at an error of the disk. -/
def orStop {α : Type} (program : Program β (Except FileError α)) : Action β α :=
  ExceptT.mk do return (← program).mapError Err.file

/-! ### Single files -/

/-- The copy is written beside the destination and renamed over it. -/
def copyFileAtomic (source destination : Path) : Program β (Except FileError Unit) := do
  match ← file (.read source) with
  | .error e => return .error e
  | .ok body => file (.write destination body)

section Equality

variable [DecidableEq β]

/-- Both files are read and compared. -/
def sameContents (first second : Path) : Program β (Except FileError Bool) := do
  match ← file (.read first) with
  | .error e => return .error e
  | .ok left =>
    match ← file (.read second) with
    | .error e => return .error e
    | .ok right => return .ok (left = right)

/-- Something that is not a regular file differs from a file. -/
def filesEqual (first second : Path) : Program β (Except FileError Bool) := do
  match ← file (.stat first) with
  | .error e => return .error e
  | .ok regular =>
    match ← file (.stat second) with
    | .error e => return .error e
    | .ok regular' => if regular && regular' then sameContents first second else return .ok false

/-- A missing file differs as well. -/
def differs : Except FileError Bool → Except FileError Bool
  | .ok equal => .ok (!equal)
  | .error .notExist => .ok true
  | .error e => .error e

end Equality

/-! ### The store -/

/-- The store knows the artifacts that have a destination. -/
structure CandidateStore where
  destinations : List String

/-- The verb `%q`. -/
def quoted (name : String) : String := name.quote

/-- The name of a candidate is a SHA-256 digest. -/
def candidateRevision (revision : String) : Bool :=
  revision.length == 64 && revision.toList.all fun c => c.isDigit || ('a' ≤ c && c ≤ 'f')

section

variable (store : CandidateStore) (receipt : ActivationReceipt)

/-- Every artifact is managed, lies in the directory of the candidate and is a regular file. -/
def validateFiles (store : CandidateStore) (revision : String) :
    List (String × Path) → Action β Unit
  | [] => return ()
  | (name, path) :: files => do
    if name ∉ store.destinations ∨ path ≠ .artifact revision name then
      throw (.text s!"runtime candidate artifact {quoted name} is outside the managed directory")
    else
      match ← ExceptT.lift (file (.stat path)) with
      | .ok true => validateFiles store revision files
      | _ => throw (.text s!"runtime candidate artifact {quoted name} is unavailable")

/-- The candidate has all artifacts. -/
def validateCandidate (candidate : RuntimeCandidate) : Action β Unit :=
  if candidateRevision candidate.revision = false then
    throw (.text "runtime candidate revision is invalid")
  else if candidate.directory ≠ .managed candidate.revision then
    throw (.text "runtime candidate directory is outside the managed store")
  else validateFiles store candidate.revision candidate.files

/-! ### Rollback -/

/-- A destination as it was before. -/
def restoreFile (name : String) : Program β (List Err) := do
  if name ∉ store.destinations then
    return [.text s!"runtime artifact {quoted name} is no longer managed"]
  else if name ∈ receipt.previousPresent then
    match ← copyFileAtomic (.saved receipt.candidate.revision name) (.destination name) with
    | .ok () => return []
    | .error e => return [.file e]
  else
    match ← file (.remove (.destination name)) with
    | .error .failed => return [.file .failed]
    | _ => return []

/-- Every file is restored, whatever becomes of the others. -/
def restoreFiles (store : CandidateStore) (receipt : ActivationReceipt) :
    List String → Program β (List Err)
  | [] => return []
  | name :: names => do
    let failures ← restoreFile store receipt name
    return failures ++ (← restoreFiles store receipt names)

/-- What was saved is dropped after a restoration without failures. -/
def finishRollback : List Err → Program β (Option Err)
  | [] => do
    match ← removeSaved receipt.candidate.revision with
    | .ok () => return none
    | .error e => return some (.file e)
  | failures => return some (.join failures)

/-- All changed destinations, then the saved files. -/
def rollbackLocked : Program β (Option Err) := do
  finishRollback receipt (← restoreFiles store receipt receipt.changed)

/-- With or without a callback that is shown what will be restored. -/
def rollbackAfter (prepare : Bool) : Program β (Option Err) := do
  if prepare then
    match ← callback receipt.changed with
    | .error e => return some (.file e)
    | .ok () => rollbackLocked store receipt
  else rollbackLocked store receipt

/-! ### Activation -/

/-- Save what is there. -/
def savePrevious (revision : String) : List String → Action β (List String)
  | [] => return []
  | name :: names => do
    match ← ExceptT.lift (file (.stat (.destination name))) with
    | .ok true =>
      orStop (copyFileAtomic (.destination name) (.saved revision name))
      return name :: (← savePrevious revision names)
    | .ok false => throw (.text s!"runtime destination {quoted name} is not a regular file")
    | .error .notExist => savePrevious revision names
    | .error .failed => throw (.file .failed)

/-- After a failure everything is restored. -/
def failPublication (name : String) (error : FileError) : Action β Unit := do
  let failures ← ExceptT.lift (restoreFiles store receipt receipt.changed)
  let _ ← ExceptT.lift (finishRollback receipt failures)
  throw (.publish name error failures)

/-- Copy the artifacts to their destinations. -/
def publishFiles (store : CandidateStore) (receipt : ActivationReceipt) :
    List String → Action β Unit
  | [] => return ()
  | name :: names => do
    match ← ExceptT.lift (copyFileAtomic (.artifact receipt.candidate.revision name)
        (.destination name)) with
    | .ok () => publishFiles store receipt names
    | .error e => failPublication store receipt name e

end

section Equality

variable [DecidableEq β]

/-- The artifacts that differ from their destinations. -/
def changedNames : List (String × Path) → Action β (List String)
  | [] => return []
  | (name, source) :: files => do
    let changed ← orStop do return differs (← filesEqual source (.destination name))
    let names ← changedNames files
    return if changed then name :: names else names

/-- The callback, if there is one. -/
def validateChanged (validate : Bool) (changed : List String) : Action β Unit :=
  if validate then orStop (callback changed) else return ()

/-- Publish a changed set, after the validation has accepted it. -/
def activateChanged (store : CandidateStore) (candidate : RuntimeCandidate) (validate : Bool)
    (changed : List String) : Action β ActivationReceipt := do
  validateChanged validate changed
  orStop (removeSaved candidate.revision)
  orStop makeDirectory
  let present ← savePrevious candidate.revision changed
  let receipt : ActivationReceipt := ⟨candidate, present, changed⟩
  publishFiles store receipt changed
  return receipt

/-- With or without a callback that validates the changed set. -/
def activateAfter (store : CandidateStore) (candidate : RuntimeCandidate) (validate : Bool) :
    Action β ActivationReceipt := do
  validateCandidate store candidate
  let changed ← changedNames candidate.files
  if changed = [] then return ⟨candidate, [], []⟩
  else activateChanged store candidate validate changed

/-! ### The last known good copy -/

/-- A copy, unless it is equal. -/
def copyIfChanged (source destination : Path) : Action β Unit := do
  let changed ← orStop do return differs (← filesEqual source destination)
  if changed then orStop (copyFileAtomic source destination) else return ()

/-- The copies of all artifacts. -/
def copyAllChanged : List (String × Path) → Action β Unit
  | [] => return ()
  | (name, source) :: files => do
    copyIfChanged source (.lkg name)
    copyAllChanged files

/-- The candidate is kept as the last good one. -/
def commitLastKnownGood (store : CandidateStore) (candidate : RuntimeCandidate) :
    Action β Unit := do
  validateCandidate store candidate
  orStop makeDirectory
  copyAllChanged candidate.files
  orStop (removeSaved candidate.revision)

end Equality

end SbGateway.RuntimeConfig.Candidates
