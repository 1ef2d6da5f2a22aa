import Mathlib
import SbGateway.Lib.Files

namespace SbGateway.ControlPlane

open Lib
open Lib.Calls

/-!
# The state repository

The JSON documents of the control plane, and the functions that publish a generation.
`active.json` is the commit point; `last-known-good.json` and `apply-metadata.json` are copies of
it that can be made again.

* `commitActiveDetailed` — publish a generation, and say whether the commit point was published;
* `reconcileCommitPointers` — repair the two copies from the commit point;
* `Misreported` — the failures after which the report and the commit point differ.
-/

/-! ### Documents -/

/-- A member of a JSON object.  What is neither null, a boolean nor a text is kept as written. -/
inductive Value where
  | null
  | bool (value : Bool)
  | text (value : String)
  | raw (json : String)
  deriving DecidableEq, Repr

/-- A JSON object in canonical form: its members, ordered by their keys. -/
abbrev Document := List (String × Value)

/-- The text at a key; empty if there is none. -/
def Document.text (document : Document) (key : String) : String :=
  match document.lookup key with
  | some (.text value) => value
  | _ => ""

/-- The empty text is stored as null. -/
def nullableString (value : String) : Value := if value = "" then .null else .text value

/-- The nodes that were in use with a revision. -/
structure Snapshot (ν : Type) where
  revision : String
  nodes : List ν

/-- The commit point `active.json`, and the two copies of it. -/
inductive Pointer where
  | active
  | lastKnownGood
  | applyMetadata
  deriving DecidableEq, Repr

/-- The journals of the operations that span several stores. -/
inductive Journal where
  | apply
  | subscriptionRuntime
  deriving DecidableEq, Repr

/-- The documents of the repository. -/
inductive Path where
  | pointer (name : Pointer)
  | journal (name : Journal)
  | generation (revision : String)
  | snapshot (revision : String)
  | draft
  deriving DecidableEq, Repr

/-- What the documents hold; `γ` are the configurations and `ν` the nodes. -/
abbrev Content (γ ν : Type) : Path → Type
  | .pointer _ => Document
  | .journal _ => Document
  | .generation _ => γ
  | .snapshot _ => Snapshot ν
  | .draft => γ

/-- The state of the repository. -/
abbrev Store (γ ν : Type) := Files (Content γ ν)

/-- Errors of the repository. -/
inductive Err where
  | text (message : String)
  | file (error : FileError)
  | join (first second : Err)

/-- `errors.Join` of two errors that may be nil. -/
def Err.joined : Option Err → Option Err → Option Err
  | some first, some second => some (.join first second)
  | some first, none => some first
  | none, second => second

/-- The error of a result. -/
def failure {α : Type} : Except Err α → Option Err
  | .ok _ => none
  | .error e => some e

/-- What the repository gets from outside: content digests and the clock. -/
structure Env (γ ν : Type) where
  revisionFor : γ → String
  nodesRevision : List ν → String
  now : String

variable {γ ν : Type}

/-- A program of file calls. -/
abbrev Program (γ ν α : Type) := FileProgram (Content γ ν) α

/-- A document is read. -/
def readJSON (path : Path) : Program γ ν (Except FileError (Content γ ν path)) :=
  perform (FileCall.read path)

/-- A document that is there already is not written again, which cannot be told from a write. -/
def writeJSON (path : Path) (value : Content γ ν path) : Program γ ν (Except FileError Unit) :=
  perform (FileCall.write path value)

/-! ### Revisions -/

/-- A digit of a revision. -/
def lowerHex (c : Char) : Bool := c.isDigit || ('a' ≤ c && c ≤ 'f')

/-- A lowercase SHA-256 digest. -/
def safeRevision (value : String) : Bool := value.length == 64 && value.toList.all lowerHex

/-- A generation must have the digest that names it. -/
def checkGeneration (env : Env γ ν) (revision : String) : Except FileError γ → Except Err γ
  | .error e => .error (.file e)
  | .ok value =>
    if env.revisionFor value = revision then .ok value
    else .error (.text "generation checksum mismatch")

/-- The configuration of a revision. -/
def loadGeneration (env : Env γ ν) (revision : String) : Program γ ν (Except Err γ) :=
  if safeRevision revision = false then return .error (.text "unsafe generation revision")
  else do return checkGeneration env revision (← readJSON (.generation revision))

/-- The revision of what was read at the commit point. -/
def publishedRevision : Except FileError Document → Except Err String
  | .error .notExist => .ok ""
  | .error e => .error (.file e)
  | .ok pointer =>
    if pointer.text "revision" ≠ "" ∧ safeRevision (pointer.text "revision") = false then
      .error (.text "active revision is invalid")
    else .ok (pointer.text "revision")

/-- The revision of the commit point. -/
def activeRevision : Program γ ν (Except Err String) := do
  return publishedRevision (← readJSON (.pointer .active))

/-! ### The commit -/

/-- What a commit names. -/
structure CommitMetadata where
  nodeSnapshotRevision : String
  previousNodeSnapshotRevision : String
  routerOSSource : String
  revision : String
  previousRevision : String
  runtimeRevision : String
  previousRuntimeRevision : String
  backupRef : Value
  actor : String
  /-- Not set for the zero time. -/
  committedAt : Option String

/-- What is refused before anything is written. -/
def CommitMetadata.refusal (metadata : CommitMetadata) : Option String :=
  let unsafeText (value : String) : Bool := value ≠ "" && safeRevision value = false
  if safeRevision metadata.revision = false then some "active revision is invalid"
  else if unsafeText metadata.previousRevision then some "previous revision is invalid"
  else if unsafeText metadata.runtimeRevision then some "runtime revision is invalid"
  else if unsafeText metadata.previousRuntimeRevision then
    some "previous runtime revision is invalid"
  else if [metadata.nodeSnapshotRevision, metadata.previousNodeSnapshotRevision].any unsafeText then
    some "node snapshot revision is invalid"
  else if metadata.actor = "" ∨ 128 < metadata.actor.utf8ByteSize then
    some "commit actor is invalid"
  else none

/-- The document that is published. -/
def CommitMetadata.pointer (env : Env γ ν) (metadata : CommitMetadata) : Document :=
  [("actor", .text metadata.actor),
   ("backup_ref", metadata.backupRef),
   ("committed_at", .text (metadata.committedAt.getD env.now)),
   ("node_snapshot_revision", nullableString metadata.nodeSnapshotRevision),
   ("previous_node_snapshot_revision", nullableString metadata.previousNodeSnapshotRevision),
   ("previous_revision", nullableString metadata.previousRevision),
   ("previous_runtime_revision", nullableString metadata.previousRuntimeRevision),
   ("revision", .text metadata.revision),
   ("routeros_source", .text metadata.routerOSSource),
   ("runtime_revision", nullableString metadata.runtimeRevision)]

/-- The write may have failed after its rename: the commit point itself says what was
    published. -/
def confirmPublished (revision : String) (e : FileError) : Program γ ν (Bool × Option Err) := do
  let confirmed ← activeRevision
  return (confirmed.toOption.getD "" == revision, Err.joined (some (.file e)) (failure confirmed))

/-- The copies of the commit point. -/
def writeCopies (pointer : Document) : Program γ ν (Option Err) := do
  match ← writeJSON (.pointer .lastKnownGood) pointer with
  | .error e => return some (.file e)
  | .ok () =>
    match ← writeJSON (.pointer .applyMetadata) pointer with
    | .error e => return some (.file e)
    | .ok () => return none

/-- The commit point and then its copies. -/
def publish (revision : String) (pointer : Document) : Program γ ν (Bool × Option Err) := do
  match ← writeJSON (.pointer .active) pointer with
  | .error e => confirmPublished revision e
  | .ok () => return (true, ← writeCopies pointer)

/-- Whether `active.json` was published, and the error. -/
def commitActiveDetailed (env : Env γ ν) (metadata : CommitMetadata) :
    Program γ ν (Bool × Option Err) :=
  match metadata.refusal with
  | some message => return (false, some (.text message))
  | none => do
    match ← loadGeneration env metadata.revision with
    | .error e => return (false, some e)
    | .ok _ => publish metadata.revision (metadata.pointer env)

/-- Write a copy again; an error is joined to that of its reader. -/
def rewriteCopy (active : Document) (name : Pointer) (readErr : Option Err) :
    Program γ ν (Option Err) := do
  match ← writeJSON (.pointer name) active with
  | .ok () => return none
  | .error e => return Err.joined readErr (some (.file e))

/-- A copy that cannot be read, or that differs from the commit point, is written again. -/
def reconcileCopy (active : Document) (name : Pointer) : Program γ ν (Option Err) := do
  let current ← readJSON (.pointer name)
  if current.toOption = some active then return none
  else rewriteCopy active name (failure (current.mapError .file))

/-- The copies one after the other, up to the first error. -/
def reconcileCopies (active : Document) : List Pointer → Program γ ν (Option Err)
  | [] => return none
  | name :: names => do
    match ← reconcileCopy active name with
    | some e => return some e
    | none => reconcileCopies active names

/-- The copies are repaired from the commit point. -/
def reconcileCommitPointers (env : Env γ ν) : Program γ ν (Option Err) := do
  match ← readJSON (.pointer .active) with
  | .error .notExist => return none
  | .error e => return some (.file e)
  | .ok active =>
    let revision := Document.text active "revision"
    if safeRevision revision = false then
      return some (.text "active revision is invalid")
    match ← loadGeneration env revision with
    | .error e => return some e
    | .ok _ => reconcileCopies active [.lastKnownGood, .applyMetadata]

/-! ### The report of a commit -/

section Report

/-- The calls and how they ended. -/
abbrev History (γ ν : Type) := List (FileCall (Content γ ν) × Ending)

variable (env : Env γ ν) (metadata : CommitMetadata)

/-- The write of the commit point. -/
abbrev publishes : FileCall (Content γ ν) := .write (.pointer .active) (metadata.pointer env)

/-- The failures after which the report and the commit point differ. -/
def Misreported (start : Store γ ν) (history : History γ ν) : Prop :=
  -- refused before any write, although this commit is the published one
  (start (.pointer .active) = .holds (metadata.pointer env) ∧
    ∀ e, (publishes env metadata, e) ∉ history) ∨
  -- the commit is published, but neither its write nor its confirmation has succeeded
  ((∃ e ≠ .done, (publishes env metadata, e) ∈ history ∧
      (e = .lost ∨ start (.pointer .active) = .holds (metadata.pointer env))) ∧
    (.read (.pointer .active), .done) ∉ history) ∨
  -- the write has failed, and another commit of the same revision is confirmed in its place
  ((∃ old, start (.pointer .active) = .holds old ∧ old ≠ metadata.pointer env ∧
      old.text "revision" = metadata.revision) ∧
    (publishes env metadata, .refused) ∈ history ∧ (.read (.pointer .active), .done) ∈ history)

end Report

end SbGateway.ControlPlane
