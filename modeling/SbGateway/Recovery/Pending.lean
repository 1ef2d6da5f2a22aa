import Mathlib.Data.Nat.Notation
import SbGateway.Lib.Calls
import SbGateway.Lib.FileTree
import SbGateway.Lib.NetText

namespace SbGateway.Recovery

open Lib

/-!
# Applying a pending recovery

At start-up `ApplyPending` looks for a pending recovery document in the configuration directory,
checks its head and copies the files of its manifest, in order, from the staging directory to
their destinations: the walk to the staged file, the walk to the destination, the size, the
parent directories, a temporary file, the digest, and the rename.  At the end it removes the
document and the staging directory.

Every access to the disk is a call that the system may refuse, or carry out and not confirm, and
before every call the process may be killed.  Reading JSON and SHA-256 are parameters.

The system follows links in the directories of a path.  The three configured directories are
therefore known by the places they lead to, and the staging directory is what the system finds
for the text of the document.
-/

/-- The contents of a file. -/
abbrev Bytes := List UInt8

/-- The text of a path, an identifier or a digest. -/
abbrev Text := List Char

/-- The largest manifest. -/
def maxPendingBytes : ℕ := 1 <<< 20

/-- The largest file. -/
def maxFileBytes : ℕ := 16 <<< 20

/-! ### Patterns -/

/-- `[0-9a-f]` -/
def lowerHex (c : Char) : Bool := ('0' ≤ c && c ≤ '9') || ('a' ≤ c && c ≤ 'f')

/-- `^[0-9a-f]{16}$` -/
def operationPattern (text : Text) : Bool := text.length == 16 && text.all lowerHex

/-- `^[0-9a-f]{64}$` -/
def digestPattern (text : Text) : Bool := text.length == 64 && text.all lowerHex

/-- `[-A-Za-z0-9._/]` -/
def pathChar (c : Char) : Bool :=
  ('A' ≤ c && c ≤ 'Z') || ('a' ≤ c && c ≤ 'z') || ('0' ≤ c && c ≤ '9') || c == '.' || c == '_' ||
    c == '/' || c == '-'

/-- The three kinds of files that are restored. -/
inductive Kind where
  | config
  | state
  | lastKnownGood
  deriving DecidableEq, Repr

/-- Where files of this kind stand in an archive and in the staging directory. -/
def Kind.names : Kind → Place
  | .config => ["config".toList]
  | .state => ["state".toList]
  | .lastKnownGood => ["data".toList, "last-known-good".toList]

/-- The text in front of the paths of this kind. -/
def Kind.text (kind : Kind) : Text := kind.names.flatMap fun name => name ++ ['/']

/-- The rest of a text behind another one. -/
def textAfter : Text → Text → Option Text
  | [], text => some text
  | _ :: _, [] => none
  | c :: start, d :: text => if c = d then textAfter start text else none

theorem textAfter_eq_some : textAfter start text = some rest ↔ text = start ++ rest := by
  induction start generalizing text with
  | nil => simp [textAfter, eq_comm]
  | cons c start ih =>
    cases text with
    | nil => simp [textAfter]
    | cons d text =>
      by_cases hcd : c = d
      · simp [textAfter, hcd, ih]
      · simp [textAfter, hcd, Ne.symm hcd]

/-- The kind of a path and the rest of its text, as the cases of `restoreDestination`. -/
def kindOf (path : Text) : Option (Kind × Text) :=
  match textAfter Kind.config.text path with
  | some suffix => some (.config, suffix)
  | none =>
    match textAfter Kind.state.text path with
    | some suffix => some (.state, suffix)
    | none => (textAfter Kind.lastKnownGood.text path).map (Prod.mk .lastKnownGood)

/-- `^(?:config|state|data/last-known-good)/[-A-Za-z0-9._/]+$` -/
def pathPattern (path : Text) : Bool :=
  match kindOf path with
  | some (_, suffix) => !suffix.isEmpty && suffix.all pathChar
  | none => false

/-- One of the parts of the path leads upwards. -/
def hasParentTraversal (path : Text) : Bool := (fieldsOf '/' path).contains ['.', '.']

/-! ### Directories -/

/-- The directories `ApplyPending` works with.  A link that still stands at or above one of the
    places leads nowhere. -/
structure Options where
  /-- The place that the configured directory leads to, as the next two. -/
  configDir : Place
  stateDir : Place
  lastKnownGoodDir : Place
  /-- The configured directory of this kind is itself a link. -/
  linked : Kind → Bool
  /-- The path of the data directory, as `cleanRoot` leaves it. -/
  dataDir : Place
  /-- The place that `recovery-staging` in the data directory leads to. -/
  stagingArea : Place

namespace Options

variable (options : Options)

/-- Where the files of a kind are restored. -/
def root : Kind → Place
  | .config => options.configDir
  | .state => options.stateDir
  | .lastKnownGood => options.lastKnownGoodDir

/-- The path of the staging directory of an operation. -/
def expectedStaging (operationID : Text) : Place :=
  options.dataDir ++ ["recovery-staging".toList, operationID]

/-- The pending recovery document. -/
def pendingPath : Place := options.configDir ++ [".sb-gateway-recovery-pending.json".toList]

end Options

/-- Directories none of which is inside of another. -/
structure Roots extends Options where
  plain : ∀ kind, ∀ name ∈ toOptions.root kind, PlainName name
  apart : ∀ kind kind', kind ≠ kind' → ¬ toOptions.root kind <+: toOptions.root kind'

/-- A staging directory that is in none of them and has none of them in it. -/
structure Staging (roots : Roots) where
  place : Place
  plain : ∀ name ∈ place, PlainName name
  beside : ∀ kind, ¬ roots.root kind <+: place ∧ ¬ place <+: roots.root kind

/-! ### The document -/

/-- An entry of the manifest. -/
structure PendingFile where
  path : Text
  size : ℤ
  sha256 : Text
  deriving DecidableEq, Repr

/-- The pending recovery document; `α` is what it may hold as the archive's name. -/
structure PendingRestore (α : Type) where
  operationID : Text
  archiveName : α
  stagingPath : Text
  files : List PendingFile

/-- The result of a run that does not fail. -/
inductive Result (α : Type) where
  | none
  | restored (restoredFiles : ℕ) (archiveName : α)

/-- What a failure is about: the document as a whole, the text of an entry, a staged file, a
    destination, or the system. -/
inductive Cause where
  | document
  | entry
  | staged
  | destination
  | system
  deriving DecidableEq, Repr

/-- An error with its text. -/
structure Failure where
  cause : Cause
  message : String
  deriving DecidableEq, Repr

/-- The failure is because an entry is malformed or its staged file is not what it says. -/
def Cause.blamesEntry : Cause → Bool
  | .entry | .staged => true
  | _ => false

/-! ### Ways -/

/-- Why a path is refused. -/
inductive Refusal where
  | unsupported
  | escaped
  | unavailable
  | link
  | notDirectory
  deriving DecidableEq, Repr

/-- The text of a refusal. -/
def Refusal.message : Refusal → String
  | .unsupported => "recovery archive contains an unsupported path"
  | .escaped => "recovery path escaped its root"
  | .unavailable => "recovery source is unavailable"
  | .link => "recovery path cannot traverse a symbolic link"
  | .notDirectory => "recovery path parent is not a directory"

/-- The error of `Lstat` and the two checks on what it returns. -/
def Refusal.ofWay : WayFault → Refusal
  | .missing => .unavailable
  | .link => .link
  | .notDirectory => .notDirectory

/-- The result of a way to a place. -/
def arrive (place : Place) : Except WayFault Unit → Except Refusal Place
  | .ok () => .ok place
  | .error fault => .error (.ofWay fault)

/-- The path of a place relative to a root above it. -/
def relativeTo (root candidate : Place) : Option (List FileName) :=
  if root <+: candidate then some (candidate.drop root.length) else none

/-- A file is at or above the root, so that the system cannot look below it (`ENOTDIR`). -/
def belowFile (t : FileTree) (root : Place) (parts : List FileName) : Bool :=
  (if parts = [] then root.dropLast else root).inits.any t.file

/-- The way from a root down to a place.  The root is not checked itself: a link there is followed,
    unless the root is the place. -/
def lstatWay (t : FileTree) (linked : Bool) (root : Place) (mustExist : Bool)
    (parts : List FileName) : Except Refusal Place :=
  if linked && parts.isEmpty then .error .link
  else if belowFile t root parts then .error .unavailable
  else arrive (root ++ parts) (t.walk mustExist (way root parts))

/-- The place of a relative path below a root, checked name by name for links and files. -/
def secureDescendant (t : FileTree) (linked : Bool) (root : Place) (relative : Text)
    (mustExist : Bool) : Except Refusal Place :=
  if relative.head? = some '/' || hasParentTraversal relative then .error .escaped
  else
    match relativeTo root (clean (root ++ fieldsOf '/' relative)) with
    | none => .error .escaped
    | some parts => lstatWay t linked root mustExist parts

/-! ### The disk -/

/-- The disk: its files, and the directories in which a temporary file may be left. -/
structure Disk where
  tree : FileTree
  temporaries : List Place

/-- What opening a file finds. -/
inductive Opened where
  | missing
  | failed
  | irregular
  | regular (content : Bytes)

/-- Opening follows a link. -/
def opened : Option Node → Opened
  | none | some (.symlink .nothing) => .missing
  | some (.regular content) | some (.symlink (.file content)) => .regular content
  | some .directory | some .other | some (.symlink (.directory _)) => .irregular

/-- The calls of `ApplyPending` that succeed or fail.  A temporary file is known by its
    directory. -/
inductive DiskAct where
  | lstatDirectory (path : Text)
  | mkdir (place : Place)
  | createTemporary (directory : Place)
  | fillTemporary (directory : Place)
  | closeTemporary (directory : Place)
  | rename (destination : Place) (content : Bytes)
  | removeTemporary (directory : Place)
  | syncDirectory (place : Place)
  | remove (place : Place)
  | removeAll (place : Place)

/-- The disk after a call that is carried out, unless it is an error on this disk. -/
def DiskAct.effect : DiskAct → Disk → Option Disk
  | .lstatDirectory path, d =>
    if (d.tree.lookup false [] (fieldsOf '/' path)).isSome then some d else none
  | .mkdir place, d =>
    if d.tree.node place = some .directory then some d
    else if h : d.tree.node place = none ∧ d.tree.Ready place then
      some { d with tree := d.tree.put place .directory h.2 }
    else none
  | .createTemporary directory, d =>
    if d.tree.node directory = some .directory then
      some { d with temporaries := directory :: d.temporaries }
    else none
  | .rename destination content, d =>
    if h : d.tree.Ready destination then
      some { d with tree := d.tree.put destination (.regular content) h }
    else none
  | .removeTemporary directory, d =>
    some { d with temporaries := d.temporaries.erase directory }
  | .remove place, d =>
    if h : d.tree.node place ≠ some .directory then
      some { d with tree := d.tree.remove place h }
    else none
  | .removeAll place, d => some { d with tree := d.tree.prune place }
  | .fillTemporary _, d | .closeTemporary _, d | .syncDirectory _, d => some d

/-- All calls of `ApplyPending`. -/
inductive DiskCall where
  | openFile (place : Place)
  | evalSymlinks (path : Text)
  | descend (linked : Bool) (root : Place) (relative : Text) (mustExist : Bool)
  | act (act : DiskAct)

/-- The answer to a call; a way that the system could not follow is `none`. -/
abbrev DiskCall.Reply : DiskCall → Type
  | .openFile _ => Opened
  | .evalSymlinks _ => Option Place
  | .descend .. => Except (Option Refusal) Place
  | .act _ => Bool

/-- A call that may not be confirmed although it is carried out. -/
def endAct (d : Disk) (ending : Ending) : Option Disk → Bool × Disk
  | none => (false, d)
  | some after => (decide (ending = .done), if ending.takesEffect then after else d)

/-- The file system, with the choice of the system for every call. -/
def diskStep : (call : DiskCall) → Ending → Disk → call.Reply × Disk
  | .openFile place, e, d => (if e = .done then opened (d.tree.node place) else .failed, d)
  | .evalSymlinks path, e, d =>
    (if e = .done then d.tree.lookup true [] (fieldsOf '/' path) else none, d)
  | .descend linked root relative mustExist, e, d =>
    (if e = .done then (secureDescendant d.tree linked root relative mustExist).mapError some
      else .error none, d)
  | .act act, e, d => endAct d e (act.effect d)

/-! ### The program -/

/-- A program that stops at its first failure. -/
abbrev Program (α : Type) := ExceptT Failure (Calls DiskCall DiskCall.Reply) α

/-- A failure with the system's own text. -/
def Failure.ofSystem : Failure := ⟨.system, ""⟩

/-- Go on only under a condition. -/
def require (condition : Bool) (failure : Failure) : Program Unit :=
  if condition then pure () else throw failure

/-- A call. -/
def ask (call : DiskCall) : Program call.Reply := ExceptT.lift (.perform call)

/-- A call that must be confirmed. -/
def attempt (act : DiskAct) (failure : Failure) : Program Unit := do
  let confirmed ← ask (.act act)
  require confirmed failure

/-- The error of a way that is refused. -/
def settle (blame : Refusal → Cause) : Except (Option Refusal) Place → Program Place
  | .ok place => pure place
  | .error none => throw ⟨.system, Refusal.unavailable.message⟩
  | .error (some refusal) => throw ⟨blame refusal, refusal.message⟩

/-- `secureDescendant` on the disk. -/
def descend (linked : Bool) (root : Place) (relative : Text) (mustExist : Bool)
    (blame : Refusal → Cause) : Program Place := do
  let found ← ask (.descend linked root relative mustExist)
  settle blame found

/-- A destination is refused for the text of its entry or for what stands on the way. -/
def blameDestination : Refusal → Cause
  | .unsupported | .escaped => .entry
  | _ => .destination

/-- The destination of an entry. -/
def restoreDestination (options : Options) (relative : Text) : Program Place :=
  match kindOf relative with
  | some (kind, suffix) =>
    descend (options.linked kind) (options.root kind) suffix false blameDestination
  | none => throw ⟨.entry, Refusal.unsupported.message⟩

/-- The size of an opened staged file. -/
def checkSize (expectedSize : ℤ) : Opened → Program Bytes
  | .missing | .failed => throw .ofSystem
  | .regular content =>
    if (content.length : ℤ) = expectedSize then pure content
    else throw ⟨.staged, "staged recovery file size does not match its manifest"⟩
  | .irregular => throw ⟨.staged, "staged recovery file size does not match its manifest"⟩

/-- Make the directories below one that exists. -/
def mkdirBelow : Place → List FileName → Program Unit
  | _, [] => pure ()
  | current, name :: rest => do
    attempt (.mkdir (current ++ [name])) .ofSystem
    mkdirBelow (current ++ [name]) rest

/-- `os.MkdirAll` -/
def mkdirAll (place : Place) : Program Unit := do
  attempt (.mkdir []) .ofSystem
  mkdirBelow [] place

section Program

variable (sha : Bytes → Text)

/-- The part of a copy with a temporary file: it is filled, compared with the digest of the
    manifest, and becomes the destination. -/
def install (destination : Place) (content : Bytes) (expectedDigest : Text) : Program Unit := do
  attempt (.fillTemporary destination.dropLast) .ofSystem
  require (decide (sha content = expectedDigest))
    ⟨.staged, "staged recovery file failed its checksum"⟩
  attempt (.closeTemporary destination.dropLast) .ofSystem
  attempt (.rename destination content) .ofSystem
  attempt (.syncDirectory destination.dropLast) .ofSystem

/-- The deferred removal of a temporary file; its result is ignored. -/
def removingTemporary (directory : Place) (body : Program Unit) : Program Unit := do
  let result ← ExceptT.lift body.run
  let _ ← ask (.act (.removeTemporary directory))
  ExceptT.mk (pure result)

/-- The steps before there is a temporary file. -/
def prepare (source destination : Place) (expectedSize : ℤ) : Program Bytes := do
  let file ← ask (.openFile source)
  let content ← checkSize expectedSize file
  mkdirAll destination.dropLast
  attempt (.createTemporary destination.dropLast) .ofSystem
  pure content

/-- A staged file is copied through a temporary one. -/
def copyVerifiedAtomic (source destination : Place) (expectedSize : ℤ) (expectedDigest : Text) :
    Program Unit := do
  let content ← prepare source destination expectedSize
  removingTemporary destination.dropLast (install sha destination content expectedDigest)

/-- The checks on the text of an entry. -/
def PendingFile.valid (entry : PendingFile) : Bool :=
  pathPattern entry.path && !hasParentTraversal entry.path && digestPattern entry.sha256 &&
    decide (0 ≤ entry.size) && decide (entry.size ≤ maxFileBytes)

/-- The staged file and the destination of an entry. -/
def locate (options : Options) (stagingRoot : Place) (entry : PendingFile) :
    Program (Place × Place) := do
  require entry.valid ⟨.entry, "pending recovery manifest entry is invalid"⟩
  let source ← descend false stagingRoot entry.path true fun _ => .staged
  let destination ← restoreDestination options entry.path
  pure (source, destination)

/-- One round of the loop over the manifest. -/
def restoreEntry (options : Options) (stagingRoot : Place) (entry : PendingFile) :
    Program Unit := do
  let places ← locate options stagingRoot entry
  copyVerifiedAtomic sha places.1 places.2 entry.size entry.sha256

/-- The loop over the manifest. -/
def restoreFiles (options : Options) (stagingRoot : Place) : List PendingFile → ℕ → Program ℕ
  | [], restored => pure restored
  | entry :: rest, restored => do
    restoreEntry sha options stagingRoot entry
    restoreFiles options stagingRoot rest (restored + 1)

variable {α : Type} (decode : Bytes → Option (PendingRestore α))

/-- The document in an opened file. -/
def decodePending : Opened → Program (Option (PendingRestore α))
  | .missing => pure none
  | .failed => throw .ofSystem
  | .irregular => throw ⟨.document, "pending recovery operation is invalid"⟩
  | .regular content =>
    if maxPendingBytes < content.length then
      throw ⟨.document, "pending recovery operation is invalid"⟩
    else
      match decode content with
      | none => throw ⟨.document, "pending recovery operation is corrupt"⟩
      | some pending => pure (some pending)

/-- The staging path is the one of the operation, once it is cleaned. -/
def PendingRestore.stagingExpected (options : Options) (pending : PendingRestore α) : Bool :=
  pending.stagingPath.head? == some '/' &&
    decide (clean (fieldsOf '/' pending.stagingPath) = options.expectedStaging pending.operationID)

/-- The place that `EvalSymlinks` finds. -/
def resolved : Option Place → Program Place
  | some place => pure place
  | none => throw ⟨.document, "pending recovery staging directory cannot be resolved"⟩

/-- The checks before the first file.  The staging path is looked up as it stands in the document:
    the system follows the links in it, also one in front of a last slash. -/
def checkHead (options : Options) (pending : PendingRestore α) : Program Place := do
  require (operationPattern pending.operationID)
    ⟨.document, "pending recovery operation identifier is invalid"⟩
  require (pending.stagingExpected options) ⟨.document,
    "pending recovery staging directory path does not match the requested operation"⟩
  attempt (.lstatDirectory pending.stagingPath)
    ⟨.document, "pending recovery staging directory type is invalid"⟩
  let found ← ask (.evalSymlinks pending.stagingPath)
  let stagingRoot ← resolved found
  require (!pending.files.isEmpty) ⟨.document, "pending recovery manifest has no files"⟩
  require (decide (pending.files.length ≤ 4096))
    ⟨.document, "pending recovery manifest contains too many files"⟩
  pure stagingRoot

/-- The work on a document that was found. -/
def restorePending (options : Options) (pending : PendingRestore α) : Program (Result α) := do
  let stagingRoot ← checkHead options pending
  let restored ← restoreFiles sha options stagingRoot pending.files 0
  attempt (.remove options.pendingPath) .ofSystem
  let _ ← ask (.act (.syncDirectory options.configDir))
  attempt (.removeAll stagingRoot) .ofSystem
  pure (.restored restored pending.archiveName)

/-- The restoration that a manifest asks for. -/
def applyPending (options : Options) : Program (Result α) := do
  let file ← ask (.openFile options.pendingPath)
  let found ← decodePending decode file
  match found with
  | none => pure .none
  | some pending => restorePending sha options pending

end Program

end SbGateway.Recovery
