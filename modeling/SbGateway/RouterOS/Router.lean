import Mathlib
import SbGateway.Lib.Calls

namespace SbGateway.RouterOS

open Lib

/-!
# RouterOS as a transaction sees it (`internal/routeros`)

The part of RouterOS that a transaction works on, and the calls it makes by REST and SSH.
RouterOS runs the previous configuration or the candidate.  With Safe Mode taken, it keeps what
to return to (`undo`) until the mode is released, or returns to it after the owning console is
gone.  A managed script either contains a delta or imports a file, and cannot run without it.

Every call succeeds, is rejected, fails without effect, or takes effect and loses its response
(`Answer`).  The scheduler's own clock is not part of the model: an armed guard waits.
-/

/-! ### State -/

/-- The configurations a transaction is about. -/
inductive Generation where
  | previous
  | candidate
  deriving DecidableEq, Repr

/-- What a managed script runs. -/
inductive Body where
  | delta (content : Generation)
  | importFile (name : String)
  deriving DecidableEq, Repr

/-- A row of `/system/scheduler`.  The script and the import are those of its `on-event`. -/
structure Scheduler where
  id : ℕ
  name : String
  comment : String
  /-- `run-count`, `none` if it is no number. -/
  runCount : Option ℤ
  script : String
  /-- `""` for none. -/
  managedImport : String
  deriving DecidableEq, Repr

/-- How an external call ends. -/
inductive Answer where
  /-- Success. -/
  | ok
  /-- A definitive rejection (HTTP 4xx), without effect. -/
  | rejected
  /-- A failure without effect. -/
  | unreached
  /-- It takes effect, but the response is lost. -/
  | lost
  deriving DecidableEq, Repr

/-- The calls of a transaction: REST, SSH, and the callbacks of its options. -/
inductive Call where
  | listSchedulers
  | readClock
  | putScheduler (name comment script managedImport : String)
  | deleteScheduler (id : ℕ)
  | installScript (name : String) (body : Body)
  | upload (name : String) (content : Generation)
  | removeImports (names : List String)
  | runScript (name : String)
  | waitSettled
  | openConsole
  | takeSafeMode
  | runInConsole (name : String)
  | readPrompt
  | releaseSafeMode
  | closeConsole
  | beforeApply
  | healthCheck
  | finalize
  deriving DecidableEq, Repr

/-- RouterOS, with the calls it has got. -/
structure Router where
  config : Generation
  /-- What Safe Mode returns to: the floating history. -/
  undo : Option Generation
  /-- The console that took Safe Mode is open. -/
  console : Bool
  /-- The candidate exceeds the history limit, at which Safe Mode releases itself. -/
  overLimit : Bool
  scripts : List (String × Body)
  files : List (String × Generation)
  schedulers : List Scheduler
  nextID : ℕ
  history : List (Call × Answer)
  deriving DecidableEq, Repr

namespace Router

/-- What running a managed script installs, if it and its import are there. -/
def resolve (s : Router) (name : String) : Option Generation :=
  match s.scripts.lookup name with
  | none => none
  | some (.delta content) => some content
  | some (.importFile file) => s.files.lookup file

/-- Replace the entry of a name. -/
def put {α : Type} (entries : List (String × α)) (name : String) (value : α) : List (String × α) :=
  (name, value) :: entries.filter fun entry => entry.1 ≠ name

end Router

/-! ### Calls -/

/-- Why a call failed, as far as `DefinitiveRequestRejection` tells. -/
inductive CallError where
  | rejected
  | uncertain
  deriving DecidableEq, Repr

/-- What a call returns. -/
abbrev Payload : Call → Type
  | .listSchedulers => List Scheduler
  | .readPrompt => Bool
  | _ => Unit

/-- The result of a call. -/
abbrev Reply (call : Call) : Type := Except CallError (Payload call)

/-- Does the call take effect? -/
def Answer.takesEffect : Answer → Bool
  | .ok => true
  | .lost => true
  | _ => false

/-- What a call reads; a prompt shows whether Safe Mode holds. -/
def Call.payload (s : Router) : (call : Call) → Payload call
  | .listSchedulers => s.schedulers
  | .readPrompt => s.undo.isSome
  | .readClock => ()
  | .putScheduler .. => ()
  | .deleteScheduler _ => ()
  | .installScript .. => ()
  | .upload .. => ()
  | .removeImports _ => ()
  | .runScript _ => ()
  | .waitSettled => ()
  | .openConsole => ()
  | .takeSafeMode => ()
  | .runInConsole _ => ()
  | .releaseSafeMode => ()
  | .closeConsole => ()
  | .beforeApply => ()
  | .healthCheck => ()
  | .finalize => ()

/-- What a call does; `none` if RouterOS cannot do it. -/
def Call.effect (s : Router) : Call → Option Router
  | .putScheduler name comment script managedImport => some { s with
      schedulers := s.schedulers ++ [⟨s.nextID, name, comment, some 0, script, managedImport⟩]
      nextID := s.nextID + 1 }
  | .deleteScheduler id => some { s with
      schedulers := s.schedulers.filter fun row => row.id ≠ id }
  | .installScript name body => some { s with scripts := Router.put s.scripts name body }
  | .upload name content => some { s with files := Router.put s.files name content }
  | .removeImports names => some { s with files := s.files.filter fun file => file.1 ∉ names }
  | .runScript name => (s.resolve name).map fun content => { s with config := content }
  -- the floating history is undone once its owner is gone, and never settles before
  | .waitSettled => s.undo.elim (some s) fun before =>
      if s.console then none else some { s with config := before, undo := none }
  | .takeSafeMode =>
      if s.undo.isSome then none else some { s with undo := some s.config, console := true }
  | .runInConsole name => (s.resolve name).map fun content =>
      { s with config := content, undo := if s.overLimit then none else s.undo }
  | .releaseSafeMode => some { s with undo := none }
  | .closeConsole => some { s with console := false }
  | _ => some s

namespace Router

/-- The call is recorded. -/
@[simps] def logged (s : Router) (call : Call) (answer : Answer) : Router :=
  { s with history := s.history ++ [(call, answer)] }

/-- The state after a call. -/
def after (s : Router) (call : Call) (answer : Answer) : Router :=
  (if answer.takesEffect then (call.effect s).getD s else s).logged call answer

/-- The result of a call. -/
def reply (s : Router) (call : Call) (answer : Answer) : Reply call :=
  if (call.effect s).isNone then .error .rejected
  else match answer with
    | .ok => .ok (call.payload s)
    | .rejected => .error .rejected
    | .unreached => .error .uncertain
    | .lost => .error .uncertain

end Router

/-- A call with the answer the environment chooses. -/
def step (call : Call) (answer : Answer) (s : Router) : Reply call × Router :=
  (s.reply call answer, s.after call answer)

end SbGateway.RouterOS
