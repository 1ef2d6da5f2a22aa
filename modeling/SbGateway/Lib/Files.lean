import SbGateway.Lib.Calls
import Mathlib.Logic.Function.Basic

namespace SbGateway.Lib

open Calls

/-!
# Files that are replaced atomically

`Files Content` is a store of documents, one type of contents for each path.  A document is
replaced as a whole: it is written beside the old one and renamed over it.  A failed write has
left the old document, or it has failed after the rename and the new one is there.

* `fileStep` — the effect and the reply of a call;
* `wp_read`, `wp_write`, … — what a program may assume after each call.
-/

/-- What is found at a path: nothing, something that is not a document, or a document. -/
inductive File (α : Type) where
  | absent
  | unreadable
  | holds (value : α)
  deriving DecidableEq, Repr

/-- Why a file call fails. -/
inductive FileError where
  | notExist
  | failed
  deriving DecidableEq, Repr

/-- What a working disk answers to a reader. -/
def File.reply {α : Type} : File α → Except FileError α
  | .absent => .error .notExist
  | .unreadable => .error .failed
  | .holds value => .ok value

/-- What a working disk says about a path: whether there is a regular file. -/
def File.kind {α : Type} : File α → Except FileError Bool
  | .absent => .error .notExist
  | .unreadable => .ok false
  | .holds _ => .ok true

/-- A document that need not be there. -/
def File.ofOption {α : Type} : Option α → File α
  | none => .absent
  | some value => .holds value

/-- What a working disk answers to a removal. -/
def File.gone {α : Type} : File α → Except FileError Unit
  | .absent => .error .notExist
  | _ => .ok ()

variable {Path : Type} {Content : Path → Type}

/-- The documents of a store. -/
abbrev Files (Content : Path → Type) := (path : Path) → File (Content path)

/-- The calls to a store. -/
inductive FileCall (Content : Path → Type) where
  | read (path : Path)
  | stat (path : Path)
  | write (path : Path) (value : Content path)
  | remove (path : Path)

namespace FileCall

/-- The answer to a call. -/
abbrev Reply : FileCall Content → Type
  | .read path => Except FileError (Content path)
  | .stat _ => Except FileError Bool
  | .write _ _ => Except FileError Unit
  | .remove _ => Except FileError Unit

end FileCall

/-- Programs over a store. -/
abbrev FileProgram (Content : Path → Type) (α : Type) :=
  Calls (FileCall Content) FileCall.Reply α

/-- The confirmation of a change. -/
def Ending.confirm : Ending → Except FileError Unit
  | .done => .ok ()
  | _ => .error .failed

/-- The answer to a question, if it is answered at all. -/
def Ending.answer {α : Type} : Ending → Except FileError α → Except FileError α
  | .done, reply => reply
  | _, _ => .error .failed

section Step

variable [DecidableEq Path]

/-- Put a document, or nothing, at a path. -/
def Files.set (files : Files Content) (path : Path) (file : File (Content path)) : Files Content :=
  Function.update files path file

@[simp] theorem Files.set_self (files : Files Content) (path : Path) (file : File (Content path)) :
    files.set path file path = file :=
  Function.update_self ..

@[simp] theorem Files.set_of_ne (files : Files Content)
    (file : File (Content path)) (h : other ≠ path) : files.set path file other = files other :=
  Function.update_of_ne h ..

/-- A call and how it ends. -/
def fileStep : (call : FileCall Content) → Ending → Files Content → call.Reply × Files Content
  | .read path, ending, files => (ending.answer (files path).reply, files)
  | .stat path, ending, files => (ending.answer (files path).kind, files)
  | .write path value, ending, files =>
    (ending.confirm, if ending.takesEffect then files.set path (.holds value) else files)
  | .remove path, ending, files =>
    (ending.answer (files path).gone,
      if ending.takesEffect then files.set path .absent else files)

/-! ### Rules -/

variable {I : Files Content → Prop} {files : Files Content}

variable {path : Path}

/-- A reader gets what is there, or an error. -/
theorem wp_read {Q : Except FileError (Content path) → Files Content → Prop} :
    wp fileStep I (perform (.read path)) Q files ↔
      I files ∧ Q (files path).reply files ∧ Q (.error .failed) files := by
  rw [wp_perform, forall_ending]
  exact and_congr_right fun _ => and_congr_right fun _ => and_self_iff

theorem wp_stat {Q : Except FileError Bool → Files Content → Prop} :
    wp fileStep I (perform (.stat path)) Q files ↔
      I files ∧ Q (files path).kind files ∧ Q (.error .failed) files := by
  rw [wp_perform, forall_ending]
  exact and_congr_right fun _ => and_congr_right fun _ => and_self_iff

variable {Q : Except FileError Unit → Files Content → Prop}

/-- A writer has replaced the document, or has failed before or after the replacement. -/
theorem wp_write : wp fileStep I (perform (.write path value)) Q files ↔
      I files ∧ Q (.ok ()) (files.set path (.holds value)) ∧ Q (.error .failed) files ∧
        Q (.error .failed) (files.set path (.holds value)) := by
  rw [wp_perform, forall_ending]
  exact Iff.rfl

/-- A removal has left nothing there, or has failed before or after it. -/
theorem wp_remove : wp fileStep I (perform (.remove path)) Q files ↔
      I files ∧ Q (files path).gone (files.set path .absent) ∧ Q (.error .failed) files ∧
        Q (.error .failed) (files.set path .absent) := by
  rw [wp_perform, forall_ending]
  exact Iff.rfl

end Step

end SbGateway.Lib
