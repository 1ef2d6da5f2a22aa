import Mathlib
import SbGateway.Lib.Calls

namespace SbGateway.DiagnosticLog

open Lib

/-!
# The bounded diagnostic log

A writer keeps one current log file and the previous segment.  A write that would make the current
file too long rotates first: it closes the file, removes the previous segment, renames the file and
opens a new one.  Each of these steps may fail.

* `write`, `rotateLocked` — the writer, for all ends of its calls;
* `write_spec` — one write keeps the limit, and a failed rotation leaves a closed handle;
* `log_bounded_and_stored_iff` — a log stays bounded, and stores as long as no rotation fails.
-/

/-- The bytes of a log. -/
abbrev Bytes := List UInt8

/-! ### The writer -/

/-- `Writer` and its two files; a handle that was closed stays with the writer. -/
structure Writer where
  maximum : ℕ
  isOpen : Bool
  written : ℕ
  current : Option Bytes
  previous : Option Bytes

/-- How the calls of one `Write` end; the file takes `accepted` bytes at most. -/
structure Endings where
  close : Ending
  remove : Ending
  rename : Ending
  reopen : Ending
  accepted : ℕ

/-- What a failed write reports. -/
inductive Failure where
  | rotation
  | write
  deriving DecidableEq

/-- One call of a rotation; the next ones follow if it reports no error. -/
def Writer.attempt (w : Writer) (change : Writer → Writer) (ending : Ending)
    (next : Writer → Option Failure × Writer) : Option Failure × Writer :=
  match ending with
  | .done => next (change w)
  | .refused => (some .rotation, w)
  | .lost => (some .rotation, change w)

/-- The rotated file is removed. -/
def Writer.removePrevious (w : Writer) : Writer := { w with previous := none }

/-- A missing file is no error. -/
def Writer.renameCurrent (w : Writer) : Writer :=
  { w with current := none, previous := w.current.or w.previous }

/-- An empty file is opened. -/
def Writer.create (w : Writer) : Writer := { w with current := some [] }

/-- A handle is closed whatever its `Close` reports, and it cannot be closed again. -/
def rotateLocked (w : Writer) (endings : Endings) : Option Failure × Writer :=
  if w.isOpen = false then (some .rotation, w)
  else if endings.close ≠ .done then (some .rotation, { w with isOpen := false })
  else
    { w with isOpen := false }.attempt Writer.removePrevious endings.remove fun w =>
    w.attempt Writer.renameCurrent endings.rename fun w =>
    w.attempt Writer.create endings.reopen fun w =>
    (none, { w with isOpen := true, written := 0 })

/-- The bytes go to the open file; an error follows a write that is too short. -/
def Writer.append (w : Writer) (body : Bytes) (accepted : ℕ) : Option Failure × Writer :=
  if w.isOpen = false then (some .write, w)
  else
    (if accepted < body.length then some .write else none,
      { w with
        written := w.written + (body.take accepted).length
        current := w.current.map (· ++ body.take accepted) })

/-- `Write`: the log is rotated if it would become too large. -/
def write (w : Writer) (body : Bytes) (endings : Endings) : Option Failure × Writer :=
  if 0 < w.written ∧ w.maximum < w.written + body.length then
    match rotateLocked w endings with
    | (some failure, w) => (some failure, w)
    | (none, w) => w.append body endings.accepted
  else w.append body endings.accepted

/-! ### Runs -/

/-- What `Open` returns for a file within the limit. -/
structure Opened (w : Writer) : Prop where
  isOpen : w.isOpen = true
  current : ∃ file, w.current = some file ∧ file.length = w.written ∧ file.length ≤ w.maximum

/-- Writes of at most `maximum` bytes, and whether a rotation has failed. -/
inductive Run (start : Writer) : Bool → Writer → Prop where
  | none : Run start false start
  | write (h : Run start failed w) (hbody : body.length ≤ start.maximum) (endings : Endings) :
      Run start (failed || (write w body endings).1 = some .rotation) (write w body endings).2

/-- The operating system accepts every call, and the whole text. -/
abbrev Accepts (endings : Endings) (body : Bytes) : Prop :=
  endings.close = .done ∧ endings.remove = .done ∧ endings.rename = .done ∧
    endings.reopen = .done ∧ body.length ≤ endings.accepted

/-- The write succeeds, and its bytes are at the end of the log. -/
def Stored (w : Writer) (body : Bytes) (endings : Endings) : Prop :=
  (write w body endings).1 = none ∧
    ∃ front, (write w body endings).2.current = some (front ++ body)

/-! ### One write -/

/-- The current file is within the limit, and the writer knows the length of the open one. -/
structure Sound (maximum : ℕ) (w : Writer) : Prop where
  maximum_eq : w.maximum = maximum
  bounded : ∀ file, w.current = some file → file.length ≤ maximum
  live : w.isOpen = true → ∃ file, w.current = some file ∧ file.length = w.written

theorem Sound.of_closed (h : Sound maximum w) (hmaximum : v.maximum = w.maximum)
    (hclosed : v.isOpen = false)
    (hcurrent : v.current = w.current ∨ v.current = none ∨ v.current = some []) :
    Sound maximum v := by
  refine ⟨hmaximum.trans h.maximum_eq, fun file hfile => ?_, fun hopen => ?_⟩
  · rcases hcurrent with hsame | hnone | hempty
    · exact h.bounded file (hsame ▸ hfile)
    · cases hnone.symm.trans hfile
    · cases hempty.symm.trans hfile
      exact Nat.zero_le _
  · cases hclosed.symm.trans hopen

/-- How a rotation ends: with a new file, or with a closed handle. -/
inductive Rotated (maximum : ℕ) : Option Failure × Writer → Prop where
  | done (h : Sound maximum w) (hopen : w.isOpen = true) (hwritten : w.written = 0) :
      Rotated maximum (none, w)
  | failed (h : Sound maximum w) (hclosed : w.isOpen = false) :
      Rotated maximum (some .rotation, w)

variable {w : Writer} {body : Bytes}

theorem attempt_rotated (hrefused : Rotated maximum (some .rotation, w))
    (hlost : Rotated maximum (some .rotation, change w)) (hdone : Rotated maximum (next (change w)))
    (ending : Ending) : Rotated maximum (w.attempt change ending next) := by
  cases ending <;> assumption

theorem rotateLocked_spec (h : Sound maximum w) (endings : Endings) :
    Rotated maximum (rotateLocked w endings) := by
  unfold rotateLocked
  split
  · next hclosed => exact .failed h hclosed
  · split
    · exact .failed (h.of_closed rfl rfl (.inl rfl)) rfl
    · refine attempt_rotated (.failed ?_ rfl) (.failed ?_ rfl) ?_ _
      · exact h.of_closed rfl rfl (.inl rfl)
      · exact h.of_closed rfl rfl (.inl rfl)
      refine attempt_rotated (.failed ?_ rfl) (.failed ?_ rfl) ?_ _
      · exact h.of_closed rfl rfl (.inl rfl)
      · exact h.of_closed rfl rfl (.inr (.inl rfl))
      refine attempt_rotated (.failed ?_ rfl) (.failed ?_ rfl) ?_ _
      · exact h.of_closed rfl rfl (.inr (.inl rfl))
      · exact h.of_closed rfl rfl (.inr (.inr rfl))
      · refine .done ⟨h.maximum_eq, ?_, fun _ => ⟨[], rfl, rfl⟩⟩ rfl rfl
        rintro _ ⟨⟩
        exact Nat.zero_le _

theorem append_spec (h : Sound maximum w) (body : Bytes)
    (hfits : w.written + body.length ≤ maximum) (accepted : ℕ) :
    Sound maximum (w.append body accepted).2 ∧ (w.append body accepted).1 ≠ some .rotation ∧
      (w.append body accepted).2.isOpen = w.isOpen := by
  unfold Writer.append
  split
  · exact ⟨h, by simp, rfl⟩
  · next hopen =>
    obtain ⟨file, hfile, hlength⟩ := h.live (by simpa using hopen)
    refine ⟨⟨h.maximum_eq, ?_, fun _ => ⟨file ++ body.take accepted, by simp [hfile], ?_⟩⟩, ?_, rfl⟩
    · intro longer hlonger
      rw [hfile] at hlonger
      obtain rfl := Option.some.inj hlonger
      simp
      omega
    · simp [hlength]
    · split <;> simp

/-- A write keeps the limit, and a failed rotation leaves a closed handle for good. -/
theorem write_spec (h : Sound maximum w) (hbody : body.length ≤ maximum) (endings : Endings) :
    Sound maximum (write w body endings).2 ∧
      ((write w body endings).2.isOpen = true ↔
        w.isOpen = true ∧ (write w body endings).1 ≠ some .rotation) := by
  unfold write
  split
  · have hrotated := rotateLocked_spec h endings
    have hopen : (rotateLocked w endings).1 = none → w.isOpen = true := by
      intro hnone
      by_contra hclosed
      rw [rotateLocked, if_pos (by simpa using hclosed)] at hnone
      cases hnone
    generalize rotateLocked w endings = r at hrotated hopen
    cases hrotated with
    | failed hsound hclosed => exact ⟨hsound, by simp [hclosed]⟩
    | done hsound hlive hwritten =>
      obtain ⟨hkept, hne, hsame⟩ := append_spec hsound body (by omega) endings.accepted
      exact ⟨hkept, by simp [hne, hsame, hlive, hopen rfl]⟩
  · next hroom =>
    have hfits : w.written + body.length ≤ maximum := by
      have hmaximum := h.maximum_eq
      omega
    obtain ⟨hkept, hne, hsame⟩ := append_spec h body hfits endings.accepted
    exact ⟨hkept, by simp [hne, hsame]⟩

/-! ### All writes -/

theorem Run.sound (hstart : Opened start) (h : Run start failed w) :
    Sound start.maximum w ∧ (w.isOpen = true ↔ failed = false) := by
  induction h with
  | none =>
    obtain ⟨file, hfile, hlength, hbound⟩ := hstart.current
    refine ⟨⟨rfl, fun other hother => ?_, fun _ => ⟨file, hfile, hlength⟩⟩, by simp [hstart.isOpen]⟩
    cases hfile.symm.trans hother
    exact hbound
  | write h hbody endings ih =>
    obtain ⟨hkept, hopen⟩ := write_spec ih.1 hbody endings
    exact ⟨hkept, by simp [hopen, ih.2]⟩

theorem append_stored (hopen : w.isOpen = true) (hcurrent : w.current = some front)
    (haccepted : body.length ≤ accepted) : (w.append body accepted).1 = none ∧
      ∃ front, (w.append body accepted).2.current = some (front ++ body) := by
  simp [Writer.append, hopen, hcurrent, List.take_of_length_le haccepted, haccepted]

theorem stored_of_open (h : Sound maximum w) (hopen : w.isOpen = true)
    (haccepts : Accepts endings body) : Stored w body endings := by
  obtain ⟨hclose, hremove, hrename, hreopen, haccepted⟩ := haccepts
  unfold Stored write
  split
  · simp only [rotateLocked, hopen, hclose, hremove, hrename, hreopen, Writer.attempt]
    exact append_stored rfl rfl haccepted
  · obtain ⟨file, hfile, -⟩ := h.live hopen
    exact append_stored hopen hfile haccepted

theorem not_stored_of_closed (hclosed : w.isOpen = false) (body : Bytes) (endings : Endings) :
    ¬ Stored w body endings := by
  unfold Stored write
  split <;> simp [rotateLocked, Writer.append, hclosed]

/-- **The log.** It never exceeds its limit; but a write that the operating system accepts is stored
    exactly if no rotation has failed before, since the closed handle is never replaced. -/
theorem log_bounded_and_stored_iff (hstart : Opened start) (h : Run start failed w) :
    (∀ file, w.current = some file → file.length ≤ start.maximum) ∧
      ∀ body endings, Accepts endings body → (Stored w body endings ↔ failed = false) := by
  obtain ⟨hsound, hopen⟩ := h.sound hstart
  refine ⟨hsound.bounded, fun body endings haccepts => ⟨fun hstored => ?_, fun hnone => ?_⟩⟩
  · by_contra hfailed
    exact not_stored_of_closed (Bool.eq_false_iff.mpr (mt hopen.mp hfailed)) body endings hstored
  · exact stored_of_open hsound (hopen.mpr hnone) haccepts

/-- A log of the smallest size that is full. -/
def fullLog : Writer := ⟨1024, true, 1024, some (List.replicate 1024 0), none⟩

/-- Every call succeeds. -/
def accepting : Endings := ⟨.done, .done, .done, .done, 1024⟩

theorem fullLog_opened : Opened fullLog :=
  ⟨rfl, _, rfl, List.length_replicate, List.length_replicate.le⟩

/-- One rename that fails, and nothing is ever stored again. -/
theorem failedRename_not_stored :
    Run fullLog true (write fullLog [0] { accepting with rename := .refused }).2 ∧
      Accepts accepting [0] ∧
      ¬ Stored (write fullLog [0] { accepting with rename := .refused }).2 [0] accepting := by
  have hrun := (@Run.none fullLog).write (by decide : [(0 : UInt8)].length ≤ 1024)
    { accepting with rename := .refused }
  exact ⟨hrun, by decide, not_stored_of_closed rfl _ _⟩

/-- After a rotation that succeeds, the next text is stored. -/
theorem rotatedLog_stored : (write fullLog [0] accepting).2.written = 1 ∧
    Stored (write fullLog [0] accepting).2 [0] accepting := by
  have hrun := (@Run.none fullLog).write (by decide : [(0 : UInt8)].length ≤ 1024) accepting
  have hstored := (log_bounded_and_stored_iff fullLog_opened hrun).2 [0] accepting (by decide)
  exact ⟨rfl, hstored.mpr rfl⟩

end SbGateway.DiagnosticLog
