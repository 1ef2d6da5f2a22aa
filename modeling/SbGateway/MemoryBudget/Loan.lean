import SbGateway.Lib.Threads
import SbGateway.MemoryBudget.Plan

namespace SbGateway.MemoryBudget

open Lib.Threads

/-!
# The loan of the ACME budget

While no certificate helper runs, the controller uses the helper's budget.  A helper takes the slot
of the loan, lowers the limit of the controller to its base and gives both back when it is done.
Meanwhile a monitor moves the limit with the pressure on the container.

The slot is a channel that is filled without the lock; the limits are moved under the lock.  Each
move below is one such access, so that the other threads can come between any two of them.

* `Next.keeps` — what a move makes of the shared state and of the claims of its thread to it;
* `budget_never_overcommitted` — the limit stays between the base and the idle one, at most one
  thread has the slot, and while a helper holds it the limit is the base.
-/

/-! ### The loan -/

/-- What the loan knows of the pressure on the container. -/
structure LoanPressure where
  used : ℤ
  managed : ℤ
  live : ℤ
  nonHeap : ℤ
  cleanFile : ℤ

/-- The constants of a loan; there is something to lend. -/
structure Loan where
  base : ℤ
  idle : ℤ
  limit : ℤ
  /-- Whether the loan follows the pressure. -/
  pressured : Bool
  base_lt_idle : base < idle

/-- The surroundings in which a loan is configured. -/
structure Setting where
  acmeLoan : Bool
  pressureBudget : Bool
  /-- The limits of the container. -/
  detectedLimits : Limits
  /-- Whether the usage counter can be read. -/
  usageReadable : Bool
  /-- Whether the pressure can be read. -/
  pressureReadable : Bool

/-- The limits are those the plan was made for. -/
def canLendACME (plan : Plan) (limits : Limits) (readable : Bool) : Bool :=
  readable && (decide (0 < limits.high) || decide (0 < limits.max)) &&
    decide ((derive limits).ceiling = plan.ceiling)

/-- The loan, if one is set up. -/
def configureACMELoan (setting : Setting) (plan : Plan) (requested : List Char) : Option Loan :=
  let base := cap plan.gateway requested
  let idle := cap (plan.gateway + plan.worker) requested
  if setting.acmeLoan = true ∧
      canLendACME plan setting.detectedLimits setting.usageReadable = true then
    if h : base < idle then
      if setting.pressureBudget = true ∧ setting.pressureReadable = false then none
      else some
        { base, idle, limit := plan.ceiling, pressured := setting.pressureBudget
          base_lt_idle := h }
    else none
  else none

/-- The base of a configured loan is what `cap` makes of the controller's part. -/
theorem base_of_configureACMELoan (h : configureACMELoan setting plan requested = some loan) :
    loan.base = cap plan.gateway requested := by
  simp only [configureACMELoan] at h
  split_ifs at h with hlend hless hreadable
  obtain rfl := Option.some.inj h
  rfl

section

variable (loan : Loan)

/-- `idleLimit`; a reading of the pressure may fail. -/
def idleLimit (occupied : Bool) (reading : Option LoanPressure) : ℤ :=
  if occupied then loan.base
  else if loan.pressured = false then loan.idle
  else
    match reading with
    | none => loan.base
    | some pressure =>
      let other := max 0 (pressure.used - pressure.managed - pressure.cleanFile)
      let available := loan.limit - min (24 * MiB) (loan.limit.tdiv 8) - other
      let floor := min loan.idle (max loan.base (pressure.live + pressure.nonHeap + 8 * MiB))
      max floor (min loan.idle available)

/-- The target of an adjustment: the limit rises in steps. -/
def adjustedTarget (current target : ℤ) : ℤ :=
  if current < target then min target (current + 4 * MiB) else target

/-- Whether an adjustment is worth it. -/
def worthwhile (current target : ℤ) : Prop :=
  target ≠ current ∧ (target = loan.base ∨ target = loan.idle ∨
    MiB ≤ max target current - min target current)

theorem idleLimit_occupied (reading : Option LoanPressure) :
    idleLimit loan true reading = loan.base := rfl

theorem idleLimit_bounds (occupied : Bool) (reading : Option LoanPressure) :
    loan.base ≤ idleLimit loan occupied reading ∧ idleLimit loan occupied reading ≤ loan.idle := by
  have hless := loan.base_lt_idle
  unfold idleLimit
  split
  · exact ⟨le_rfl, hless.le⟩
  · split
    · exact ⟨hless.le, le_rfl⟩
    · split
      · exact ⟨le_rfl, hless.le⟩
      · dsimp only
        omega

variable {loan}

/-- An adjustment goes no further than its target. -/
theorem adjustedTarget_bounds (hcurrent : loan.base ≤ current)
    (htarget : loan.base ≤ target ∧ target ≤ loan.idle) :
    loan.base ≤ adjustedTarget current target ∧ adjustedTarget current target ≤ loan.idle := by
  rw [adjustedTarget, MiB]
  split_ifs <;> omega

theorem adjustedTarget_base (hcurrent : loan.base ≤ current) :
    adjustedTarget current loan.base = loan.base := if_neg (by omega)

end

/-! ### The threads -/

/-- The slot: free, taken by a helper that has yet to lower the limit, or by one that has.  The
    code sees only whether it is free. -/
inductive Slot where
  | free
  | taken
  | lowered
  deriving DecidableEq

/-- The lock: free, held, or held by a thread that has chosen the next limit `target` or has
    already set it.  The code sees only whether it is free. -/
inductive Lock where
  | free
  | held
  | chosen (target : ℤ)
  | set (target : ℤ)
  deriving DecidableEq

/-- What the threads share. -/
structure Shared where
  slot : Slot
  lock : Lock
  /-- The limit of the runtime. -/
  runtime : ℤ
  /-- The limit that the loan has recorded. -/
  current : ℤ

/-- Where a thread is. -/
inductive Thread where
  /-- `acquire` is called. -/
  | acquire
  /-- It waits for the slot. -/
  | selecting
  /-- It has the slot and waits for the lock. -/
  | entered
  /-- It has the lock. -/
  | lowering
  /-- It has set the base. -/
  | recordingBase
  /-- It has recorded the base. -/
  | lowered
  /-- It has returned the lock and examines the context and the usage. -/
  | checking
  /-- `acquire` has returned its release. -/
  | holding
  /-- The release is called, by the holder or by a failed `acquire`. -/
  | release
  /-- It has the lock. -/
  | emptying
  /-- It has emptied the slot. -/
  | measuring
  /-- `adjustPressure` is called. -/
  | adjustPressure
  /-- It has the lock. -/
  | sampling
  /-- It has measured an idle limit. -/
  | adjusting (target : ℤ)
  /-- `applyLimit` is called. -/
  | applying (target : ℤ)
  /-- It has set the limit. -/
  | recording (target : ℤ)
  /-- It has recorded the limit, if any. -/
  | unlocking
  | done
  deriving DecidableEq

/-- The code sees whether the slot is occupied. -/
def Shared.occupied (s : Shared) : Bool := s.slot ≠ .free

/-- The recorded limit as an adjustment takes it. -/
def knownCurrent (loan : Loan) (s : Shared) : ℤ := if s.current = 0 then loan.idle else s.current

/-- The moves of a thread. -/
inductive Next (loan : Loan) : Shared → Thread → Shared → Thread → Prop where
  | cancelled (s : Shared) : Next loan s .acquire s .done
  | begin (s : Shared) : Next loan s .acquire s .selecting
  | abandon (s : Shared) : Next loan s .selecting s .done
  | enter (s : Shared) (h : s.slot = .free) :
      Next loan s .selecting { s with slot := .taken } .entered
  | lockBase (s : Shared) (h : s.lock = .free) :
      Next loan s .entered { s with lock := .held } .lowering
  | setBase (s : Shared) :
      Next loan s .lowering { s with runtime := loan.base, lock := .set loan.base } .recordingBase
  | recordBase (s : Shared) :
      Next loan s .recordingBase { s with current := loan.base, slot := .lowered, lock := .held }
        .lowered
  | unlockBase (s : Shared) : Next loan s .lowered { s with lock := .free } .checking
  -- the context is done, the usage is unknown or the time is over
  | fail (s : Shared) : Next loan s .checking s .release
  | succeed (s : Shared) : Next loan s .checking s .holding
  | finish (s : Shared) : Next loan s .holding s .release
  | lockRelease (s : Shared) (h : s.lock = .free) :
      Next loan s .release { s with lock := .held } .emptying
  | leave (s : Shared) : Next loan s .emptying { s with slot := .free } .measuring
  | measure (s : Shared) (reading : Option LoanPressure) :
      Next loan s .measuring { s with lock := .chosen (idleLimit loan s.occupied reading) }
        (.applying (idleLimit loan s.occupied reading))
  | lockMonitor (s : Shared) (h : s.lock = .free) :
      Next loan s .adjustPressure { s with lock := .held } .sampling
  | sample (s : Shared) (reading : Option LoanPressure) :
      Next loan s .sampling { s with lock := .chosen (idleLimit loan s.occupied reading) }
        (.adjusting (idleLimit loan s.occupied reading))
  | adjust (s : Shared) (target : ℤ)
      (h : worthwhile loan (knownCurrent loan s) (adjustedTarget (knownCurrent loan s) target)) :
      Next loan s (.adjusting target)
        { s with
          current := knownCurrent loan s
          lock := .chosen (adjustedTarget (knownCurrent loan s) target) }
        (.applying (adjustedTarget (knownCurrent loan s) target))
  | keep (s : Shared) (target : ℤ)
      (h : ¬ worthwhile loan (knownCurrent loan s) (adjustedTarget (knownCurrent loan s) target)) :
      Next loan s (.adjusting target) { s with current := knownCurrent loan s, lock := .held }
        .unlocking
  | set (s : Shared) (target : ℤ) :
      Next loan s (.applying target) { s with runtime := target, lock := .set target }
        (.recording target)
  | record (s : Shared) (target : ℤ) :
      Next loan s (.recording target) { s with current := target, lock := .held } .unlocking
  | unlock (s : Shared) : Next loan s .unlocking { s with lock := .free } .done

/-- The loan as it is configured. -/
def Configured (loan : Loan) (s : Shared) : Prop :=
  s = { slot := .free, lock := .free, runtime := loan.idle, current := loan.idle }

/-- The calls that arrive. -/
def Arrives (t : Thread) : Prop := t = .acquire ∨ t = .adjustPressure

/-! ### What the threads have of the shared state -/

/-- The parts of the shared state that a thread may have to itself. -/
inductive Part where
  | slot
  | notLowered
  | lowered
  | lock
  | chosen (target : ℤ)
  | set (target : ℤ)
  deriving DecidableEq

/-- What is there to have. -/
def Shared.has (s : Shared) : Part → Bool
  | .slot => s.slot ≠ .free
  | .notLowered => s.slot = .taken
  | .lowered => s.slot = .lowered
  | .lock => s.lock = .held
  | .chosen target => s.lock = .chosen target
  | .set target => s.lock = .set target

/-- What a thread has; a thread with a target has the base as one. -/
def Thread.has (base : ℤ) : Thread → Part → Bool
  | .entered, p => p = .slot ∨ p = .notLowered
  | .lowering, p => p = .slot ∨ p = .notLowered ∨ p = .lock
  | .recordingBase, p => p = .slot ∨ p = .notLowered ∨ p = .set base
  | .lowered, p => p = .slot ∨ p = .lowered ∨ p = .lock
  | .checking, p => p = .slot ∨ p = .lowered
  | .holding, p => p = .slot ∨ p = .lowered
  | .release, p => p = .slot ∨ p = .lowered
  | .emptying, p => p = .slot ∨ p = .lowered ∨ p = .lock
  | .measuring, p => p = .lock
  | .sampling, p => p = .lock
  | .adjusting target, p => p = .chosen target
  | .applying target, p => p = .chosen target
  | .recording target, p => p = .set target
  | .unlocking, p => p = .lock
  | _, _ => false

/-- Parts as amounts. -/
def amount (has : Part → Bool) (p : Part) : ℤ := if has p then 1 else 0

theorem amount_nonneg (has : Part → Bool) : 0 ≤ amount has := by
  intro p
  simp only [amount, Pi.zero_apply]
  split <;> omega

/-- A thread has what is there. -/
theorem has_of_amount_le (h : amount has ≤ amount has') (hp : has p = true) : has' p = true := by
  have hle := h p
  simp only [amount, hp, if_true] at hle
  by_contra hnot
  rw [if_neg hnot] at hle
  omega

/-! ### The invariant -/

/-- The limits are in their bounds; they are the base where a helper has lowered them. -/
structure Sound (loan : Loan) (s : Shared) : Prop where
  runtime : loan.base ≤ s.runtime ∧ s.runtime ≤ loan.idle
  current : loan.base ≤ s.current ∧ s.current ≤ loan.idle
  lowered : s.slot = .lowered → s.runtime = loan.base ∧ s.current = loan.base
  chosen : ∀ target, s.lock = .chosen target →
    (loan.base ≤ target ∧ target ≤ loan.idle) ∧ (s.slot = .lowered → target = loan.base)
  set : ∀ target, s.lock = .set target → s.runtime = target

section

variable {loan : Loan} {s : Shared}

theorem Sound.of_configured (h : Configured loan s) : Sound loan s := by
  subst h
  have hless := loan.base_lt_idle
  constructor <;> simp [hless.le]

/-- Taking or returning the lock changes no limit. -/
theorem Sound.relock (h : Sound loan s) (hlock : lock = .free ∨ lock = .held) :
    Sound loan { s with lock } := by
  rcases hlock with rfl | rfl <;> exact { h with chosen := nofun, set := nofun }

/-- A slot that no helper with a lowered limit has asks nothing of the limits. -/
theorem Sound.reslot (h : Sound loan s) (hslot : slot ≠ .lowered) : Sound loan { s with slot } :=
  { h with
    lowered := fun hlow => absurd hlow hslot
    chosen := fun target hlock => ⟨(h.chosen target hlock).1, fun hlow => absurd hlow hslot⟩ }

/-- A limit may be chosen that is in the bounds, and the base where it is lowered. -/
theorem Sound.choose (h : Sound loan s) (hbounds : loan.base ≤ target ∧ target ≤ loan.idle)
    (hbase : s.slot = .lowered → target = loan.base) :
    Sound loan { s with lock := .chosen target } :=
  { h with
    chosen := fun target' heq => by
      obtain rfl := Lock.chosen.inj heq
      exact ⟨hbounds, hbase⟩
    set := nofun }

/-- An idle limit may be chosen. -/
theorem Sound.choose_idleLimit (h : Sound loan s) (reading : Option LoanPressure) :
    Sound loan { s with lock := .chosen (idleLimit loan s.occupied reading) } := by
  refine h.choose (idleLimit_bounds loan _ _) fun hlow => ?_
  have hoccupied : s.occupied = true := by simp [Shared.occupied, hlow]
  rw [hoccupied, idleLimit_occupied]

/-- The limit that is set is one that may be chosen. -/
theorem Sound.setLimit (h : Sound loan s) (hbounds : loan.base ≤ target ∧ target ≤ loan.idle)
    (hbase : s.slot = .lowered → target = loan.base) :
    Sound loan { s with runtime := target, lock := .set target } :=
  { h with
    runtime := hbounds
    lowered := fun hlow => ⟨hbase hlow, (h.lowered hlow).2⟩
    chosen := nofun
    set := fun _ heq => Lock.set.inj heq }

/-- The limit that is recorded is the one that is set. -/
theorem Sound.record (h : Sound loan s) (hlock : s.lock = .set target) :
    Sound loan { s with current := target, lock := .held } := by
  obtain rfl := h.set target hlock
  exact
    { runtime := h.runtime
      current := h.runtime
      lowered := fun hlow => ⟨(h.lowered hlow).1, (h.lowered hlow).1⟩
      chosen := nofun
      set := nofun }

/-- With the base recorded the slot is a lowered one. -/
theorem Sound.recordBase (h : Sound loan s) (hlock : s.lock = .set loan.base) :
    Sound loan { s with current := loan.base, slot := .lowered, lock := .held } := by
  have hrecorded := h.record hlock
  exact
    { hrecorded with
      lowered := fun _ => ⟨h.set _ hlock, rfl⟩
      chosen := nofun }

/-- A positive base is never taken for an unknown limit. -/
theorem Sound.knownCurrent (h : Sound loan s) (hpositive : 0 < loan.base) :
    knownCurrent loan s = s.current := by
  have hcurrent := h.current.1
  exact if_neg (by omega)

/-- What an adjustment chooses is in the bounds, and the base where it is lowered. -/
theorem Sound.adjusted (h : Sound loan s) (hlock : s.lock = .chosen target) :
    (loan.base ≤ adjustedTarget s.current target ∧ adjustedTarget s.current target ≤ loan.idle) ∧
      (s.slot = .lowered → adjustedTarget s.current target = loan.base) := by
  obtain ⟨hbounds, hbase⟩ := h.chosen target hlock
  refine ⟨adjustedTarget_bounds h.current.1 hbounds, fun hlow => ?_⟩
  rw [hbase hlow]
  exact adjustedTarget_base h.current.1

/-! What a thread has says how the shared state is. -/

section

variable {t : Thread} (hcover : amount (t.has loan.base) ≤ amount s.has)

include hcover

theorem slot_taken (h : t.has loan.base .notLowered = true) : s.slot = .taken := by
  simpa [Shared.has] using has_of_amount_le hcover h

theorem slot_lowered (h : t.has loan.base .lowered = true) : s.slot = .lowered := by
  simpa [Shared.has] using has_of_amount_le hcover h

theorem lock_held (h : t.has loan.base .lock = true) : s.lock = .held := by
  simpa [Shared.has] using has_of_amount_le hcover h

theorem lock_chosen (target : ℤ) (h : t.has loan.base (.chosen target) = true) :
    s.lock = .chosen target := by
  simpa [Shared.has] using has_of_amount_le hcover h

theorem lock_set (target : ℤ) (h : t.has loan.base (.set target) = true) :
    s.lock = .set target := by
  simpa [Shared.has] using has_of_amount_le hcover h

end

attribute [local simp] amount Shared.has Thread.has

/-- **A move.** The limits stay sound, and the move changes the shared parts by what its thread
    takes or returns. -/
theorem Next.keeps (hnext : Next loan s t s' t') (hpositive : 0 < loan.base) (hsound : Sound loan s)
    (hcover : amount (t.has loan.base) ≤ amount s.has) : Sound loan s' ∧
      amount s'.has + amount (t.has loan.base) = amount s.has + amount (t'.has loan.base) := by
  cases hnext with
  -- moves that leave the shared state alone
  | cancelled | begin | abandon | fail | succeed | finish => exact ⟨hsound, rfl⟩
  -- the slot
  | enter h =>
    refine ⟨hsound.reslot (by simp), funext fun p => ?_⟩
    cases p <;> simp [h]
  | leave =>
    have hslot := slot_lowered hcover (by simp)
    have hlock := lock_held hcover (by simp)
    refine ⟨hsound.reslot (by simp), funext fun p => ?_⟩
    cases p <;> simp [hslot, hlock]
  -- the lock
  | lockBase h | lockRelease h | lockMonitor h =>
    refine ⟨hsound.relock (.inr rfl), funext fun p => ?_⟩
    cases p <;> simp [h]
  | unlockBase | unlock =>
    have hlock := lock_held hcover (by simp)
    refine ⟨hsound.relock (.inl rfl), funext fun p => ?_⟩
    cases p <;> simp [hlock]
  -- a helper lowers the limit
  | setBase =>
    have hslot := slot_taken hcover (by simp)
    have hlock := lock_held hcover (by simp)
    refine ⟨hsound.setLimit ⟨le_rfl, loan.base_lt_idle.le⟩ fun _ => rfl, funext fun p => ?_⟩
    cases p <;> simp [hslot, hlock, @eq_comm ℤ]
  | recordBase =>
    have hslot := slot_taken hcover (by simp)
    have hlock := lock_set hcover loan.base (by simp)
    refine ⟨hsound.recordBase hlock, funext fun p => ?_⟩
    cases p <;> simp [hslot, hlock, @eq_comm ℤ]
  -- a limit is chosen
  | measure reading | sample reading =>
    have hlock := lock_held hcover (by simp)
    refine ⟨hsound.choose_idleLimit reading, funext fun p => ?_⟩
    cases p <;> simp [hlock, @eq_comm ℤ]
  | adjust target h =>
    have hlock := lock_chosen hcover target (by simp)
    obtain ⟨hbounds, hbase⟩ := hsound.adjusted hlock
    rw [hsound.knownCurrent hpositive]
    refine ⟨hsound.choose hbounds hbase, funext fun p => ?_⟩
    cases p <;> simp [hlock, @eq_comm ℤ, add_comm]
  | keep target h =>
    have hlock := lock_chosen hcover target (by simp)
    rw [hsound.knownCurrent hpositive]
    refine ⟨hsound.relock (.inr rfl), funext fun p => ?_⟩
    cases p <;> simp [hlock, @eq_comm ℤ]
  -- and applied
  | set target =>
    have hlock := lock_chosen hcover target (by simp)
    obtain ⟨hbounds, hbase⟩ := hsound.chosen target hlock
    refine ⟨hsound.setLimit hbounds hbase, funext fun p => ?_⟩
    cases p <;> simp [hlock, @eq_comm ℤ]
  | record target =>
    have hlock := lock_set hcover target (by simp)
    refine ⟨hsound.record hlock, funext fun p => ?_⟩
    cases p <;> simp [hlock, @eq_comm ℤ]

variable {x : System Shared Thread}

/-- In every run the limits are sound, and the threads have what is there. -/
theorem reachable_sound (hpositive : 0 < loan.base)
    (h : Reachable (Next loan) (Configured loan) Arrives x) : Sound loan x.shared ∧
      amount x.shared.has = total (fun t => amount (t.has loan.base)) x.threads := by
  refine h.balanced (fun t => amount_nonneg _) (fun s hs => ?_) (fun t ht => ?_)
    fun s t s' t' hsound hcover hnext => hnext.keeps hpositive hsound hcover
  · refine ⟨Sound.of_configured hs, funext fun p => ?_⟩
    rw [hs]
    cases p <;> simp
  · rcases ht with rfl | rfl <;> exact funext fun p => by simp

/-! ### Holders -/

/-- A thread that has the slot. -/
def Thread.hasSlot (t : Thread) : Bool := t.has 0 .slot

/-- A helper from the return of `acquire` until its release empties the slot. -/
def Thread.holds (t : Thread) : Bool := t = .holding ∨ t = .release ∨ t = .emptying

theorem has_slot_iff (base : ℤ) (t : Thread) : t.has base .slot = t.hasSlot := by
  cases t <;> simp [Thread.hasSlot, Thread.has]

section

variable (hpositive : 0 < loan.base) (h : Reachable (Next loan) (Configured loan) Arrives x)
include hpositive h

/-- At most one thread has the slot. -/
theorem countP_hasSlot_le : x.threads.countP Thread.hasSlot ≤ 1 := by
  have hbalance := congrFun (reachable_sound hpositive h).2 .slot
  rw [total_count Thread.hasSlot fun t => by rw [amount, has_slot_iff]] at hbalance
  rw [amount] at hbalance
  split at hbalance <;> omega

/-- While a helper holds the slot the limits are the base. -/
theorem base_of_holds (ht : t ∈ x.threads) (hholds : t.holds = true) :
    x.shared.runtime = loan.base ∧ x.shared.current = loan.base := by
  obtain ⟨hsound, hbalance⟩ := reachable_sound hpositive h
  have hcover : amount (t.has loan.base) ≤ amount x.shared.has := by
    rw [hbalance]
    exact charge_le_total (fun t => amount_nonneg (t.has loan.base)) ht
  refine hsound.lowered (slot_lowered hcover ?_)
  simp only [Thread.holds, decide_eq_true_eq] at hholds
  rcases hholds with rfl | rfl | rfl <;> simp [Thread.has]

end

end

/-- **The budget is never over-committed.** The parts of the plan make up the ceiling, which
    respects the limits of the container, and no number on the way leaves their range.  In every
    run of a loan that is configured for the plan the limit stays between the base and the idle
    one, at most one thread has the slot, and the limit is the base as long as a helper holds it. -/
theorem budget_never_overcommitted (limits : Limits)
    (hhigh : 0 ≤ limits.high ∧ limits.high ≤ 2 ^ 60) (hmax : 0 ≤ limits.max ∧ limits.max ≤ 2 ^ 60) :
    let plan := derive limits
    (plan.gateway + plan.xray + 2 * plan.worker + plan.reserve = plan.ceiling ∧
      (0 ≤ plan.gateway ∧ 0 ≤ plan.xray ∧ 0 ≤ plan.worker ∧ 0 ≤ plan.reserve) ∧
      (0 < limits.high → plan.ceiling ≤ limits.high) ∧
      (0 < limits.max → plan.ceiling ≤ limits.max - limits.max.tdiv 8) ∧ plan.ceiling ≤ 2 ^ 60) ∧
    ∀ (setting : Setting) (requested : List Char) (loan : Loan),
      configureACMELoan setting plan requested = some loan →
      ∀ x, Reachable (Next loan) (Configured loan) Arrives x →
        (loan.base ≤ x.shared.current ∧ x.shared.current ≤ loan.idle) ∧
        (loan.base ≤ x.shared.runtime ∧ x.shared.runtime ≤ loan.idle) ∧
        x.threads.countP Thread.hasSlot ≤ 1 ∧
        ∀ t ∈ x.threads, t.holds = true →
          x.shared.current = loan.base ∧ x.shared.runtime = loan.base := by
  have hparts := derive_parts hhigh.1 hmax.1
  have hceiling := derive_ceiling hhigh.1 hmax.1
  have hrange : 224 * MiB ≤ 2 ^ 60 := by
    rw [MiB]
    norm_num
  have hbounded := derive_bounded hrange hhigh.1 hmax.1 hhigh.2 hmax.2
  obtain ⟨hsum, hgateway, hxray, hworker, hreserve⟩ := hparts
  refine ⟨⟨hsum, ⟨hgateway.le, hxray, hworker, hreserve⟩, hceiling.2.1, hceiling.2.2, hbounded.1⟩,
    fun setting requested loan hloan x hx => ?_⟩
  have hpositive : 0 < loan.base := by
    rw [base_of_configureACMELoan hloan]
    exact (cap_bounds hgateway requested).1
  have hsound := (reachable_sound hpositive hx).1
  exact ⟨hsound.current, hsound.runtime, countP_hasSlot_le hpositive hx,
    fun t ht hholds => (base_of_holds hpositive hx ht hholds).symm⟩

/-- A container of 256 MiB whose monitor follows the pressure. -/
def sampleContainer : Limits := { high := 256 * MiB, max := 0 }

/-- A container that may lend. -/
def sampleSetting : Setting :=
  { acmeLoan := true, pressureBudget := true, detectedLimits := sampleContainer,
    usageReadable := true, pressureReadable := true }

/-- The loan of the container. -/
def sampleLoan : Loan :=
  { base := 55784244, idle := 89338676, limit := 256 * MiB, pressured := true,
    base_lt_idle := by decide }

theorem sampleLoan_configured :
    configureACMELoan sampleSetting (derive sampleContainer) [] = some sampleLoan := by
  rfl

/-- A helper acquires the loan. -/
theorem sampleHolder_reachable : Reachable (Next sampleLoan) (Configured sampleLoan) Arrives
      ⟨⟨.lowered, .free, sampleLoan.base, sampleLoan.base⟩, [.holding]⟩ := by
  have h0 : Reachable (Next sampleLoan) (Configured sampleLoan) Arrives
      ⟨⟨.free, .free, sampleLoan.idle, sampleLoan.idle⟩, []⟩ := .start rfl
  have h1 := h0.step (.spawn [] (.inl rfl))
  have h2 := h1.step (.move [] [] (.begin _))
  have h3 := h2.step (.move [] [] (.enter _ rfl))
  have h4 := h3.step (.move [] [] (.lockBase _ rfl))
  have h5 := h4.step (.move [] [] (.setBase _))
  have h6 := h5.step (.move [] [] (.recordBase _))
  have h7 := h6.step (.move [] [] (.unlockBase _))
  exact h7.step (.move [] [] (.succeed _))

/-- The budget of the container with a helper that holds its loan. -/
theorem sampleContainer_budget : (derive sampleContainer).gateway + (derive sampleContainer).xray +
        2 * (derive sampleContainer).worker + (derive sampleContainer).reserve =
      (derive sampleContainer).ceiling ∧
    ∃ x, Reachable (Next sampleLoan) (Configured sampleLoan) Arrives x ∧
      Thread.holding ∈ x.threads ∧ x.shared.current = sampleLoan.base := by
  have h := budget_never_overcommitted sampleContainer (by decide) (by decide)
  have hholder := h.2 _ _ _ sampleLoan_configured _ sampleHolder_reachable
  exact ⟨h.1.1, _, sampleHolder_reachable, by simp, (hholder.2.2.2 .holding (by simp) rfl).1⟩

end SbGateway.MemoryBudget
