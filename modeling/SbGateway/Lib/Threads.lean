import Mathlib

namespace SbGateway.Lib.Threads

/-!
# Threads over a shared state

A system is a shared state and the threads that are running.  In a step one thread moves, and with
it the shared state, or a new thread appears.  `next s t s' t'` is a move of a thread from `t` to
`t'`.

* `Reachable.inv` — a condition on the shared state and one on each thread, which moves of other
  threads do not disturb, hold in every reachable system;
* `Reachable.balanced` — accounts of the shared state that every move changes by what its thread
  takes or returns are equal to the sum of what the threads have taken.
-/

variable {σ τ : Type} {next : σ → τ → σ → τ → Prop} {init : σ → Prop} {fresh : τ → Prop}

/-- Threads and what they share. -/
structure System (σ τ : Type) where
  shared : σ
  threads : List τ

/-- One thread moves, or a new one appears. -/
inductive Step (next : σ → τ → σ → τ → Prop) (fresh : τ → Prop) :
    System σ τ → System σ τ → Prop where
  | move {s s' : σ} {t t' : τ} (before after : List τ) (h : next s t s' t') :
      Step next fresh ⟨s, before ++ t :: after⟩ ⟨s', before ++ t' :: after⟩
  | spawn {s : σ} {t : τ} (threads : List τ) (h : fresh t) :
      Step next fresh ⟨s, threads⟩ ⟨s, t :: threads⟩

/-- The systems that are reached from a state without threads. -/
inductive Reachable (next : σ → τ → σ → τ → Prop) (init : σ → Prop) (fresh : τ → Prop) :
    System σ τ → Prop where
  | start {s : σ} (h : init s) : Reachable next init fresh ⟨s, []⟩
  | step {x y : System σ τ} (h : Reachable next init fresh x) (hstep : Step next fresh x y) :
      Reachable next init fresh y

/-- **Invariants.** Every move keeps `I`, what is known of its thread, and what is known of the
    others. -/
theorem Reachable.inv {I : σ → Prop} {T : σ → τ → Prop} (hinit : ∀ s, init s → I s)
    (hfresh : ∀ s t, I s → fresh t → T s t) (hmove : ∀ s t s' t', I s → T s t → next s t s' t' →
      I s' ∧ T s' t' ∧ ∀ u, T s u → T s' u) (h : Reachable next init fresh x) :
    I x.shared ∧ ∀ t ∈ x.threads, T x.shared t := by
  induction h with
  | start h => exact ⟨hinit _ h, by simp⟩
  | step _ hstep ih =>
    cases hstep with
    | @move s s' t t' before after h =>
      obtain ⟨hI, hT⟩ := ih
      obtain ⟨hI', ht', hothers⟩ := hmove s t s' t' hI (hT t (by simp)) h
      refine ⟨hI', fun u hu => ?_⟩
      rcases List.mem_append.mp hu with hu | hu
      · exact hothers u (hT u (List.mem_append_left _ hu))
      · rcases List.mem_cons.mp hu with rfl | hu
        · exact ht'
        · exact hothers u (hT u (by simp [hu]))
    | spawn threads h =>
      obtain ⟨hI, hT⟩ := ih
      refine ⟨hI, fun u hu => ?_⟩
      rcases List.mem_cons.mp hu with rfl | hu
      · exact hfresh _ _ hI h
      · exact hT u hu

/-! ### Accounts -/

section Accounts

variable {A : Type} {charge : τ → A → ℤ}

/-- What some threads have taken. -/
def total (charge : τ → A → ℤ) (threads : List τ) : A → ℤ := (threads.map charge).sum

@[simp] theorem total_nil : total charge [] = 0 := rfl

@[simp] theorem total_cons (t : τ) (threads : List τ) :
    total charge (t :: threads) = charge t + total charge threads := by
  simp [total]

@[simp] theorem total_append (threads others : List τ) :
    total charge (threads ++ others) = total charge threads + total charge others := by
  simp [total]

theorem total_apply (threads : List τ) (a : A) :
    total charge threads a = (threads.map fun t => charge t a).sum := by
  induction threads with
  | nil => rfl
  | cons t threads ih => simp [ih]

theorem total_nonneg (hcharge : ∀ t, 0 ≤ charge t) (threads : List τ) :
    0 ≤ total charge threads := by
  induction threads with
  | nil => exact le_rfl
  | cons t threads ih => simpa using add_nonneg (hcharge t) ih

/-- The sum covers what each thread has taken. -/
theorem charge_le_total (hcharge : ∀ t, 0 ≤ charge t) (h : t ∈ threads) :
    charge t ≤ total charge threads := by
  obtain ⟨before, after, rfl⟩ := List.append_of_mem h
  have hbefore := total_nonneg hcharge before
  have hafter := total_nonneg hcharge after
  simp only [total_append, total_cons]
  calc charge t = 0 + (charge t + 0) := by simp
    _ ≤ total charge before + (charge t + total charge after) :=
      add_le_add hbefore (add_le_add le_rfl hafter)

/-- An account of things that are held once each is the number of threads that hold one. -/
theorem total_count (held : τ → Bool)
    (h : ∀ t, charge t a = if held t then 1 else 0) (threads : List τ) :
    total charge threads a = threads.countP held := by
  induction threads with
  | nil => rfl
  | cons t threads ih =>
    rw [total_cons, Pi.add_apply, ih, h, List.countP_cons]
    split <;> simp [add_comm]

/-- **Accounts.** Every move changes the accounts by what its thread takes or returns; it may use
    that the accounts cover what the thread has.  Then the accounts are the sum over all threads. -/
theorem Reachable.balanced {I : σ → Prop} {balance : σ → A → ℤ} (hcharge : ∀ t, 0 ≤ charge t)
    (hinit : ∀ s, init s → I s ∧ balance s = 0) (hfresh : ∀ t, fresh t → charge t = 0)
    (hmove : ∀ s t s' t', I s → charge t ≤ balance s → next s t s' t' →
      I s' ∧ balance s' + charge t = balance s + charge t') (h : Reachable next init fresh x) :
    I x.shared ∧ balance x.shared = total charge x.threads := by
  induction h with
  | start h => exact hinit _ h
  | step _ hstep ih =>
    obtain ⟨hI, hbalance⟩ := ih
    cases hstep with
    | @move s s' t t' before after h =>
      have hcovered : charge t ≤ balance s := by
        rw [hbalance]
        exact charge_le_total hcharge (by simp)
      obtain ⟨hI', hchange⟩ := hmove s t s' t' hI hcovered h
      refine ⟨hI', ?_⟩
      have hsame : balance s' + charge t =
          total charge before + (charge t' + total charge after) + charge t := by
        rw [hchange, hbalance]
        simp only [total_append, total_cons]
        abel
      simpa using add_right_cancel hsame
    | spawn threads h =>
      refine ⟨hI, hbalance.trans ?_⟩
      simp [hfresh _ h]

end Accounts

end SbGateway.Lib.Threads
