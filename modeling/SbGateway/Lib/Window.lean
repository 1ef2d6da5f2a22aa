import Mathlib

namespace SbGateway.Lib

/-!
# Sliding windows

Events at certain times, the latest first.  An event is admitted if there were fewer than `n` in the
time `length` before it.  Then no window of this length has more than `n` events
(`Spaced.countP_window_le`).
-/

/-- Every event comes after the earlier ones and has fewer than `n` of them in the time `length`
    before it. -/
def Spaced (length : ℤ) (n : ℕ) : List ℤ → Prop
  | [] => True
  | t :: earlier =>
    (∀ u ∈ earlier, u ≤ t) ∧ earlier.countP (fun u => t - u < length) < n ∧ Spaced length n earlier

/-- **Windows.** A window that begins anywhere has at most `n` events. -/
theorem Spaced.countP_window_le (h : Spaced length n times) (first : ℤ) :
    times.countP (fun t => first ≤ t ∧ t < first + length) ≤ n := by
  induction times with
  | nil => simp
  | cons t earlier ih =>
    obtain ⟨-, hcount, hearlier⟩ := h
    rw [List.countP_cons]
    split
    · rename_i hin
      have hin := of_decide_eq_true hin
      -- what else is in the window is in the time before `t`
      have hle : earlier.countP (fun u => first ≤ u ∧ u < first + length) ≤
          earlier.countP (fun u => t - u < length) := by
        refine List.countP_mono_left fun u _ hu => ?_
        have hu := of_decide_eq_true hu
        exact decide_eq_true (by omega)
      omega
    · exact ih hearlier

end SbGateway.Lib
