import Mathlib.Order.Defs.Unbundled

namespace SbGateway.Lib

/-!
# Imperative programs that may fail

`Prog σ α` is a computation over a state `σ` that returns a value or an error text and keeps
its effects in both cases, as a method of a mutable object with an `error` result does.

* `Triple P m Q E` — from `P`, a normal return of `m` establishes `Q` and an error `E`; one
  rule per construct (`Triple.bind`, `Triple.ite`, `Triple.attempt`, `Triple.forEach`, …);
* `Within R m` — every run of `m` moves the state along `R`, for frame conditions with a
  reflexive and transitive `R`; `Within.triple` turns a frame into a triple.
-/

/-- A computation over `σ` that may fail; its effects stay in both cases. -/
def Prog (σ α : Type) : Type := σ → Except String α × σ

namespace Prog

variable {σ α β : Type}

/-- Continue with the value, or stop with the error. -/
def bind (m : Prog σ α) (f : α → Prog σ β) : Prog σ β := fun s =>
  match m s with
  | (.ok a, s') => f a s'
  | (.error e, s') => (.error e, s')

instance : Monad (Prog σ) where
  pure a := fun s => (.ok a, s)
  bind := Prog.bind

/-- The current state. -/
def state : Prog σ σ := fun s => (.ok s, s)

/-- Change the state. -/
def alter (f : σ → σ) : Prog σ Unit := fun s => (.ok (), f s)

/-- Return an error. -/
def fail (e : String) : Prog σ α := fun s => (.error e, s)

/-- Run `m` and hand its error to the caller as a value. -/
def attempt (m : Prog σ α) : Prog σ (Except String α) := fun s => (.ok (m s).1, (m s).2)

/-- Run `m` only if the condition holds. -/
def when (c : Prop) [Decidable c] (m : Prog σ Unit) : Prog σ Unit := if c then m else pure ()

/-- A `for` loop over a list. -/
def forEach : List β → (β → Prog σ Unit) → Prog σ Unit
  | [], _ => pure ()
  | b :: rest, body => do
    body b
    forEach rest body

/-- The state after a run, whatever it returned. -/
def exec (m : Prog σ α) (s : σ) : σ := (m s).2

end Prog

/-! ### Pre- and postconditions -/

section Triple

variable {σ α β : Type}

/-- From `P`, a normal return establishes `Q` and an error establishes `E`. -/
def Triple (P : σ → Prop) (m : Prog σ α) (Q : α → σ → Prop) (E : σ → Prop) : Prop :=
  ∀ s, P s → match m s with
    | (.ok a, s') => Q a s'
    | (.error _, s') => E s'

/-- The precondition holds again after a normal return. -/
abbrev Preserves (I : σ → Prop) (m : Prog σ α) (E : σ → Prop) : Prop := Triple I m (fun _ => I) E

/-- An invariant, kept whether the program succeeds or fails. -/
abbrev Stable (I : σ → Prop) (m : Prog σ α) : Prop := Triple I m (fun _ => I) I

variable {P P' : σ → Prop} {E E' : σ → Prop} {Q Q' : α → σ → Prop}

theorem Triple.pure {a : α} (h : ∀ s, P s → Q a s) : Triple P (Pure.pure a) Q E :=
  fun s hs => h s hs

/-- A step that does nothing. -/
theorem Triple.skip : Triple P (Pure.pure a) (fun _ => P) E :=
  Triple.pure fun _ h => h

theorem Triple.fail (h : ∀ s, P s → E s) : Triple P (Prog.fail e) Q E :=
  fun s hs => h s hs

theorem Triple.alter {f : σ → σ} {Q : Unit → σ → Prop} (h : ∀ s, P s → Q () (f s)) :
    Triple P (Prog.alter f) Q E :=
  fun s hs => h s hs

variable {m : Prog σ α}

/-- Sequential composition. -/
theorem Triple.bind {f : α → Prog σ β} {Q : β → σ → Prop} (R : α → σ → Prop)
    (hm : Triple P m R E) (hf : ∀ a, Triple (R a) (f a) Q E) : Triple P (m >>= f) Q E := by
  intro s hs
  have h := hm s hs
  show match Prog.bind m f s with
    | (.ok b, s') => Q b s'
    | (.error _, s') => E s'
  unfold Prog.bind
  rcases hms : m s with ⟨r | a, s'⟩
  · rw [hms] at h
    exact h
  · rw [hms] at h
    exact hf a s' h

/-- The rule of consequence. -/
theorem Triple.weaken (h : Triple P m Q E) (hP : ∀ s, P' s → P s)
    (hQ : ∀ a s, Q a s → Q' a s) (hE : ∀ s, E s → E' s) : Triple P' m Q' E' := by
  intro s hs
  have h := h s (hP s hs)
  rcases hms : m s with ⟨r | a, s'⟩
  · rw [hms] at h
    exact hE s' h
  · rw [hms] at h
    exact hQ a s' h

theorem Triple.pre (h : Triple P m Q E) (hP : ∀ s, P' s → P s) : Triple P' m Q E :=
  fun s hs => h s (hP s hs)

theorem Triple.onError (h : Triple P m Q E) (hE : ∀ s, E s → E' s) : Triple P m Q E' :=
  h.weaken (fun _ hs => hs) (fun _ _ hs => hs) hE

theorem Triple.post (h : Triple P m Q E) (hQ : ∀ a s, Q a s → Q' a s) : Triple P m Q' E :=
  h.weaken (fun _ hs => hs) hQ (fun _ hs => hs)

/-- A step that keeps the assertion, then the rest. -/
theorem Triple.keep {f : α → Prog σ β} {Q : β → σ → Prop} (hm : Triple P m (fun _ => P) E)
    (hf : ∀ a, Triple P (f a) Q E) : Triple P (m >>= f) Q E :=
  Triple.bind _ hm hf

/-- Reading the state, where the rest needs no relation to the value read. -/
theorem Triple.bind_state {f : σ → Prog σ α} (hf : ∀ now, Triple P (f now) Q E) :
    Triple P (Prog.state >>= f) Q E :=
  fun s => hf s s

/-- Reading the state, with what holds of it at that time. -/
theorem Triple.read {f : σ → Prog σ α} (hf : ∀ now, P now → Triple P (f now) Q E) :
    Triple P (Prog.state >>= f) Q E :=
  fun s hs => hf s hs s hs

/-- Reading the state fixes it for the rest. -/
theorem Triple.fix {f : σ → Prog σ α} (hf : ∀ now, P now → Triple (· = now) (f now) Q E) :
    Triple P (Prog.state >>= f) Q E :=
  fun s hs => hf s hs s rfl

theorem Triple.bind_alter {g : σ → σ} {k : Unit → Prog σ α} (hk : Triple (· = g s) (k ()) Q E) :
    Triple (· = s) (Prog.alter g >>= k) Q E :=
  Triple.bind (fun _ => (· = g s)) (Triple.alter (forall_eq.mpr rfl)) fun _ => hk

/-- A fact about the state that the precondition fixes may be used as a hypothesis. -/
theorem Triple.of_imp {p : Prop} (hp : ∀ s, P s → p) (h : p → Triple P m Q E) : Triple P m Q E :=
  fun s hs => h (hp s hs) s hs

theorem Triple.ite {c : Prop} [Decidable c] {m n : Prog σ α} (hm : c → Triple P m Q E)
    (hn : ¬ c → Triple P n Q E) : Triple P (if c then m else n) Q E := by
  split
  · exact hm ‹c›
  · exact hn ‹¬ c›

/-- A branch whose condition does not matter. -/
theorem Triple.branch {c : Prop} [Decidable c] {m n : Prog σ α} (hm : Triple P m Q E)
    (hn : Triple P n Q E) : Triple P (if c then m else n) Q E :=
  Triple.ite (fun _ => hm) fun _ => hn

theorem Triple.when {c : Prop} [Decidable c] {m : Prog σ Unit} {Q : Unit → σ → Prop}
    (hm : c → Triple P m Q E) (hskip : ¬ c → ∀ s, P s → Q () s) : Triple P (Prog.when c m) Q E :=
  Triple.ite hm (fun hc => Triple.pure (hskip hc))

/-- An attempted computation never fails; both outcomes are seen by the caller. -/
theorem Triple.attempt {R : σ → Prop} (h : Triple P m Q R) :
    Triple P (Prog.attempt m) (fun r s => (∃ a, r = .ok a ∧ Q a s) ∨ (∃ e, r = .error e ∧ R s))
      E := by
  intro s hs
  have h := h s hs
  show (∃ a, (m s).1 = .ok a ∧ Q a (m s).2) ∨ (∃ e, (m s).1 = .error e ∧ R (m s).2)
  rcases hms : m s with ⟨e | a, s'⟩
  · rw [hms] at h
    exact .inr ⟨e, rfl, h⟩
  · rw [hms] at h
    exact .inl ⟨a, rfl, h⟩

/-- An attempt followed by a case distinction on its outcome. -/
theorem Triple.bind_attempt {k : Except String α → Prog σ β}
    {Q : β → σ → Prop} {R : α → σ → Prop} {F : σ → Prop} (hm : Triple P m R F)
    (hok : ∀ a, Triple (R a) (k (.ok a)) Q E) (herr : ∀ e, Triple F (k (.error e)) Q E) :
    Triple P (Prog.attempt m >>= k) Q E := by
  apply Triple.bind _ hm.attempt
  rintro (e | a)
  · apply (herr e).pre
    rintro s (⟨_, h, _⟩ | ⟨_, _, hF⟩)
    · cases h
    · exact hF
  · apply (hok a).pre
    rintro s (⟨_, h, hR⟩ | ⟨_, h, _⟩)
    · cases h
      exact hR
    · cases h

variable {I : σ → Prop}

/-- What a computation leaves behind in both cases, an attempt leaves behind. -/
theorem Triple.attempt_same (h : Triple P m (fun _ => I) I) :
    Triple P (Prog.attempt m) (fun _ => I) E := by
  refine h.attempt.weaken (fun _ hs => hs) ?_ (fun _ hs => hs)
  rintro r s (⟨_, _, hI⟩ | ⟨_, _, hI⟩) <;> exact hI

/-- A frame of a fixed state: what holds of the final state of every run from `s`. -/
theorem Triple.of_final (h : ∀ s, P s → I (m s).2) : Triple P m (fun _ => I) I := by
  intro s hs
  have h := h s hs
  rcases hms : m s with ⟨e | a, s'⟩ <;> rw [hms] at h <;> exact h

/-- **Loop rule.** `I done` holds after the iterations over `done`. -/
theorem Triple.forEach {body : β → Prog σ Unit} (I : List β → σ → Prop)
    (hbody : ∀ done b rest, l = done ++ b :: rest →
      Triple (I done) (body b) (fun _ => I (done ++ [b])) E) :
    Triple (I []) (Prog.forEach l body) (fun _ => I l) E := by
  -- generalised over the part already done
  have key : ∀ rest done, l = done ++ rest →
      Triple (I done) (Prog.forEach rest body) (fun _ => I l) E := by
    intro rest
    induction rest with
    | nil =>
      intro done hl
      rw [List.append_nil] at hl
      subst hl
      exact Triple.pure (fun _ hs => hs)
    | cons b rest ih =>
      intro done hl
      refine Triple.bind _ (hbody done b rest hl) (fun _ => ?_)
      exact ih (done ++ [b]) (by rw [hl, List.append_assoc, List.singleton_append])
  exact key l [] rfl

/-- A program that establishes `I` in both cases leaves it behind. -/
theorem Triple.exec (h : Triple P m (fun _ => I) I) (hs : P s) : I (m.exec s) := by
  have h := h s hs
  show I (m s).2
  rcases hms : m s with ⟨e | a, s'⟩ <;> rw [hms] at h <;> exact h

end Triple

/-! ### Frame conditions -/

section Within

variable {σ α β : Type} {R : σ → σ → Prop}

/-- Every run of `m` moves the state along `R`. -/
def Within (R : σ → σ → Prop) (m : Prog σ α) : Prop := ∀ s, R s (m s).2

theorem Within.pure [Std.Refl R] (a : α) : Within R (Pure.pure a : Prog σ α) :=
  fun s => Std.Refl.refl s

theorem Within.fail [Std.Refl R] (e : String) : Within R (Prog.fail e : Prog σ α) :=
  fun s => Std.Refl.refl s

theorem Within.state [Std.Refl R] : Within R (Prog.state : Prog σ σ) :=
  fun s => Std.Refl.refl s

theorem Within.alter {f : σ → σ} (h : ∀ s, R s (f s)) : Within R (Prog.alter f) :=
  fun s => h s

variable {m : Prog σ α}

theorem Within.bind [IsTrans σ R]
    {f : α → Prog σ β} (hm : Within R m) (hf : ∀ a, Within R (f a)) : Within R (m >>= f) := by
  intro s
  have h := hm s
  show R s (Prog.bind m f s).2
  unfold Prog.bind
  rcases hms : m s with ⟨e | a, s'⟩ <;> rw [hms] at h
  · exact h
  · exact IsTrans.trans _ _ _ h (hf a s')

theorem Within.attempt (hm : Within R m) : Within R (Prog.attempt m) :=
  fun s => hm s

theorem Within.ite {c : Prop} [Decidable c] (hm : Within R m) (hn : Within R n) :
    Within R (if c then m else n) := by
  split
  · exact hm
  · exact hn

/-- What `R` preserves, a program within `R` preserves. -/
theorem Within.triple (hm : Within R m) {I : σ → Prop} (hI : ∀ s s', R s s' → I s → I s') :
    Triple I m (fun _ => I) I :=
  Triple.of_final (fun s hs => hI s (m s).2 (hm s) hs)

end Within

end SbGateway.Lib
