import Mathlib.Logic.Basic
import Mathlib.Tactic.ByContra

namespace SbGateway.Lib

/-!
# Programs of external calls

`Calls Op Res α` is a program that talks to the outside by calls `op : Op` with answers in
`Res op`.  The outside is a step function: with the choice of the environment, a call has an
answer and an effect on the state.  A run gets one choice for every call and is cut off when
they are used up, so that the runs of all lists of choices are the complete runs and the runs
that crash before any of their calls.

* `wp step I m Q` — from this state, every run of `m` returns with `Q`, and `I` holds whenever
  it is cut off; `wp_bind`, `wp_perform` and `wp_mono` are its rules, `wp_run_bind` is the rule
  of programs that stop at their first error;
* `run_of_wp` — what `wp` promises holds of every run;
* `recorded` — the outside that also keeps a record of its calls;
* `wpTrace` — conditions that speak of the calls of a run, with the same rules;
* `wp_embed` — a program over a part of the state keeps its specification in a larger one;
* `Only` — programs that make only certain calls keep what these calls keep.
-/

/-- How a call to the outside ends: it is carried out and confirmed, it is not carried out, or
    it is carried out and its confirmation fails. -/
inductive Ending where
  | done
  | refused
  | lost
  deriving DecidableEq, Repr

/-- The call has had its effect. -/
def Ending.takesEffect : Ending → Bool
  | .refused => false
  | _ => true

theorem forall_ending {P : Ending → Prop} : (∀ e, P e) ↔ P .done ∧ P .refused ∧ P .lost := by
  refine ⟨fun h => ⟨h .done, h .refused, h .lost⟩, fun h e => ?_⟩
  obtain ⟨hdone, hrefused, hlost⟩ := h
  cases e <;> assumption

/-- A program of external calls. -/
inductive Calls (Op : Type) (Res : Op → Type) (α : Type) : Type where
  | ret (value : α)
  | call (op : Op) (next : Res op → Calls Op Res α)

namespace Calls

variable {Op : Type} {Res : Op → Type} {σ Choice α β : Type}

/-- Continue with the value of a program. -/
def bind : Calls Op Res α → (α → Calls Op Res β) → Calls Op Res β
  | ret a, f => f a
  | call op next, f => call op fun r => (next r).bind f

instance : Monad (Calls Op Res) where
  pure := ret
  bind := bind

/-- A single call. -/
def perform (op : Op) : Calls Op Res (Res op) := call op ret

/-- Run with the choices of the environment, one for every call; the run is cut off when they
    are used up. -/
def run (step : (op : Op) → Choice → σ → Res op × σ) :
    Calls Op Res α → List Choice → σ → Option α × σ
  | ret a, _, s => (some a, s)
  | call _ _, [], s => (none, s)
  | call op next, c :: choices, s => (next (step op c s).1).run step choices (step op c s).2

/-! ### Weakest preconditions -/

variable {step : (op : Op) → Choice → σ → Res op × σ} {I : σ → Prop}

/-- Every run returns with `Q`, and `I` holds before each of its calls. -/
def wp (step : (op : Op) → Choice → σ → Res op × σ) (I : σ → Prop) :
    Calls Op Res α → (α → σ → Prop) → σ → Prop
  | ret a, Q, s => Q a s
  | call op next, Q, s => I s ∧ ∀ c, wp step I (next (step op c s).1) Q (step op c s).2

theorem wp_bind {f : α → Calls Op Res β} {Q : β → σ → Prop} :
    wp step I (m >>= f) Q s ↔ wp step I m (fun a => wp step I (f a) Q) s := by
  induction m generalizing s with
  | ret a => exact Iff.rfl
  | call op next ih => exact and_congr_right fun _ => forall_congr' fun c => ih _

theorem wp_perform (op : Op) (Q : Res op → σ → Prop) (s : σ) :
    wp step I (perform op) Q s ↔ I s ∧ ∀ c, Q (step op c s).1 (step op c s).2 :=
  Iff.rfl

variable {s : σ}

/-- The rule of consequence. -/
theorem wp_mono {Q Q' : α → σ → Prop} (h : wp step I m Q s) (hQ : ∀ a s, Q a s → Q' a s) :
    wp step I m Q' s := by
  induction m generalizing s with
  | ret a => exact hQ a s h
  | call op next ih => exact ⟨h.1, fun c => ih _ (h.2 c)⟩

variable {Q : α → σ → Prop}

/-- **Soundness.** A run that returns establishes `Q`, and a run that is cut off leaves `I`. -/
theorem run_of_wp (h : wp step I m Q s) (choices : List Choice) :
    (∀ a, (m.run step choices s).1 = some a → Q a (m.run step choices s).2) ∧
      ((m.run step choices s).1 = none → I (m.run step choices s).2) := by
  induction m generalizing choices s with
  | ret a =>
    refine ⟨fun b hb => ?_, nofun⟩
    cases hb
    exact h
  | call op next ih =>
    cases choices with
    | nil =>
      refine ⟨fun a ha => ?_, fun _ => h.1⟩
      cases ha
    | cons c choices => exact ih _ (h.2 c) choices

/-- An invariant of a program holds after every run, cut off or not. -/
theorem wp_inv (h : wp step I m (fun _ => I) s) (choices : List Choice) :
    I (m.run step choices s).2 := by
  obtain ⟨hreturned, hcut⟩ := run_of_wp h choices
  cases hresult : (m.run step choices s).1 with
  | none => exact hcut hresult
  | some a => exact hreturned a hresult

theorem of_run_some (h : wp step I m Q s) (hrun : m.run step choices s = (some a, s')) :
    Q a s' := by
  have hrets := (run_of_wp h choices).1
  rw [hrun] at hrets
  exact hrets a rfl

variable {I' : σ → Prop}

/-- Two specifications of one program. -/
theorem wp_and {Q Q' : α → σ → Prop} (h : wp step I m Q s) (h' : wp step I' m Q' s) :
    wp step I m (fun a s => Q a s ∧ Q' a s) s := by
  induction m generalizing s with
  | ret a => exact ⟨h, h'⟩
  | call op next ih => exact ⟨h.1, fun c => ih _ (h.2 c) (h'.2 c)⟩

theorem wp_weaken (h : wp step I m Q s) (hI : ∀ s, I s → I' s) : wp step I' m Q s := by
  induction m generalizing s with
  | ret a => exact h
  | call op next ih => exact ⟨hI _ h.1, fun c => ih _ (h.2 c)⟩

/-! ### Programs of certain calls -/

/-- All calls the program can make are of this kind. -/
def Only (p : Op → Prop) : Calls Op Res α → Prop
  | ret _ => True
  | call op next => p op ∧ ∀ r, Only p (next r)

theorem only_bind {p : Op → Prop} {f : α → Calls Op Res β}
    (hm : Only p m) (hf : ∀ a, Only p (f a)) : Only p (m >>= f) := by
  induction m with
  | ret a => exact hf a
  | call op next ih => exact ⟨hm.1, fun r => ih r (hm.2 r)⟩

theorem only_mono {p q : Op → Prop} (hm : Only p m) (h : ∀ op, p op → q op) : Only q m := by
  induction m with
  | ret a => exact trivial
  | call op next ih => exact ⟨h op hm.1, fun r => ih r (hm.2 r)⟩

/-- What all calls of this kind keep, the program keeps. -/
theorem wp_of_only {p : Op → Prop} (hm : Only p m)
    (hI : ∀ op c s, p op → I s → I (step op c s).2) (hs : I s) : wp step I m (fun _ => I) s := by
  induction m generalizing s with
  | ret a => exact hs
  | call op next ih => exact ⟨hs, fun c => ih _ (hm.2 _) (hI op c s hm.1 hs)⟩

/-- The outside that makes only some of its choices. -/
def restrict (step : (op : Op) → Choice → σ → Res op × σ) (P : Choice → Prop) (op : Op)
    (c : { c // P c }) (s : σ) : Res op × σ :=
  step op c.1 s

variable {P : Choice → Prop}

/-- An outside that makes all its choices is not restricted. -/
theorem wp_of_restrict (hP : ∀ c, P c) (h : wp (restrict step P) I m Q s) : wp step I m Q s := by
  induction m generalizing s with
  | ret a => exact h
  | call op next ih => exact ⟨h.1, fun c => ih _ (h.2 ⟨c, hP c⟩)⟩

/-- **Progress.** With enough choices a program returns; if all choices are of one kind, it returns
    with what it promises for that kind. -/
theorem returns_of_wp
    (h : wp (restrict step P) I m Q s) (choice : Nat → Choice) (hP : ∀ i, P (choice i)) :
    ∃ n, ∀ k, n ≤ k →
      ∃ a s', m.run step ((List.range k).map choice) s = (some a, s') ∧ Q a s' := by
  induction m generalizing s choice with
  | ret a => exact ⟨0, fun k _ => ⟨a, s, rfl, h⟩⟩
  | call op next ih =>
    obtain ⟨n, hn⟩ := ih _ (h.2 ⟨choice 0, hP 0⟩) (fun i => choice (i + 1)) fun i => hP (i + 1)
    refine ⟨n + 1, fun k hk => ?_⟩
    obtain ⟨k, rfl⟩ : ∃ k', k = k' + 1 := ⟨k - 1, by omega⟩
    rw [List.range_succ_eq_map, List.map_cons, List.map_map]
    exact hn k (by omega)

/-- What holds of every run is promised by `wp`. -/
theorem wp_of_runs
    (h : ∀ choices, (∀ a, (m.run step choices s).1 = some a → Q a (m.run step choices s).2) ∧
      ((m.run step choices s).1 = none → I (m.run step choices s).2)) :
    wp step I m Q s := by
  induction m generalizing s with
  | ret a => exact (h []).1 a rfl
  | call op next ih => exact ⟨(h []).2 rfl, fun c => ih _ fun choices => h (c :: choices)⟩

/-- Two promises meet in a run with choices of the kind that one of them is for. -/
theorem exists_of_wp {Q Q' : α → σ → Prop} (hP : ∃ c, P c) (h : wp step I m Q s)
    (h' : wp (restrict step P) I' m Q' s) : ∃ a s', Q a s' ∧ Q' a s' := by
  induction m generalizing s with
  | ret a => exact ⟨a, s, h, h'⟩
  | call op next ih =>
    obtain ⟨c, hc⟩ := hP
    exact ih _ (h.2 c) (h'.2 ⟨c, hc⟩)

/-- A result that is decided in advance is the one a program returns with enough choices. -/
theorem returns_iff_of_wp {C : Prop}
    {R : α → Prop} {S : σ → Prop} (choice : Nat → Choice) (hP : ∀ i, P (choice i))
    (h : wp (restrict step P) I m (fun a s' => (C → R a ∧ S s') ∧ (¬ C → ¬ R a)) s) :
    (∃ n, ∀ k, n ≤ k → ∃ a s', m.run step ((List.range k).map choice) s = (some a, s') ∧
      R a ∧ S s') ↔ C := by
  obtain ⟨n, hn⟩ := returns_of_wp h choice hP
  constructor
  · rintro ⟨n', hn'⟩
    by_contra hno
    obtain ⟨a, s', hrun, hspec⟩ := hn (max n n') (Nat.le_max_left ..)
    obtain ⟨a', s'', hrun', hR, -⟩ := hn' (max n n') (Nat.le_max_right ..)
    rw [hrun] at hrun'
    obtain ⟨rfl, rfl⟩ : a = a' ∧ s' = s'' := by simpa using hrun'
    exact hspec.2 hno hR
  · intro hC
    refine ⟨n, fun k hk => ?_⟩
    obtain ⟨a, s', hrun, hspec⟩ := hn k hk
    exact ⟨a, s', hrun, hspec.1 hC⟩

/-! ### Records of runs -/

/-- The outside together with a record of the calls and of the choices for them. -/
def recorded (step : (op : Op) → Choice → σ → Res op × σ) (op : Op) (c : Choice)
    (s : σ × List (Op × Choice)) : Res op × (σ × List (Op × Choice)) :=
  ((step op c s.1).1, ((step op c s.1).2, s.2 ++ [(op, c)]))

/-- A specification that does not speak of the record. -/
theorem wp_recorded (h : wp step I m Q s) :
    wp (recorded step) (fun t => I t.1) m (fun a t => Q a t.1) (s, before) := by
  induction m generalizing s before with
  | ret a => exact h
  | call op next ih => exact ⟨h.1, fun c => ih _ (h.2 c)⟩

/-- Every run returns with `Q`, and `I` holds before each of its calls.  Both may speak of the calls
    that were made. -/
def wpTrace (step : (op : Op) → Choice → σ → Res op × σ) :
    (σ → List (Op × Choice) → Prop) → Calls Op Res α →
      (α → σ → List (Op × Choice) → Prop) → σ → Prop
  | _, ret a, Q, s => Q a s []
  | I, call op next, Q, s => I s [] ∧ ∀ c, wpTrace step (fun s' calls => I s' ((op, c) :: calls))
      (next (step op c s).1) (fun a s' calls => Q a s' ((op, c) :: calls)) (step op c s).2

section Trace

variable {J : σ → List (Op × Choice) → Prop} {m : Calls Op Res α}

theorem wpTrace_pure (a : α) (Q : α → σ → List (Op × Choice) → Prop) (s : σ) :
    wpTrace step J (pure a : Calls Op Res α) Q s ↔ Q a s [] :=
  Iff.rfl

theorem wpTrace_mono {Q Q' : α → σ → List (Op × Choice) → Prop}
    (h : wpTrace step J m Q s) (hQ : ∀ a s calls, Q a s calls → Q' a s calls) :
    wpTrace step J m Q' s := by
  induction m generalizing s J Q Q' with
  | ret a => exact hQ a s [] h
  | call op next ih => exact ⟨h.1, fun c => ih _ (h.2 c) fun a s' calls => hQ a s' _⟩

theorem wpTrace_bind {f : α → Calls Op Res β} {Q : β → σ → List (Op × Choice) → Prop} :
    wpTrace step J (m >>= f) Q s ↔ wpTrace step J m (fun a s' calls =>
      wpTrace step (fun s'' later => J s'' (calls ++ later)) (f a)
        (fun b s'' later => Q b s'' (calls ++ later)) s') s := by
  induction m generalizing s J Q with
  | ret a => exact Iff.rfl
  | call op next ih => exact and_congr_right fun _ => forall_congr' fun c => ih _

/-- The same with the record as a part of the state. -/
theorem wp_recorded_iff {I : σ × List (Op × Choice) → Prop} (m : Calls Op Res α)
    (Q : α → σ × List (Op × Choice) → Prop) (s : σ) (before : List (Op × Choice)) :
    wp (recorded step) I m Q (s, before) ↔
      wpTrace step (fun s' calls => I (s', before ++ calls)) m
        (fun a s' calls => Q a (s', before ++ calls)) s := by
  induction m generalizing s before with
  | ret a => simp only [wp, wpTrace, List.append_nil]
  | call op next ih =>
    simp only [wp, wpTrace, recorded, List.append_nil]
    refine and_congr_right fun _ => forall_congr' fun c => (ih _ _ _).trans ?_
    simp only [List.append_assoc, List.singleton_append]

/-- A recorded run that returns has made calls as `Q` says. -/
theorem of_recorded_run {Q : α → σ → List (Op × Choice) → Prop}
    (h : wpTrace step (fun _ _ => True) m Q s)
    (hrun : m.run (recorded step) choices (s, before) = (some a, (s', after))) :
    ∃ calls, after = before ++ calls ∧ Q a s' calls := by
  have hwp : wp (recorded step) (fun _ => True) m
      (fun a t => ∃ calls, t.2 = before ++ calls ∧ Q a t.1 calls) (s, before) :=
    (wp_recorded_iff _ _ _ _).mpr (wpTrace_mono h fun a s' calls hQ => ⟨calls, rfl, hQ⟩)
  exact of_run_some hwp hrun

end Trace

/-! ### Parts of a larger state -/

section Embed

variable {Op' : Type} {Res' : Op' → Type} {σ' : Type}

/-- The same program as a program of a larger set of calls. -/
def embed (inject : Op → Op') (back : (op : Op) → Res' (inject op) → Res op) :
    Calls Op Res α → Calls Op' Res' α
  | ret a => ret a
  | call op next => call (inject op) fun r => (next (back op r)).embed inject back

theorem only_embed {p : Op' → Prop} {inject : Op → Op'}
    {back : (op : Op) → Res' (inject op) → Res op}
    (hm : Only (fun op => p (inject op)) m) : Only p (m.embed inject back) := by
  induction m with
  | ret a => exact trivial
  | call op next ih => exact ⟨hm.1, fun r => ih _ (hm.2 _)⟩

/-- A larger outside whose calls `inject op` are the calls `op` on the part `get` of its state. -/
structure Part (step : (op : Op) → Choice → σ → Res op × σ)
    (step' : (op : Op') → Choice → σ' → Res' op × σ') (inject : Op → Op')
    (back : (op : Op) → Res' (inject op) → Res op) where
  get : σ' → σ
  put : σ → σ' → σ'
  get_put : ∀ s t, get (put s t) = s
  put_put : ∀ s s' t, put s (put s' t) = put s t
  put_get : ∀ t, put (get t) t = t
  reply : ∀ op c t, back op (step' (inject op) c t).1 = (step op c (get t)).1
  effect : ∀ op c t, (step' (inject op) c t).2 = put (step op c (get t)).2 t

/-- **Frame.** A program over a part of the state leaves the rest as it is. -/
theorem wp_embed {step' : (op : Op') → Choice → σ' → Res' op × σ'} {inject : Op → Op'}
    {back : (op : Op) → Res' (inject op) → Res op} (part : Part step step' inject back)
    {I' : σ' → Prop} (m : Calls Op Res α) (Q : α → σ' → Prop) (t : σ') :
    wp step' I' (m.embed inject back) Q t ↔
      wp step (fun s => I' (part.put s t)) m (fun a s => Q a (part.put s t)) (part.get t) := by
  induction m generalizing t with
  | ret a =>
    show Q a t ↔ Q a (part.put (part.get t) t)
    rw [part.put_get]
  | call op next ih =>
    refine and_congr (by simp only [part.put_get]) (forall_congr' fun c => (ih _ _).trans ?_)
    rw [part.reply, part.effect]
    simp only [part.get_put, part.put_put]

end Embed

/-! ### Programs that stop at an error -/

section Except

variable {ε : Type}

/-- A postcondition for both ways to end. -/
def either {π : Type} (ok : α → σ → π) (err : ε → σ → π) : Except ε α → σ → π
  | .ok a => ok a
  | .error e => err e

@[simp] theorem either_ok {π : Type} (ok : α → σ → π) (err : ε → σ → π) (a : α) :
    either ok err (.ok a) = ok a := rfl

@[simp] theorem wp_run_pure (a : α) (Q : Except ε α → σ → Prop) (s : σ) :
    wp step I (pure a : ExceptT ε (Calls Op Res) α).run Q s ↔ Q (.ok a) s :=
  Iff.rfl

/-- An attempt cannot stop the program. -/
theorem wp_run_lift (m : Calls Op Res α) (Q : Except ε α → σ → Prop) (s : σ) :
    wp step I (ExceptT.lift m : ExceptT ε (Calls Op Res) α).run Q s ↔
      wp step I m (fun a => Q (.ok a)) s :=
  wp_bind

variable {f : α → ExceptT ε (Calls Op Res) β}

/-- The second program runs only if the first one succeeds. -/
theorem wp_run_bind {Q : Except ε β → σ → Prop} : wp step I (m >>= f).run Q s ↔
      wp step I m.run (either (fun a => wp step I (f a).run Q) fun e => Q (.error e)) s := by
  refine wp_bind.trans ?_
  constructor <;> intro h <;> refine wp_mono h fun r s' h => ?_ <;> cases r <;> exact h

theorem wpTrace_run_bind
    {J : σ → List (Op × Choice) → Prop} {Q : Except ε β → σ → List (Op × Choice) → Prop} :
    wpTrace step J (m >>= f).run Q s ↔
      wpTrace step J m.run (either (fun a s' calls => wpTrace step
        (fun s'' later => J s'' (calls ++ later)) (f a).run
          (fun b s'' later => Q b s'' (calls ++ later)) s') fun e => Q (.error e)) s := by
  refine wpTrace_bind.trans ?_
  have herr : ∀ e s' calls, wpTrace step (fun s'' later => J s'' (calls ++ later))
      (pure (.error e) : Calls Op Res (Except ε β))
      (fun b s'' later => Q b s'' (calls ++ later)) s' ↔ Q (.error e) s' calls := by
    intro e s' calls
    rw [wpTrace_pure, List.append_nil]
  constructor <;> intro h <;> refine wpTrace_mono h fun r s' calls h => ?_
  · cases r with
    | ok a => exact h
    | error e => exact (herr e s' calls).mp h
  · cases r with
    | ok a => exact h
    | error e => exact (herr e s' calls).mpr h

end Except

end Calls

end SbGateway.Lib
