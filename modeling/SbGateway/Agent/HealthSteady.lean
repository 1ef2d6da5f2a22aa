import SbGateway.Agent.HealthTick

namespace SbGateway.Agent.Health

open Lib Prog

/-!
# What the probes of the health controller preserve

The property of interest is `Truthful`: a confirmed selection is the one Xray has.  Between two
`Select` calls Xray's choices do not change, and everything the controller does there preserves
`Truthful`: a readback may confirm a selection, an error may withdraw it, and the rest touches
only counters.

* `Steady` — Xray's choices, `Truthful` for one policy, and the absence of a pending
  interruption, as one assertion;
* `checkActiveAvailability_triple`, `routineProbe_triple`, `transitionRemovedActive_triple`,
  `qualityLoop_triple` — the probing functions preserve it;
* `select_triple` — after a `Select` it holds up to the record of the new choice (`Moved`).
-/

/-- A confirmed selection of the policy is the one Xray has. -/
def Truthful (pid : String) (st : Controller) : Prop :=
  (st.items pid).runtimeConfirmed = true → (st.items pid).runtimeSelected = st.choice pid

instance (pid : String) (st : Controller) : Decidable (Truthful pid st) :=
  inferInstanceAs (Decidable (_ → _))

/-- Xray's choices are `ch`, the policy's state is truthful and, under `quiet`, no interruption
    is pending. -/
structure Steady (pid : String) (ch : String → String) (quiet : Prop) (st : Controller) : Prop where
  choice_eq : st.choice = ch
  truthful : Truthful pid st
  calm : quiet → st.interrupted = none

/-- As `Steady`, but the state of `policyID` may lag behind a `Select` that just succeeded. -/
structure Moved (pid policyID : String) (ch : String → String) (quiet : Prop) (st : Controller) :
    Prop where
  choice_eq : st.choice = ch
  truthful : policyID ≠ pid → Truthful pid st
  calm : quiet → st.interrupted = none

variable {pid policyID : String} {ch : String → String} {quiet quiet' : Prop}
variable {st : Controller}

theorem Steady.mono (h : Steady pid ch quiet st) (hq : quiet' → quiet) : Steady pid ch quiet' st :=
  ⟨h.choice_eq, h.truthful, fun hq' => h.calm (hq hq')⟩

/-! ### Updates of a policy's state -/

/-- An update that leaves the confirmed selection alone. -/
def Keeps (f : PolicyHealth → PolicyHealth) : Prop :=
  ∀ item, (f item).runtimeConfirmed = item.runtimeConfirmed ∧
    (f item).runtimeSelected = item.runtimeSelected

theorem setItem_truthful (hf : policyID = pid → (f (st.items pid)).runtimeConfirmed = true →
      (f (st.items pid)).runtimeSelected = st.choice pid)
    (h : policyID ≠ pid → Truthful pid st) : Truthful pid (st.setItem policyID f) := by
  by_cases hp : policyID = pid
  · subst hp
    intro hconf
    simp only [Controller.setItem, Function.update_self] at hconf ⊢
    exact hf rfl hconf
  · intro hconf
    simp only [Controller.setItem, Function.update_of_ne (Ne.symm hp)] at hconf ⊢
    exact h hp hconf

theorem Steady.setItem (h : Steady pid ch quiet st)
    (hf : policyID = pid → (f (st.items pid)).runtimeConfirmed = true →
      (f (st.items pid)).runtimeSelected = ch pid) :
    Steady pid ch quiet (st.setItem policyID f) where
  choice_eq := h.choice_eq
  truthful := by
    apply setItem_truthful
    · rw [h.choice_eq]
      exact hf
    · exact fun _ => h.truthful
  calm := h.calm

/-- Counters and marks may change. -/
theorem keeps_triple (hf : Keeps f) :
    Preserves (Steady pid ch quiet) (alter (·.setItem policyID f)) E := by
  apply Triple.alter
  intro st h
  apply h.setItem
  intro _ hconf
  obtain ⟨hc, hs⟩ := hf (st.items pid)
  rw [hc] at hconf
  rw [hs, h.truthful hconf, h.choice_eq]

theorem keeps_bind {k : Unit → M α} (hf : Keeps f) (hk : Triple (Steady pid ch quiet) (k ()) Q E) :
    Triple (Steady pid ch quiet) (alter (·.setItem policyID f) >>= k) Q E :=
  Triple.bind _ (keeps_triple hf) (fun _ => hk)

/-- A confirmation may be withdrawn. -/
theorem withdraw_triple (hf : ∀ item, (f item).runtimeConfirmed = false) :
    Preserves (Steady pid ch quiet) (alter (·.setItem policyID f)) E := by
  apply Triple.alter
  intro st h
  apply h.setItem
  intro _ hconf
  simp [hf] at hconf

theorem withdraw_fail_triple
    {Q : α → Controller → Prop} (hf : ∀ item, (f item).runtimeConfirmed = false)
    (hE : ∀ st, Steady pid ch quiet st → E st) :
    Triple (Steady pid ch quiet) (do alter (·.setItem policyID f); fail e) Q E :=
  Triple.bind _ (withdraw_triple hf) (fun _ => Triple.fail hE)

/-- The node Xray has may be confirmed. -/
theorem confirm_triple
    (hf : ∀ item, (f item).runtimeSelected = node) (hnode : policyID = pid → node = ch pid) :
    Preserves (Steady pid ch quiet) (alter (·.setItem policyID f)) E := by
  apply Triple.alter
  intro st h
  apply h.setItem
  intro hp _
  rw [hf, hnode hp]

/-- Recording the selected node makes the state truthful again. -/
theorem Moved.setItem
    (h : Moved pid policyID ch quiet st) (hf : ∀ item, (f item).runtimeSelected = node)
    (hnode : policyID = pid → node = ch pid) : Steady pid ch quiet (st.setItem policyID f) where
  choice_eq := h.choice_eq
  truthful := by
    apply setItem_truthful _ h.truthful
    intro hp _
    rw [hf, hnode hp, h.choice_eq]
  calm := h.calm

/-! ### The runtime -/

theorem raise_triple (hE : ∀ st, P st → E st) : Triple P (raise e) (fun _ => P) E := by
  cases e with
  | none => exact Triple.skip
  | some e => exact Triple.fail hE

theorem nextFault_triple : Preserves (Steady pid ch quiet) nextFault E :=
  fun _ h => { h with }

/-- `Select` succeeds and moves the choice, or fails and changes nothing. -/
theorem select_triple (selector node : String) : Triple (Steady pid ch quiet) (select selector node)
      (fun _ => Moved pid selector (Function.update ch selector node) quiet)
      (Steady pid ch quiet) := by
  unfold select
  apply Triple.bind _ nextFault_triple
  intro e
  apply Triple.bind _ (raise_triple (fun _ h => h))
  intro _
  apply Triple.alter
  intro st h
  refine ⟨by simp [h.choice_eq], ?_, h.calm⟩
  intro hne hconf
  show _ = Function.update st.choice selector node pid
  rw [Function.update_of_ne (Ne.symm hne)]
  exact h.truthful hconf

/-- `Current` returns the choice. -/
theorem current_triple (selector : String) : Triple (Steady pid ch quiet) (current selector)
      (fun actual st => Steady pid ch quiet st ∧ actual = ch selector) (Steady pid ch quiet) := by
  unfold current
  apply Triple.bind _ nextFault_triple
  intro e
  apply Triple.bind _ (raise_triple (fun _ h => h))
  intro _
  exact Triple.fix (fun now h => Triple.pure (forall_eq.mpr ⟨h, by rw [h.choice_eq]⟩))

/-- Whether it returns or fails, `takeProbeInterruption` leaves none behind. -/
theorem takeProbeInterruption_triple :
    Triple (Steady pid ch quiet') takeProbeInterruption (fun _ => Steady pid ch quiet)
      (Steady pid ch quiet) := by
  unfold takeProbeInterruption
  apply Triple.bind_state
  intro now
  apply Triple.bind (fun _ => Steady pid ch quiet)
  · apply Triple.alter
    intro st h
    exact ⟨h.choice_eq, h.truthful, fun _ => rfl⟩
  · intro _
    exact raise_triple (fun _ h => h)

theorem takeProbeInterruption_truthful :
    Triple (Steady pid ch quiet') takeProbeInterruption (fun _ => Steady pid ch quiet)
      (Truthful pid) :=
  takeProbeInterruption_triple.onError (fun _ (h : Steady pid ch quiet _) => h.truthful)

theorem interrupt_triple (e : String) :
    Triple (Steady pid ch quiet) (alter (·.interrupt e)) (fun _ => Steady pid ch False) E := by
  apply Triple.alter
  intro st h
  exact ⟨h.choice_eq, h.truthful, False.elim⟩

theorem suppressForUnderlayFailure_triple (failure : ProbeFailure) (underlay : Option Underlay) :
    Preserves (Steady pid ch quiet) (suppressForUnderlayFailure policyID failure underlay) E := by
  unfold suppressForUnderlayFailure
  refine keeps_bind (fun _ => ⟨rfl, rfl⟩) ?_
  exact Triple.skip

/-! ### The fast lane and the background checks -/

theorem probeActive_triple (check : ActiveCheck) :
    Stable (Steady pid ch quiet) (probeActive check) := by
  unfold probeActive
  apply Triple.bind (fun _ => Steady pid ch False)
  · apply Triple.alter
    intro st h
    exact ⟨h.choice_eq, h.truthful, False.elim⟩
  · exact fun _ => takeProbeInterruption_triple

section Recover

-- `J` is what holds after `recover`, whether it returns or fails
variable {J : Controller → Prop} {recover : M Unit}
  (hrec : Triple (Steady pid ch quiet) recover (fun _ => J) J)
  (hJ : ∀ st, Steady pid ch quiet st → J st)

include hrec hJ

theorem countActiveFailure_triple (selected : String) (failureThreshold : ℕ) (check : ActiveCheck) :
    Triple (Steady pid ch quiet)
      (countActiveFailure recover policyID selected failureThreshold check) (fun _ => J) J := by
  have hset : ∀ n, Triple (Steady pid ch quiet)
      (alter (·.setItem policyID (PolicyHealth.setFailures selected n))) (fun _ => J) J := by
    intro n
    apply Triple.post _ (fun _ => hJ)
    exact keeps_triple (fun _ => ⟨rfl, rfl⟩)
  unfold countActiveFailure
  refine keeps_bind (fun _ => ⟨rfl, rfl⟩) ?_
  apply Triple.bind_state
  intro now
  apply Triple.bind _ (suppressForUnderlayFailure_triple _ _)
  intro suppressed
  apply Triple.bind_state
  intro later
  refine Triple.branch (hset 0) ?_
  refine Triple.branch (hset 0) ?_
  apply Triple.ite
  · intro _
    exact keeps_bind (fun _ => ⟨rfl, rfl⟩) hrec
  · exact fun _ => hset _

theorem checkConfirmedActive_triple (hselected : policyID = pid → selected = ch pid)
    (failureThreshold : ℕ) (check : ActiveCheck) : Triple (Steady pid ch quiet)
      (checkConfirmedActive recover policyID selected failureThreshold check) (fun _ => J) J := by
  unfold checkConfirmedActive
  apply Triple.bind_state
  intro before
  apply Triple.bind (fun _ => Steady pid ch quiet)
  · exact confirm_triple (fun _ => rfl) hselected
  intro _
  apply Triple.bind (fun _ => Steady pid ch quiet)
  · exact (probeActive_triple check).onError hJ
  intro _
  refine Triple.branch (Triple.fail hJ) ?_
  apply Triple.ite
  · intro _
    refine keeps_bind (fun _ => ⟨rfl, rfl⟩) ?_
    exact Triple.pure hJ
  · intro _
    apply Triple.bind _ (countActiveFailure_triple hrec hJ selected failureThreshold check)
    intro _
    exact Triple.skip

/-- The check of the active path confirms only what it read back. -/
theorem checkActiveAvailability_triple (candidates : List String) (failureThreshold : ℕ)
    (check : ActiveCheck) : Triple (Steady pid ch quiet)
      (checkActiveAvailability recover policyID candidates failureThreshold check)
      (fun _ => J) J := by
  have hrecover : Triple (Steady pid ch quiet) (do recover; return true : M Bool)
      (fun _ => J) J :=
    Triple.bind _ hrec (fun _ => Triple.skip)
  unfold checkActiveAvailability
  apply Triple.bind_state
  intro now
  refine Triple.branch hrecover ?_
  refine Triple.branch (Triple.pure hJ) ?_
  apply Triple.bind_attempt (current_triple policyID)
  · intro actual
    apply Triple.of_imp (fun _ h => h.2)
    intro hactual
    apply Triple.pre _ (fun _ h => h.1)
    apply Triple.ite
    · exact fun _ => hrecover
    · intro hselected
      apply checkConfirmedActive_triple hrec hJ
      intro hp
      rw [← not_not.mp hselected, hactual, hp]
  · exact fun e => withdraw_fail_triple (fun _ => rfl) hJ

end Recover

/-- Without recovery the check of the active path preserves the assertion. -/
theorem checkOnly_triple (candidates : List String) (failureThreshold : ℕ) (check : ActiveCheck) :
    Stable (Steady pid ch quiet)
      (checkActiveAvailability (fail errHealthYield) policyID candidates failureThreshold
        check) := by
  apply checkActiveAvailability_triple
  · exact Triple.fail (fun _ h => h)
  · exact fun _ h => h

theorem checkPolicies_triple (checks : List BackgroundCheck) :
    Stable (Steady pid ch quiet) (checkPolicies checks) := by
  induction checks with
  | nil => exact Triple.skip
  | cons c rest ih =>
    unfold checkPolicies
    apply Triple.bind_state
    intro now
    refine Triple.branch ih ?_
    apply Triple.bind _ (checkOnly_triple _ _ _).attempt_same
    intro result
    apply Triple.bind_state
    intro later
    exact Triple.branch (Triple.fail (fun _ h => h)) ih

theorem checkDuringProbe_triple (pass : BackgroundPass) :
    Stable (Steady pid ch quiet) (checkDuringProbe pass) := by
  unfold checkDuringProbe
  apply Triple.bind _ (checkPolicies_triple pass.checks)
  intro _
  apply Triple.when
  · exact fun _ => Triple.fail (fun _ h => h)
  · exact fun _ _ h => h

/-- A routine probe may leave an interruption behind, and nothing else. -/
theorem routineProbe_triple (probe : RoutineProbe) :
    Triple (Steady pid ch quiet) (routineProbe probe) (fun _ => Steady pid ch False) E := by
  unfold routineProbe
  apply Triple.bind (fun _ => Steady pid ch quiet)
  · apply Triple.attempt_same
    apply Triple.bind (fun _ => Steady pid ch quiet)
    · apply Triple.forEach (fun _ => Steady pid ch quiet)
      exact fun _ pass _ _ => checkDuringProbe_triple pass
    · exact fun _ => raise_triple (fun _ h => h)
  · intro result
    cases result with
    | error e => exact interrupt_triple e
    | ok _ => exact Triple.pure (fun _ h => h.mono False.elim)

/-! ### Replacing a removed node -/

theorem acceptReplacement_triple (probes : List ReplacementProbe) :
    Preserves (Steady pid ch quiet) (acceptReplacement policyID probes) E := by
  induction probes with
  | nil => exact Triple.skip
  | cons p rest ih =>
    unfold acceptReplacement
    exact Triple.branch Triple.skip (keeps_bind (fun _ => ⟨rfl, rfl⟩) ih)

theorem probeReplacements_triple (probes : List ReplacementProbe) :
    Preserves (Steady pid ch quiet) (probeReplacements policyID probes) (Truthful pid) := by
  induction probes with
  | nil => exact Triple.skip
  | cons p rest ih =>
    unfold probeReplacements
    apply Triple.ite
    · intro _
      apply Triple.bind _ (interrupt_triple errHealthYield)
      exact fun _ => Triple.fail (fun _ h => h.truthful)
    · intro _
      refine Triple.branch (Triple.fail (fun _ h => h.truthful)) ?_
      exact Triple.branch Triple.skip (keeps_bind (fun _ => ⟨rfl, rfl⟩) ih)

theorem replacementBatch_triple (input : TransitionInput) :
    Triple (Steady pid ch quiet) (replacementBatch policyID input)
      (fun _ => Steady pid ch False) (Truthful pid) := by
  unfold replacementBatch
  split
  · apply Triple.bind _ (acceptReplacement_triple input.probes)
    intro chosen
    apply Triple.bind _ (routineProbe_triple _)
    exact fun _ => Triple.skip
  · exact (probeReplacements_triple input.probes).post (fun _ _ h => h.mono False.elim)

theorem preflightReplacements_triple (preflight : Option Bool) :
    Preserves (Steady pid ch quiet) (preflightReplacements preflight) (Truthful pid) := by
  cases preflight with
  | none => exact Triple.skip
  | some interrupted =>
    apply Triple.bind (fun _ => Steady pid ch False)
    · apply Triple.when
      · exact fun _ => interrupt_triple errHealthYield
      · exact fun _ _ h => h.mono False.elim
    · exact fun _ => takeProbeInterruption_truthful

theorem findReplacement_triple (input : TransitionInput) :
    Preserves (Steady pid ch quiet) (findReplacement policyID input) (Truthful pid) := by
  unfold findReplacement
  apply Triple.bind _ (preflightReplacements_triple input.preflight)
  intro _
  apply Triple.bind _ (replacementBatch_triple input)
  intro chosen
  apply Triple.bind _ takeProbeInterruption_truthful
  exact fun _ => Triple.skip

/-- Looking for a replacement selects nothing. -/
theorem transitionRemovedActive_triple (actual : String) (contract : Contract)
    (input : TransitionInput) :
    Preserves (Steady pid ch quiet) (transitionRemovedActive policyID actual contract input)
      (Truthful pid) := by
  unfold transitionRemovedActive
  apply Triple.bind_state
  intro now
  refine Triple.branch Triple.skip ?_
  refine Triple.branch Triple.skip ?_
  apply Triple.bind _ (checkOnly_triple _ _ _).attempt_same
  intro checked
  cases checked with
  | error e =>
    apply Triple.bind_state
    intro later
    exact Triple.branch Triple.skip (Triple.fail (fun _ h => h.truthful))
  | ok changed => exact findReplacement_triple input

/-! ### Regular probes -/

/-- The loop over the regular targets selects nothing.  It only confirms an outage after a failed
    probe, whose interruption would have ended the tick. -/
theorem qualityLoop_triple (selected : String) (failureThreshold : ℕ) (warm : Bool)
    (probes : List QualityProbe) :
    Triple (Steady pid ch quiet) (qualityLoop policyID selected failureThreshold warm probes)
      (fun confirmed st => Steady pid ch (confirmed = true) st ∧
        (confirmed = true → ∃ q ∈ probes, q.evidence.ok = false)) (Truthful pid) := by
  induction probes generalizing quiet with
  | nil => exact Triple.pure (fun _ h => ⟨h.mono nofun, nofun⟩)
  | cons q rest ih =>
    have hrest : Triple (Steady pid ch True)
        (qualityLoop policyID selected failureThreshold warm rest) (fun confirmed st =>
          Steady pid ch (confirmed = true) st ∧
            (confirmed = true → ∃ p ∈ q :: rest, p.evidence.ok = false)) (Truthful pid) := by
      refine ih.post fun _ _ h => ⟨h.1, fun hconfirmed => ?_⟩
      obtain ⟨p, hp, hfailed⟩ := h.2 hconfirmed
      exact ⟨p, List.mem_cons_of_mem _ hp, hfailed⟩
    unfold qualityLoop
    apply Triple.bind _ (routineProbe_triple q.probe)
    intro _
    apply Triple.bind _ takeProbeInterruption_truthful
    intro _
    refine Triple.branch hrest ?_
    refine Triple.branch (Triple.fail (fun _ h => h.truthful)) ?_
    apply Triple.ite
    · intro hfailed
      refine keeps_bind (fun _ => ⟨rfl, rfl⟩) ?_
      apply Triple.bind_state
      intro now
      apply Triple.bind _ (suppressForUnderlayFailure_triple _ _)
      intro suppressed
      apply Triple.bind_state
      intro later
      refine Triple.branch (keeps_bind (fun _ => ⟨rfl, rfl⟩) hrest) ?_
      apply Triple.ite
      · intro _
        refine keeps_bind (fun _ => ⟨rfl, rfl⟩) ?_
        exact Triple.pure (fun _ h => ⟨h.mono fun _ => trivial, fun _ =>
          ⟨q, List.mem_cons_self, hfailed.2⟩⟩)
      · exact fun _ => hrest
    · exact fun _ => hrest

theorem surveyBatch_triple (survey : Option RoutineProbe) :
    Preserves (Steady pid ch quiet) (surveyBatch survey) (Truthful pid) := by
  cases survey with
  | none => exact Triple.skip
  | some probe =>
    apply Triple.bind _ (routineProbe_triple probe)
    exact fun _ => takeProbeInterruption_truthful

/-- The outage decision selects nothing. -/
theorem checkOutage_triple (selected : String) (input : TickInput) :
    Preserves (Steady pid ch quiet) (checkOutage policyID selected input) E := by
  have hset : ∀ c : OutageCheck, Preserves (Steady pid ch quiet)
      (do alter (·.setItem policyID (PolicyHealth.setFailures selected 0)); return c :
        M OutageCheck)
      E := by
    intro c
    refine keeps_bind (fun _ => ⟨rfl, rfl⟩) ?_
    exact Triple.skip
  unfold checkOutage
  apply Triple.bind_state
  intro now
  refine Triple.branch Triple.skip ?_
  refine Triple.branch Triple.skip ?_
  apply Triple.bind _ (suppressForUnderlayFailure_triple _ _)
  intro suppressed
  refine Triple.branch (hset _) ?_
  exact Triple.branch (hset _) Triple.skip

end SbGateway.Agent.Health
