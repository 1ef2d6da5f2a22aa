import SbGateway.Agent.HealthSteady

namespace SbGateway.Agent.Health

open Lib Prog

/-!
# Confirmed selections are the ones Xray has

After every turn of `Tick` a policy whose selection is confirmed records the choice Xray has,
with one exception: an emergency batch selects a reserve, the generation is replaced before the
batch has ended, and the interruption makes `tickPolicy` return before the new selection is
recorded.  `Tick` takes the interruption for a yield and keeps the confirmation of the old node.

* `failOver_triple` — an emergency batch that is not interrupted after its `Select`;
* `tickPolicy_triple` — a whole tick, with every error exit;
* `stale_confirmation` — the exception on a concrete run;
* `run_confirmed` — every run without it.
-/

/-- The policy's state is truthful, its selector points at `node` and, under `quiet`, no
    interruption is pending. -/
structure At (pid policyID node : String) (quiet : Prop) (st : Controller) : Prop where
  truthful : Truthful pid st
  calm : quiet → st.interrupted = none
  here : policyID = pid → st.choice pid = node

variable {pid policyID node : String} {ch : String → String} {quiet : Prop}

theorem Steady.at (h : Steady pid ch quiet st) (hnode : policyID = pid → ch pid = node) :
    At pid policyID node quiet st :=
  ⟨h.truthful, h.calm, fun hp => by rw [h.choice_eq, hnode hp]⟩

theorem At.mono (h : At pid policyID node quiet st) (hq : quiet' → quiet) :
    At pid policyID node quiet' st :=
  ⟨h.truthful, fun hq' => h.calm (hq hq'), h.here⟩

/-- To work from `At`, fix Xray's choices. -/
theorem at_triple {m : M α} (h : ∀ ch : String → String, (policyID = pid → ch pid = node) →
      Triple (Steady pid ch quiet) m Q E) : Triple (At pid policyID node quiet) m Q E :=
  fun s hs => h s.choice hs.here s ⟨rfl, hs.truthful, hs.calm⟩

/-- What leaves Xray's choices alone leaves the selector where it is. -/
theorem at_triple_of_steady {m : M α} (h : ∀ ch : String → String,
      Preserves (Steady pid ch quiet) m (Truthful pid)) :
    Preserves (At pid policyID node quiet) m (Truthful pid) := by
  apply at_triple
  intro ch hnode
  exact (h ch).post (fun _ _ hs => hs.at hnode)

/-- A selector that was moved and recorded is there. -/
theorem Moved.confirm (h : Moved pid policyID (Function.update ch policyID node) quiet st) :
    At pid policyID node quiet (st.setItem policyID (PolicyHealth.confirm node)) := by
  have hnode : policyID = pid → Function.update ch policyID node pid = node := by
    rintro rfl
    exact Function.update_self ..
  exact (h.setItem (fun _ => rfl) (fun hp => (hnode hp).symm)).at hnode

theorem selectAndConfirm_triple (node : String) :
    Triple (Steady pid ch quiet) (selectAndConfirm policyID node)
      (fun _ => At pid policyID node quiet) (Truthful pid) := by
  unfold selectAndConfirm
  apply Triple.bind (fun _ => Moved pid policyID (Function.update ch policyID node) quiet)
  · exact (select_triple policyID node).onError (fun _ h => h.truthful)
  · intro _
    exact Triple.alter (fun _ h => h.confirm)

/-! ### Emergency batches -/

/-- The event is the result of an available candidate. -/
def BatchEvent.ok : BatchEvent → Bool
  | .result _ evidence => evidence.ok
  | _ => false

/-- Some candidate of the batch is available. -/
def EmergencyBatch.offers (b : EmergencyBatch) : Bool := b.events.any BatchEvent.ok

/-- A batch that selects a candidate is not interrupted afterwards, by a replaced generation or
    by a preflight whose interruption was not noticed at its start; `quiet` says that there was
    no interruption before. -/
def EmergencyBatch.Undisturbed (b : EmergencyBatch) (quiet : Prop) : Prop :=
  b.offers = true →
    quiet ∧ b.changedAfterSelect = false ∧ (b.preflightInterrupted = true → b.stale = true)

theorem accept_triple (candidate : String) (p : Progress) :
    Triple (Steady pid ch quiet) (accept policyID candidate p)
      (fun r st => (r.1 = false ∧ Steady pid ch quiet st) ∨
        (r = (true, none) ∧ candidate ≠ "" ∧ p.ok candidate = true ∧
          Moved pid policyID (Function.update ch policyID candidate) quiet st)) E := by
  unfold accept
  apply Triple.ite
  · exact fun _ => Triple.pure (fun _ h => .inl ⟨rfl, h⟩)
  · intro hoffer
    simp only [not_or, Bool.not_eq_false] at hoffer
    apply Triple.bind_attempt (select_triple policyID candidate)
    · exact fun _ => Triple.pure (fun _ h => .inr ⟨rfl, hoffer.1, hoffer.2.2, h⟩)
    · exact fun _ => Triple.pure (fun _ h => .inl ⟨rfl, h⟩)

/-- A published candidate is selected, and for the policy of interest nothing interrupts it. -/
theorem publish_triple
    (hb : policyID = pid → b.offers = true → quiet ∧ b.changedAfterSelect = false)
    (hp : p.ok candidate = true → b.offers = true) :
    Triple (Steady pid ch quiet) (publish policyID b candidate p)
      (fun r st => (r.1 = false ∧ Steady pid ch quiet st) ∨
        (r.1 = true ∧ candidate ≠ "" ∧
          Moved pid policyID (Function.update ch policyID candidate) (policyID = pid) st)) E := by
  unfold publish
  apply Triple.bind _ (accept_triple candidate p)
  intro accepted
  apply Triple.bind (fun _ st => (accepted.1 = false ∧ Steady pid ch quiet st) ∨
    (accepted.1 = true ∧ candidate ≠ "" ∧
      Moved pid policyID (Function.update ch policyID candidate) (policyID = pid) st))
  · apply Triple.when
    · intro hc
      apply Triple.alter
      rintro st (⟨hno, _⟩ | ⟨hyes, hne, hok, h⟩)
      · rw [hc.1] at hno
        cases hno
      · refine .inr ⟨hc.1, hne, h.choice_eq, h.truthful, fun heq => ?_⟩
        -- the generation is not replaced after a `Select` of this policy
        have := (hb heq (hp hok)).2
        rw [hc.2] at this
        cases this
    · rintro hc st (⟨hno, h⟩ | ⟨hyes, hne, hok, h⟩)
      · exact .inl ⟨hno, h⟩
      · refine .inr ⟨by rw [hyes], hne, h.choice_eq, h.truthful, fun heq => ?_⟩
        exact h.calm (hb heq (hp hok)).1
  · exact fun _ => Triple.pure (fun _ h => h)

/-- The outcome of a batch: nothing selected, or a selected candidate without an error. -/
def BatchOutcome (pid policyID : String) (ch : String → String) (r : String × Option String)
    (st : Controller) : Prop :=
  (r.1 = "" ∧ Steady pid ch False st) ∨
    (r.1 ≠ "" ∧ r.2 = none ∧
      Moved pid policyID (Function.update ch policyID r.1) (policyID = pid) st)

theorem endBatch_triple (interruption : Option String) (p : Progress) :
    Triple (Steady pid ch quiet) (endBatch interruption p) (BatchOutcome pid policyID ch) E := by
  unfold endBatch
  apply Triple.bind (fun _ => Steady pid ch False)
  · apply Triple.alter
    intro st h
    exact ⟨h.choice_eq, h.truthful, False.elim⟩
  · exact fun _ => Triple.pure (fun _ h => .inl ⟨rfl, h⟩)

theorem ok_of_mem_measured {p : Progress} (h : p.ok c = true) :
    ∃ e, (c, e) ∈ p.measured ∧ e.ok = true := by
  unfold Progress.ok at h
  cases hl : p.measured.lookup c with
  | none => simp [hl] at h
  | some e =>
    refine ⟨e, ?_, by simpa [hl] using h⟩
    obtain ⟨l₁, l₂, heq, _⟩ := List.lookup_eq_some_iff.mp hl
    simp [heq]

theorem batchLoop_triple
    (hb : policyID = pid → b.offers = true → quiet ∧ b.changedAfterSelect = false)
    (events : List BatchEvent) (hevents : ∀ e ∈ events, e ∈ b.events) (p : Progress)
    (hp : ∀ c e, (c, e) ∈ p.measured → e.ok = true → b.offers = true) :
    Triple (Steady pid ch quiet) (batchLoop policyID b events p) (BatchOutcome pid policyID ch)
      E := by
  have hoffers : ∀ p : Progress, (∀ c e, (c, e) ∈ p.measured → e.ok = true → b.offers = true) →
      ∀ c, p.ok c = true → b.offers = true := by
    intro p hp c hc
    obtain ⟨e, hmem, hok⟩ := ok_of_mem_measured hc
    exact hp c e hmem hok
  -- a publication ends the loop, otherwise it goes on from the same assertion
  have hstep : ∀ (candidate : String) (p : Progress)
    (k : Option String → M (String × Option String)),
      (∀ c, p.ok c = true → b.offers = true) →
      (∀ selectErr, Triple (Steady pid ch quiet) (k selectErr) (BatchOutcome pid policyID ch) E) →
      Triple (Steady pid ch quiet) (do
        let published ← publish policyID b candidate p
        if published.1 then return (candidate, none) else k published.2)
        (BatchOutcome pid policyID ch) E := by
    intro candidate p k hp hk
    apply Triple.bind _ (publish_triple hb (hp candidate))
    intro published
    apply Triple.ite
    · intro hyes
      apply Triple.pure
      rintro st (⟨hno, _⟩ | ⟨_, hne, h⟩)
      · rw [hyes] at hno
        cases hno
      · exact .inr ⟨hne, rfl, h⟩
    · intro hno
      apply (hk published.2).pre
      rintro st (⟨_, h⟩ | ⟨hyes, _⟩)
      · exact h
      · exact absurd hyes hno
  induction events generalizing p with
  | nil => exact endBatch_triple _ p
  | cons event rest ih =>
    have hrest : ∀ e ∈ rest, e ∈ b.events := fun e he => hevents e (List.mem_cons_of_mem _ he)
    cases event with
    | changed => exact endBatch_triple _ p
    | deadline =>
      apply hstep _ _ (fun selectErr => batchLoop policyID b rest _) (hoffers _ hp)
      exact fun _ => ih hrest _ hp
    | result measured evidence =>
      unfold batchLoop
      refine Triple.branch (endBatch_triple _ p) ?_
      have hp' : ∀ c e, (c, e) ∈ (p.record measured evidence).measured → e.ok = true →
          b.offers = true := by
        intro c e hmem hok
        rcases List.mem_cons.mp hmem with heq | hmem
        · cases heq
          exact List.any_eq_true.mpr ⟨_, hevents _ (List.mem_cons_self ..), hok⟩
        · exact hp c e hmem hok
      apply hstep _ _ (fun selectErr => batchLoop policyID b rest _) (hoffers _ hp')
      exact fun _ => ih hrest _ hp'

theorem emergencyBatch_triple (hb : policyID = pid → b.offers = true → b.stale = false →
      quiet ∧ b.changedAfterSelect = false) :
    Triple (Steady pid ch quiet) (emergencyBatch policyID b) (BatchOutcome pid policyID ch)
      E := by
  unfold emergencyBatch
  refine Triple.branch (Triple.pure (fun _ h => .inl ⟨rfl, h.mono False.elim⟩)) ?_
  apply Triple.ite
  · exact fun _ => endBatch_triple _ _
  · intro hstale
    apply batchLoop_triple (fun hp hoffers => hb hp hoffers (by simpa using hstale)) _
      (fun _ h => h)
    intro c e hmem
    cases hmem

/-- The interruption of a batch: where it is reported after a `Select`, the policy of interest
    is not the one that selected. -/
theorem takeAfterBatch_triple (chosen : String × Option String) :
    Preserves (BatchOutcome pid policyID ch chosen) takeProbeInterruption (Truthful pid) := by
  intro st h
  rcases h with ⟨hnone, h⟩ | ⟨hne, hnoerr, h⟩
  · have htake : Preserves (Steady pid ch False) takeProbeInterruption
        (Truthful pid) := takeProbeInterruption_truthful
    have := htake st h
    revert this
    rcases takeProbeInterruption st with ⟨e | _, st'⟩
    · exact fun h => h
    · exact fun h => .inl ⟨hnone, h⟩
  · by_cases hp : policyID = pid
    · -- nothing is pending, so the call returns
      have hcalm := h.calm hp
      have hrun : takeProbeInterruption st = (.ok (), { st with interrupted := none }) := by
        show raise st.interrupted { st with interrupted := none } = _
        rw [hcalm]
        rfl
      rw [hrun]
      exact .inr ⟨hne, hnoerr, h.choice_eq, h.truthful, fun _ => rfl⟩
    · have htake : Triple (Steady pid (Function.update ch policyID chosen.1) False)
          takeProbeInterruption (fun _ => Steady pid (Function.update ch policyID chosen.1) True)
          (Truthful pid) := takeProbeInterruption_truthful
      have := htake st ⟨h.choice_eq, h.truthful hp, False.elim⟩
      revert this
      rcases takeProbeInterruption st with ⟨e | _, st'⟩
      · exact fun h => h
      · exact fun h => .inr ⟨hne, hnoerr, h.choice_eq, fun _ => h.truthful, fun _ => h.calm trivial⟩

/-- **An undisturbed emergency batch** that selects a candidate returns it. -/
theorem probeEmergencyCandidates_triple (hb : policyID = pid → b.Undisturbed quiet) :
    Triple (Steady pid ch quiet) (probeEmergencyCandidates policyID b)
      (fun chosen => BatchOutcome pid policyID ch (chosen, none)) (Truthful pid) := by
  unfold probeEmergencyCandidates
  apply Triple.bind (fun _ => Steady pid ch (quiet ∧ b.preflightInterrupted = false))
  · apply Triple.when
    · intro hpre
      apply (interrupt_triple errHealthYield).post
      intro _ _ h
      apply h.mono
      rintro ⟨_, hno⟩
      rw [hpre] at hno
      cases hno
    · exact fun _ _ h => h.mono And.left
  intro _
  apply Triple.bind _ (emergencyBatch_triple ?_)
  · intro chosen
    apply Triple.bind _ (takeAfterBatch_triple chosen)
    intro _
    apply Triple.bind (fun _ => BatchOutcome pid policyID ch (chosen.1, none))
    · cases herr : chosen.2 with
      | none =>
        apply Triple.pure
        rintro st (h | ⟨hne, _, h⟩)
        · exact .inl h
        · exact .inr ⟨hne, rfl, h⟩
      | some e =>
        apply Triple.fail
        rintro st (⟨_, h⟩ | ⟨_, hnoerr, _⟩)
        · exact h.truthful
        · rw [herr] at hnoerr
          cases hnoerr
    · exact fun _ => Triple.pure (fun _ h => h)
  · intro hp hoffers hstale
    obtain ⟨hquiet, hchanged, hpre⟩ := hb hp hoffers
    refine ⟨⟨hquiet, ?_⟩, hchanged⟩
    cases hpi : b.preflightInterrupted with
    | false => rfl
    | true =>
      rw [hpre hpi] at hstale
      cases hstale

/-- A failover records what the batch selected. -/
theorem failOver_triple
    (hb : policyID = pid → b.Undisturbed quiet) (hselected : policyID = pid → ch pid = selected) :
    Triple (Steady pid ch quiet) (failOver policyID selected b)
      (fun r => At pid policyID r.1 False) (Truthful pid) := by
  unfold failOver
  apply Triple.bind _ (probeEmergencyCandidates_triple hb)
  intro chosen
  apply Triple.ite
  · intro hne
    apply Triple.bind (fun _ => At pid policyID chosen False)
    · apply Triple.alter
      rintro st (⟨hnone, _⟩ | ⟨_, _, h⟩)
      · exact absurd hnone hne
      · exact h.confirm.mono False.elim
    · exact fun _ => Triple.pure (fun _ h => h)
  · intro hempty
    apply Triple.pure
    rintro st (⟨_, h⟩ | ⟨hne, _⟩)
    · exact h.at hselected
    · exact absurd hne hempty

/-! ### The tick -/

theorem replaceActive_triple (actual : String) (replacement : Option String) :
    Triple (Steady pid ch quiet) (replaceActive policyID actual replacement)
      (fun r => At pid policyID r.actual quiet) (Truthful pid) := by
  cases replacement with
  | none => exact Triple.fail (fun _ h => h.truthful)
  | some replacement =>
    apply Triple.bind_attempt (select_triple policyID replacement)
    · intro _
      apply Triple.bind (fun _ => At pid policyID replacement quiet)
      · exact Triple.alter (fun _ h => h.confirm)
      · exact fun _ => Triple.pure (fun _ h => h)
    · exact fun e => withdraw_fail_triple (fun _ => rfl) (fun _ h => h.truthful)

theorem adoptActual_triple (hactual : policyID = pid → ch pid = actual)
    (candidates : List String) (input : TickInput) :
    Triple (Steady pid ch quiet) (adoptActual policyID actual candidates input)
      (fun r => At pid policyID r.actual quiet) (Truthful pid) := by
  unfold adoptActual
  apply Triple.bind_state
  intro now
  apply Triple.ite
  · intro _
    apply Triple.ite
    · intro _
      apply Triple.bind _ (transitionRemovedActive_triple _ _ _)
      intro replacement
      exact replaceActive_triple actual replacement
    · intro _
      apply Triple.bind (fun _ => Steady pid ch quiet)
      · exact confirm_triple (fun _ => rfl) (fun hp => (hactual hp).symm)
      · exact fun _ => Triple.pure (fun _ h => h.at hactual)
  · intro hempty
    apply Triple.bind (fun _ => Steady pid ch quiet)
    · exact withdraw_triple (fun _ => rfl)
    · rw [not_not.mp hempty] at hactual
      exact fun _ => Triple.pure (fun _ h => h.at hactual)

/-- The readback establishes where the selector points. -/
theorem reconcileActive_triple (candidates : List String) (input : TickInput) :
    Triple (Steady pid ch quiet) (reconcileActive policyID candidates input)
      (fun r => At pid policyID r.actual quiet) (Truthful pid) := by
  unfold reconcileActive
  apply Triple.bind_attempt (current_triple policyID)
  · intro actual
    apply Triple.of_imp (fun _ h => h.2)
    intro hactual
    apply Triple.pre _ (fun _ h => h.1)
    apply adoptActual_triple
    rintro rfl
    exact hactual.symm
  · exact fun e => withdraw_fail_triple (fun _ => rfl) (fun _ h => h.truthful)

theorem restoreSelection_triple (selected actual : String) :
    Triple (At pid policyID actual quiet) (restoreSelection policyID selected actual)
      (fun _ => At pid policyID selected quiet) (Truthful pid) := by
  unfold restoreSelection
  apply Triple.bind_state
  intro now
  apply Triple.bind (fun _ => At pid policyID selected quiet)
  · apply Triple.when
    · exact fun _ => at_triple (fun _ _ => selectAndConfirm_triple selected)
    · intro hskip st h
      simp only [not_or, not_not] at hskip
      rw [hskip.2.2]
      exact h
  · intro _
    apply at_triple_of_steady
    exact fun _ => keeps_triple (fun _ => ⟨rfl, rfl⟩)

/-- The probes of a tick move the selector only through a recorded failover. -/
theorem probePhase_triple (hemergency : policyID = pid → input.emergency.Undisturbed quiet)
    (hreserves : policyID = pid → (∃ q ∈ input.quality, q.evidence.ok = false) →
      input.reserves.Undisturbed True) :
    Triple (At pid policyID selected quiet) (probePhase policyID selected warm outage input)
      (fun r => At pid policyID r.1 False) (Truthful pid) := by
  apply at_triple
  intro ch hselected
  unfold probePhase
  refine Triple.branch (failOver_triple hemergency hselected) ?_
  apply Triple.bind _ (surveyBatch_triple input.survey)
  intro _
  apply Triple.bind _ (qualityLoop_triple _ _ _ _)
  intro confirmed
  apply Triple.ite
  · intro hconfirmed
    apply Triple.of_imp (fun _ h => h.2 hconfirmed)
    intro hfailed
    apply (failOver_triple (fun hp => hreserves hp hfailed) hselected).pre
    exact fun _ h => h.1.mono fun _ => hconfirmed
  · exact fun _ => Triple.pure fun _ h => (h.1.mono False.elim).at hselected

theorem retainTimedOutSelection_triple (selected : String) (candidates : List String)
    (input : TickInput) : Preserves (At pid policyID node quiet)
      (retainTimedOutSelection policyID selected candidates input) (Truthful pid) := by
  unfold retainTimedOutSelection
  apply Triple.bind_state
  intro now
  refine Triple.branch Triple.skip (Triple.branch Triple.skip (Triple.branch ?_ Triple.skip))
  split
  · exact Triple.skip
  · exact Triple.fail (fun _ h => h.truthful)

/-- The decision itself moves nothing. -/
theorem finalSelection_triple (selected : String) (switched replaced : Bool)
    (candidates : List String) (input : TickInput) : Preserves (At pid policyID node quiet)
      (finalSelection policyID selected switched replaced candidates input) (Truthful pid) := by
  unfold finalSelection
  apply Triple.bind (fun _ => At pid policyID node quiet)
  · unfold desiredOrRetained
    refine Triple.branch ?_ Triple.skip
    apply Triple.bind _ (retainTimedOutSelection_triple _ _ _)
    exact fun _ => Triple.skip
  · intro desired
    apply Triple.bind_state
    intro now
    exact Triple.skip

/-- The service selectors are other selectors than the policy's. -/
theorem selectServices_triple (desired : String) (hservices : contract.mode = "priority" →
      ∀ s ∈ contract.candidateServiceIDs, serviceSelectorTag sha policyID s ≠ pid) :
    Preserves (At pid policyID node quiet) (selectServices sha policyID desired contract)
      (Truthful pid) := by
  unfold selectServices
  apply Triple.when
  · intro hmode
    apply Triple.forEach (fun _ => At pid policyID node quiet)
    intro done s rest hl
    have hne := hservices hmode s (by rw [hl]; simp)
    apply at_triple
    intro ch hnode
    refine (select_triple _ _).weaken (fun _ h => h) ?_ (fun _ h => h.truthful)
    intro _ st h
    refine ⟨h.truthful hne, h.calm, fun hp => ?_⟩
    rw [h.choice_eq, Function.update_of_ne (Ne.symm hne), hnode hp]
  · exact fun _ _ h => h

theorem finishTick_triple (switched replaced : Bool) (candidates : List String)
    (hservices : input.contract.mode = "priority" →
      ∀ s ∈ input.contract.candidateServiceIDs, serviceSelectorTag sha policyID s ≠ pid) :
    Triple (At pid policyID selected quiet)
      (finishTick sha policyID selected switched replaced candidates input)
      (fun _ => Truthful pid) (Truthful pid) := by
  unfold finishTick
  apply Triple.bind (fun _ => At pid policyID selected quiet)
  · exact Triple.alter (fun _ h => { h with })
  intro _
  apply Triple.bind (fun _ => At pid policyID selected quiet)
  · apply at_triple_of_steady
    exact fun _ => keeps_triple (fun _ => ⟨rfl, rfl⟩)
  intro _
  apply Triple.bind _ (finalSelection_triple _ _ _ _ _)
  intro desired
  apply Triple.bind _ (selectServices_triple desired hservices)
  intro _
  apply at_triple
  intro ch hnode
  -- the record of the decision closes the gap a `Select` leaves
  apply Triple.bind (fun _ st => ∃ ch', Moved pid policyID ch' quiet st ∧
    (policyID = pid → desired = ch' pid))
  · apply Triple.when
    · intro _
      refine (select_triple policyID desired).weaken (fun _ h => h) ?_ (fun _ h => h.truthful)
      intro _ st h
      refine ⟨_, h, ?_⟩
      rintro rfl
      simp
    · intro hsame st h
      rw [not_not.mp hsame]
      exact ⟨ch, ⟨h.choice_eq, fun _ => h.truthful, h.calm⟩, fun hp => (hnode hp).symm⟩
  · intro _
    apply Triple.alter
    rintro st ⟨ch', h, hdesired⟩
    exact (h.setItem (fun _ => rfl) hdesired).truthful

/-- **A tick leaves a truthful state**, whether it returns or fails, if its emergency batches are
    undisturbed and its service selectors are not the policy's. -/
theorem tickPolicy_triple (hemergency : policyID = pid → input.emergency.Undisturbed quiet)
    (hreserves : policyID = pid → (∃ q ∈ input.quality, q.evidence.ok = false) →
      input.reserves.Undisturbed True)
    (hservices : input.contract.mode = "priority" →
      ∀ s ∈ input.contract.candidateServiceIDs, serviceSelectorTag sha policyID s ≠ pid) :
    Triple (Steady pid ch quiet) (tickPolicy sha policyID input)
      (fun _ => Truthful pid) (Truthful pid) := by
  unfold tickPolicy
  apply Triple.bind_state
  intro now
  refine Triple.branch (Triple.pure (fun _ h => h.truthful)) ?_
  apply Triple.bind _ (reconcileActive_triple _ _)
  intro r
  apply Triple.bind_state
  intro later
  apply Triple.bind _ (restoreSelection_triple _ _)
  intro _
  apply Triple.bind _ (raise_triple (fun _ h => h.truthful))
  intro _
  unfold probeAndDecide
  apply Triple.bind (fun _ => At pid policyID _ quiet)
  · apply at_triple_of_steady
    exact fun _ => checkOutage_triple _ _
  intro checked
  refine Triple.branch (Triple.pure (fun _ h => h.truthful)) ?_
  apply Triple.bind _ (probePhase_triple hemergency hreserves)
  intro probed
  exact finishTick_triple _ _ _ hservices

/-! ### Runs -/

/-- The turn does not hide a `Select` from the policy's state.  Where the batch of an outage has
    an available candidate, no interruption is pending from an earlier turn, and the generation
    is not replaced between the `Select` and the end of the batch; likewise for the batch of the
    reserves, which only runs after a failed probe and has no earlier interruption.  And no
    service selector the turn moves has the policy's id as its tag. -/
structure Clean (sha : String → String) (pid : String) (turn : Turn) (st : Controller) : Prop where
  emergency : turn.policyID = pid → turn.input.emergency.Undisturbed (st.interrupted = none)
  reserves : turn.policyID = pid → (∃ q ∈ turn.input.quality, q.evidence.ok = false) →
    turn.input.reserves.Undisturbed True
  services : turn.input.contract.mode = "priority" →
    ∀ s ∈ turn.input.contract.candidateServiceIDs, serviceSelectorTag sha turn.policyID s ≠ pid

/-- Every turn of the run is clean in the state it meets. -/
def CleanRun (sha : String → String) (pid : String) : List Turn → Controller → Prop
  | [], _ => True
  | turn :: rest, st => Clean sha pid turn st ∧ CleanRun sha pid rest (step sha st turn)

/-- One turn, with the error handling of `Tick`. -/
theorem step_truthful (hclean : Clean sha pid turn st) (h : Truthful pid st) :
    Truthful pid (step sha st turn) := by
  have htick : ∀ ch, Triple (Steady pid ch (st.interrupted = none))
      (tickPolicy sha turn.policyID turn.input) (fun _ => Truthful pid) (Truthful pid) :=
    fun _ => tickPolicy_triple hclean.emergency hclean.reserves hclean.services
  have hbody : Triple (Steady pid st.choice (st.interrupted = none))
      (turnBody sha turn turn.lane) (fun _ => Truthful pid) (Truthful pid) := by
    unfold turnBody
    split
    · exact htick st.choice
    · apply Triple.bind _ (checkActiveAvailability_triple (htick st.choice)
        (fun _ h => h.truthful) _ _ _)
      exact fun _ => Triple.skip
  have hturn : Triple (Steady pid st.choice (st.interrupted = none)) (tick sha turn)
      (fun _ => Truthful pid) (Truthful pid) := by
    unfold tick
    apply Triple.bind_attempt hbody
    · exact fun _ => Triple.skip
    · intro e
      refine Triple.branch Triple.skip ?_
      apply Triple.alter
      intro st h
      exact setItem_truthful (fun _ hconf => by cases hconf) (fun _ => h)
  exact hturn.exec ⟨rfl, h, fun hq => hq⟩

theorem cleanRun_append : CleanRun sha pid (turns ++ rest) st ↔
      CleanRun sha pid turns st ∧ CleanRun sha pid rest (run sha st turns) := by
  induction turns generalizing st with
  | nil => simp [CleanRun, run]
  | cons turn turns ih =>
    show Clean sha pid turn st ∧ CleanRun sha pid (turns ++ rest) (step sha st turn) ↔ _
    rw [ih]
    show _ ↔ (Clean sha pid turn st ∧ CleanRun sha pid turns (step sha st turn)) ∧ _
    rw [and_assoc]
    rfl

theorem run_truthful (turns : List Turn) (hclean : CleanRun sha pid turns st)
    (h : Truthful pid st) : Truthful pid (run sha st turns) := by
  induction turns generalizing st with
  | nil => exact h
  | cons turn turns ih => exact ih hclean.2 (step_truthful hclean.1 h)

/-- **Confirmed selections are the ones Xray has**, after every turn of a run whose turns are
    clean. -/
theorem run_confirmed (sha : String → String) (pid : String) (st : Controller)
    (turns : List Turn) (hclean : CleanRun sha pid turns st) (h : Truthful pid st) (k : ℕ) :
    Truthful pid (run sha st (turns.take k)) := by
  rw [← List.take_append_drop k turns, cleanRun_append] at hclean
  exact run_truthful _ hclean.1 h

/-! ### An interrupted failover -/

/-- A controller that just started: nothing is known and nothing is selected. -/
def startedController : Controller where
  items := fun _ => newPolicyHealthState
  warmStarted := fun _ => false
  interrupted := none
  choice := fun _ => ""
  faults := []

/-- A policy with two nodes that stays where it is. -/
def sampleInput (quality : List QualityProbe) (reserves : EmergencyBatch) : TickInput where
  contract :=
    { candidates := ["de", "nl"]
      mode := "best"
      failureThreshold := 3
      protocol := fun _ => "vless"
      candidateServiceIDs := []
      groupSelector := fun _ => ""
      candidateServiceAccess := fun _ => [] }
  transition := ⟨false, ⟨false, none, ⟨true, false, false, .none⟩, none⟩, none, none, []⟩
  publishError := none
  underlay := none
  emergency := ⟨[], [], false, false, [], false, false⟩
  survey := none
  quality := quality
  reserves := reserves
  evaluation := ⟨fun _ => true, fun _ => 0, fun _ => .none⟩
  selectDesired := fun selected => (selected, false)
  reverseOnline := .ok false
  cold := false
  lowestLatency := ""
  gate := fun _ desired => desired

/-- A probe of the node `de`. -/
def probeOf (evidence : Evidence) : QualityProbe := ⟨"de", ⟨[], none⟩, evidence, none⟩

/-- The first tick selects `de`; in the second its probe fails, the reserve `nl` is available
    and gets selected, and `changed` says whether the generation is replaced meanwhile. -/
def failoverRun (changed : Bool) : List Turn :=
  [⟨"europe", sampleInput [probeOf ⟨true, false, false, .none⟩]
      ⟨[], [], false, false, [], false, false⟩, .full⟩,
    ⟨"europe", sampleInput [probeOf ⟨false, false, false, .fatal⟩]
      ⟨["nl"], [], false, false, [.result "nl" ⟨true, false, false, .none⟩], changed, false⟩,
      .full⟩]

/-- The generation is replaced right after the failover: `de` stays confirmed, Xray has `nl`. -/
theorem stale_confirmation : Truthful "europe" startedController ∧
      ((run id startedController (failoverRun true)).items "europe").runtimeConfirmed = true ∧
      ((run id startedController (failoverRun true)).items "europe").runtimeSelected = "de" ∧
      (run id startedController (failoverRun true)).choice "europe" = "nl" := by
  decide +kernel

/-- Without the replacement the same run records the failover. -/
theorem failoverRun_confirmed :
    ((run id startedController (failoverRun false)).items "europe").runtimeConfirmed = true ∧
      ((run id startedController (failoverRun false)).items "europe").runtimeSelected =
        (run id startedController (failoverRun false)).choice "europe" := by
  have hconf : ((run id startedController (failoverRun false)).items
      "europe").runtimeConfirmed = true := by decide +kernel
  have hclean : CleanRun id "europe" (failoverRun false) startedController := by
    refine ⟨⟨fun _ => ?_, fun _ => ?_, ?_⟩, ⟨fun _ => ?_, fun _ => ?_, ?_⟩, trivial⟩
    · exact fun h => absurd h (by decide)
    · exact fun _ h => absurd h (by decide)
    · exact fun h => absurd h (by decide)
    · exact fun h => absurd h (by decide)
    · exact fun _ _ => ⟨trivial, rfl, fun h => absurd h (by decide)⟩
    · exact fun h => absurd h (by decide)
  have htrue := run_confirmed id "europe" startedController (failoverRun false) hclean
    (by decide) 2
  exact ⟨hconf, htrue hconf⟩

end SbGateway.Agent.Health
