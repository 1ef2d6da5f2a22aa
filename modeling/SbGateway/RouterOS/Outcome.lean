import SbGateway.RouterOS.Guard

namespace SbGateway.RouterOS

open Lib
open Lib.Calls

/-!
# What a transaction reports

A transaction ends with success or with a failure that says what is known of RouterOS.
`Truthful` is what these reports promise.  The promise is kept at every end but one: if the
removal of the guard takes effect and loses its response, and the rollback after it is not
carried out, the candidate is reported as pending recovery although no guard is left (`Mishap`).

* `disarmAndFinalize_spec`, `applyWithSchedulerGuard_spec`, `applyInSafeMode_spec` — the parts;
* `truthful_iff` — the ends that keep the promise, over all runs;
* `sound_run` — the guard dominates the candidate at every moment of all runs.
-/

/-- The report of a transaction is right. -/
structure Truthful (out : Outcome) (s : Router) : Prop where
  applied : out.2 = none → s.config = .candidate ∧ s.undo = none ∧ Passed s ∧ Unguarded s
  rolledBack : ∀ e, out.2 = some e → e.state = some .rolledBack → s.config = .previous
  recoveryPending : ∀ e, out.2 = some e → e.state = some .recoveryPending →
    Guarded s ∨ s.config = .previous
  /-- Every other end is reported as unconfirmed. -/
  otherwise : ∀ e, out.2 = some e → ¬ (Guarded s ∨ s.config = .previous) →
    e.state = some .stateUnconfirmed

/-- The report is right except after a mishap. -/
structure Reported (start : Router) (out : Outcome) (s : Router) : Prop where
  sound : Sound start s
  truthful_iff : Truthful out s ↔ ¬ Mishap s.history

variable {start s : Router} {result : Result} {e : Err}

/-- A failure with the previous configuration or a guard is reported truly. -/
theorem reported_of_covered (hsound : Sound start s) (hcalm : ¬ Mishap s.history)
    (hcovered : Guarded s ∨ s.config = .previous)
    (hstate : e.state = some .rolledBack → s.config = .previous) :
    Reported start (result, some e) s := by
  refine ⟨hsound, iff_of_true ?_ hcalm⟩
  refine ⟨nofun, ?_, fun _ _ _ => hcovered, fun _ _ h => absurd hcovered h⟩
  intro f hf hrolled
  cases hf
  exact hstate hrolled

/-- The report after a recovery under a guard. -/
theorem Recovered.reported (h : Recovered start r s) (message : String) (cause : Err) :
    Reported start (result, some (guardedFailure message cause r)) s := by
  refine reported_of_covered h.sound h.calm h.covered fun hstate => h.restored ?_
  cases r with
  | ok _ => rfl
  | error _ => cases hstate

/-- An unconfirmed state promises nothing. -/
theorem reported_unconfirmed (hsound : Sound start s) (hcalm : ¬ Mishap s.history)
    (hstate : e.state = some .stateUnconfirmed) : Reported start (result, some e) s := by
  refine ⟨hsound, iff_of_true ⟨nofun, ?_, ?_, ?_⟩ hcalm⟩
  · intro f hf h
    cases hf
    rw [hstate] at h
    cases h
  · intro f hf h
    cases hf
    rw [hstate] at h
    cases h
  · intro f hf _
    cases hf
    exact hstate

/-! ### After the health check -/

variable {guard : Scheduler} {applyName : String}

/-- The guard is gone and the health check has passed. -/
theorem Unguarded.sound_of_passed (h : Unguarded s) (hpassed : Passed s) : Sound start s :=
  h.sound fun _ => .inr hpassed

/-- How a recovery without a guard can end. -/
structure Restored (start : Router) (r : Except Err Unit) (s : Router) : Prop where
  sound : Sound start s
  calm : ¬ Mishap s.history
  restored : r = .ok () → s.config = .previous

/-- The report after a recovery without a guard. -/
theorem Restored.reported (h : Restored start r s) (cause : Err) :
    Reported start (result, some (finalizeFailure cause r)) s := by
  cases r with
  | ok _ =>
    have hconfig := h.restored rfl
    exact reported_of_covered h.sound h.calm (.inr hconfig) fun _ => hconfig
  | error _ => exact reported_unconfirmed h.sound h.calm rfl

/-- Removing imports changes nothing else. -/
theorem cleanupImports_passed (imports : List String)
    (h : Unguarded s) (hpassed : Passed s) (hcalm : ¬ Mishap s.history)
    (hQ : ∀ r s', s'.config = s.config → s'.undo = s.undo → Unguarded s' → Passed s' →
      ¬ Mishap s'.history → Q r s') :
    wp step (Sound start) (cleanupImports imports).run Q s := by
  unfold cleanupImports
  split
  · exact hQ _ s rfl rfl h hpassed hcalm
  · have hend : ∀ (t : Router) answer r, t.schedulers = s.schedulers → t.config = s.config →
        t.undo = s.undo → Passed t → Q r (t.logged (.removeImports imports) answer) := by
      intro t answer r hrows hconfig hundo ht
      refine hQ r _ hconfig hundo ?_ ht.logged (not_mishap_of_call (by simp))
      intro row hrow
      exact h row (hrows ▸ hrow)
    exact wp_request_some rfl (h.sound_of_passed hpassed) (hend _ _ _ rfl rfl rfl hpassed)
      (fun _ _ _ => hend _ _ _ rfl rfl rfl hpassed) (fun _ => hend _ _ _ rfl rfl rfl hpassed)

/-- Without a guard the script restores, or nothing is known. -/
theorem restoreAfterGuardDisarmed_spec (h : Unguarded s) (hpassed : Passed s)
    (hundo : s.undo = none) (hname : s.resolve name = some .previous) (hquiet : Quiet s)
    (imports : List String) :
    wp step (Sound start) (restoreAfterGuardDisarmed name imports).run (Restored start) s := by
  have heffect : Call.effect s (.runScript name) = some { s with config := .previous } := by
    simp [Call.effect, hname]
  have hsound : ∀ (t : Router) call answer, t.schedulers = s.schedulers → Passed t →
      Sound start (t.logged call answer) := by
    intro t call answer hrows ht
    refine Unguarded.sound_of_passed ?_ ht.logged
    intro row hrow
    exact h row (hrows ▸ hrow)
  unfold restoreAfterGuardDisarmed
  rw [wp_run_bind]
  refine wp_request_some heffect (h.sound_of_passed hpassed) ?_ ?_ ?_
  · simp only [either_ok]
    rw [wp_run_bind]
    refine wp_request_some (effect_waitSettled hundo) (hsound _ _ _ rfl hpassed) ?_ ?_ ?_
    · refine cleanupImports_passed imports h (hpassed.logged.logged) (not_mishap_of_call (by simp))
        fun r s' hconfig _ hgone hp hcalm => ?_
      exact ⟨hgone.sound_of_passed hp, hcalm, fun _ => hconfig⟩
    · exact fun answer e _ =>
        ⟨hsound _ _ _ rfl hpassed.logged, not_mishap_of_call (by simp), by simp⟩
    · exact fun e => ⟨hsound _ _ _ rfl hpassed.logged, not_mishap_of_call (by simp), by simp⟩
  · exact fun answer e _ => ⟨hsound _ _ _ rfl hpassed, not_mishap_of_quiet hquiet, by simp⟩
  · exact fun e => ⟨hsound _ _ _ rfl hpassed, not_mishap_of_lost, by simp⟩

/-- A recovery after a lost removal: the report is right unless the rollback is not carried
    out. -/
theorem restoreWhileGuardArmed_lost (result : Result) (h : Unguarded s)
    (hpassed : Passed s) (hundo : s.undo = none) (hconfig : s.config = .candidate)
    (hname : s.resolve name = some .previous) (hloud : ¬ Quiet s) (message : String) (cause : Err) :
    wp step (Sound start) (restoreWhileGuardArmed name).run
      (fun r s' => Reported start (result, some (guardedFailure message cause r)) s') s := by
  have heffect : Call.effect s (.runScript name) = some { s with config := .previous } := by
    simp [Call.effect, hname]
  have hrestored : ∀ (t : Router) call answer r, t.schedulers = s.schedulers →
      t.config = .previous → ¬ Mishap (t.logged call answer).history →
        Reported start (result, some (guardedFailure message cause r)) (t.logged call answer) := by
    intro t call answer r hrows ht hcalm
    refine Recovered.reported ?_ message cause
    refine Unguarded.restored ?_ hcalm ht r
    intro row hrow
    exact h row (hrows ▸ hrow)
  unfold restoreWhileGuardArmed
  rw [wp_run_bind]
  refine wp_request_some heffect (h.sound_of_passed hpassed) ?_ ?_ ?_
  · have hsound : Sound start ({ s with config := .previous }.logged (.runScript name) .ok) :=
      Unguarded.sound_of_passed h hpassed.logged
    have hcalm : ∀ {t : Router} {answer : Answer},
      ¬ Mishap (t.logged .waitSettled answer).history :=
      not_mishap_of_call (by simp)
    exact wp_request_some (effect_waitSettled hundo) hsound (hrestored _ _ _ _ rfl rfl hcalm)
      (fun _ _ _ => hrestored _ _ _ _ rfl rfl hcalm) (fun _ => hrestored _ _ _ _ rfl rfl hcalm)
  · -- the candidate stays, and no guard is left
    intro answer e hanswer
    refine ⟨(unguarded_logged.mpr h).sound_of_passed hpassed.logged, iff_of_false ?_ ?_⟩
    · intro htruthful
      rcases htruthful.recoveryPending _ rfl rfl with hguarded | hprevious
      · exact h.not_guarded hguarded
      · rw [Router.logged_config, hconfig] at hprevious
        cases hprevious
    · rw [not_not, mishap_logged]
      exact ⟨⟨name, rfl⟩, hanswer, hloud⟩
  · exact fun e => hrestored _ _ _ _ rfl rfl not_mishap_of_lost

/-- With a guard it restores, or the guard stays. -/
theorem restoreWhileGuardArmed_spec (h : Armed guard applyName s) (hundo : s.undo = none)
    (hquiet : Quiet s) :
    wp step (Sound start) (restoreWhileGuardArmed guard.script).run (Recovered start) s := by
  have hprevious : Armed guard applyName { s with config := .previous } :=
    h.with_config .previous s.undo s.console
  have hrestored : ∀ call answer r, (∀ name, call ≠ .runScript name) → Recovered start r
      (({ s with config := .previous }.logged (.runScript guard.script) .ok).logged call
        answer) := by
    intro call answer r hcall
    exact (armed_logged.mpr (armed_logged.mpr hprevious)).restored (not_mishap_of_call hcall) rfl r
  unfold restoreWhileGuardArmed
  rw [wp_run_bind]
  refine wp_request_some (effect_rollback h) h.sound ?_ ?_ ?_
  · exact wp_request_some (effect_waitSettled hundo) (armed_logged.mpr hprevious).sound
      (hrestored _ _ _ (by simp)) (fun _ _ _ => hrestored _ _ _ (by simp))
      (fun _ => hrestored _ _ _ (by simp))
  · exact fun answer e _ => (armed_logged.mpr h).recovered (not_mishap_of_quiet hquiet) e
  · exact fun e => (armed_logged.mpr hprevious).restored not_mishap_of_lost rfl _

/-- The candidate is committed: the guard is gone, the rollback script can still run. -/
structure Committed (name : String) (s : Router) : Prop where
  gone : Unguarded s
  passed : Passed s
  undo : s.undo = none
  config : s.config = .candidate
  rollback : s.resolve name = some .previous

/-- A record undoes no commit. -/
theorem Committed.logged (h : Committed name s) (call : Call) (answer : Answer) :
    Committed name (s.logged call answer) :=
  ⟨h.gone, h.passed.logged, h.undo, h.config, h.rollback⟩

/-- After the removal of the guard: finalization, or a recovery without a guard. -/
theorem finalizeCandidate_spec (h : Committed name s) (hcalm : ¬ Mishap s.history)
    (hscript : result.rollbackScript = name) (options : Options) (imports : List String) :
    wp step (Sound start) (finalizeCandidate result options imports) (Reported start) s := by
  have hdone : ∀ t, Committed name t → ¬ Mishap t.history → wp step (Sound start) (do
      let cleaned ← (cleanupImports imports).run
      return ({ result with cleanupPending := cleaned.isOk = false }, none))
        (Reported start) t := by
    intro t ht hcalm
    rw [wp_bind]
    refine cleanupImports_passed imports ht.gone ht.passed hcalm
      fun r s' hconfig hundo hgone hpassed hcalm => ?_
    refine ⟨hgone.sound_of_passed hpassed, iff_of_true ⟨fun _ => ?_, ?_, ?_, ?_⟩ hcalm⟩
    · exact ⟨hconfig.trans ht.config, hundo.trans ht.undo, hpassed, hgone⟩
    · exact fun _ hf => (nomatch hf)
    · exact fun _ hf => (nomatch hf)
    · exact fun _ hf => (nomatch hf)
  have hfailed : ∀ answer e, wp step (Sound start) (do
      let recovery ← (restoreAfterGuardDisarmed result.rollbackScript imports).run
      return (result, some (finalizeFailure e recovery))) (Reported start)
        (s.logged .finalize answer) := by
    intro answer e
    have ht := h.logged .finalize answer
    rw [wp_bind, hscript]
    refine wp_mono (restoreAfterGuardDisarmed_spec ht.gone ht.passed ht.undo ht.rollback
      (quiet_logged (by simp)) imports) ?_
    exact fun r s' hrestored => hrestored.reported e
  unfold finalizeCandidate Options.runFinalize
  rw [wp_bind]
  split
  · exact wp_request_some rfl (h.gone.sound_of_passed h.passed)
      (hdone _ (h.logged _ _) not_mishap_of_ok) (fun answer e _ => hfailed answer _)
      (fun e => hfailed _ _)
  · exact hdone s h hcalm

/-- The end of a transaction is reported truly. -/
theorem disarmAndFinalize_spec (h : Armed guard applyName s) (hpassed : Passed s)
    (hundo : s.undo = none) (hconfig : s.config = .candidate)
    (hscript : result.rollbackScript = guard.script) (options : Options) (imports : List String) :
    wp step (Sound start) (disarmAndFinalize result guard.name options imports)
      (Reported start) s := by
  unfold disarmAndFinalize
  rw [wp_bind]
  refine wp_mono (disarmRollback_spec h) fun r s' hdisarm => ?_
  obtain ⟨hdisarm, hcalm⟩ := hdisarm
  cases hdisarm with
  | armed e frame armed quiet =>
    show wp step (Sound start) ((restoreWhileGuardArmed result.rollbackScript).run >>= _) _ s'
    rw [wp_bind, hscript]
    refine wp_mono (restoreWhileGuardArmed_spec armed (frame.undo.trans hundo) quiet) ?_
    exact fun r s'' hrecovered => hrecovered.reported _ _
  | lost e frame gone loud =>
    show wp step (Sound start) ((restoreWhileGuardArmed result.rollbackScript).run >>= _) _ s'
    rw [wp_bind, hscript]
    refine wp_mono (restoreWhileGuardArmed_lost result gone ?_ (frame.undo.trans hundo)
      (frame.config.trans hconfig) ?_ loud "RouterOS rollback guard could not be disarmed" e) ?_
    · exact frame.history.subset hpassed
    · rw [frame.resolve, h.rollback]
    · exact fun r s'' hreported => hreported
  | removed frame gone =>
    have hcommitted : Committed guard.script s' :=
      ⟨gone, frame.history.subset hpassed, frame.undo.trans hundo, frame.config.trans hconfig,
        by rw [frame.resolve, h.rollback]⟩
    exact finalizeCandidate_spec hcommitted hcalm hscript options imports

/-! ### The two ways to run the candidate -/

/-- The script of the candidate applies it. -/
theorem effect_apply (h : Armed guard applyName s) :
    Call.effect s (.runScript applyName) = some { s with config := .candidate } := by
  simp [Call.effect, h.apply]

/-- A recovery by the rollback script, reported. -/
theorem rollbackPrepared_reported (h : Armed guard applyName s) (hundo : s.undo = none)
    (hquiet : Quiet s) (hscript : result.rollbackScript = guard.script) (imports : List String)
    (message : String) (cause : Err) : wp step (Sound start) (do
      let recovery ← (rollbackPrepared result.rollbackScript guard.name imports).run
      return (result, some (guardedFailure message cause recovery))) (Reported start) s := by
  rw [wp_bind, hscript]
  refine wp_mono (rollbackPrepared_spec h hundo hquiet imports) ?_
  exact fun r s' hrecovered => hrecovered.reported message cause

/-- A transaction without Safe Mode is reported truly. -/
theorem applyWithSchedulerGuard_spec (h : Armed guard applyName s) (hundo : s.undo = none)
    (hscript : result.rollbackScript = guard.script) (happly : result.applyScript = applyName)
    (options : Options) (imports : List String) :
    wp step (Sound start) (applyWithSchedulerGuard result guard.name options imports)
      (Reported start) s := by
  have hcandidate : Armed guard applyName { s with config := .candidate } :=
    h.with_config .candidate s.undo s.console
  unfold applyWithSchedulerGuard
  rw [wp_bind, happly]
  refine wp_request_some (effect_apply h) h.sound ?_ ?_ ?_
  · -- the candidate has run: its health decides
    have hrun : Armed guard applyName
        ({ s with config := .candidate }.logged (.runScript applyName) .ok) :=
      armed_logged.mpr hcandidate
    show wp step (Sound start) ((request .healthCheck).run >>= _) _ _
    rw [wp_bind]
    refine wp_request_some rfl hrun.sound ?_ ?_ ?_
    · refine disarmAndFinalize_spec (armed_logged.mpr hrun) ?_ hundo rfl hscript options imports
      exact List.mem_append_right _ (List.mem_singleton.mpr rfl)
    · exact fun answer e _ => rollbackPrepared_reported (armed_logged.mpr hrun) hundo
        (quiet_logged (by simp)) hscript imports _ _
    · exact fun e => rollbackPrepared_reported (armed_logged.mpr hrun) hundo
        (quiet_logged (by simp)) hscript imports _ _
  · exact fun answer e _ => rollbackPrepared_reported (armed_logged.mpr h) hundo
      (quiet_logged (by simp)) hscript imports _ _
  · exact fun e => rollbackPrepared_reported (armed_logged.mpr hcandidate) hundo
      (quiet_logged (by simp)) hscript imports _ _

/-- The candidate has run in a console: it floats, or Safe Mode has released itself. -/
structure InSession (guard : Scheduler) (applyName : String) (session : Session) (s : Router) :
    Prop where
  armed : Armed guard applyName s
  config : s.config = .candidate
  notClosed : session.closed = false
  mode : session.active = true ∧ session.autoReleased = false ∧ s.undo = some .previous ∨
    session.active = false ∧ session.autoReleased = true ∧ s.undo = none

/-- What a failed start of Safe Mode leaves. -/
structure Floating (guard : Scheduler) (applyName : String) (s : Router) : Prop where
  armed : Armed guard applyName s
  undo : s.undo = none ∨ s.undo = some .previous

/-- A record keeps what floats. -/
theorem Floating.logged (h : Floating guard applyName s) (call : Call) (answer : Answer) :
    Floating guard applyName (s.logged call answer) :=
  ⟨armed_logged.mpr h.armed, h.undo⟩

variable {session : Session}

/-- A record keeps the session. -/
theorem InSession.logged (h : InSession guard applyName session s)
    (call : Call) (answer : Answer) : InSession guard applyName session (s.logged call answer) :=
  ⟨armed_logged.mpr h.armed, h.config, h.notClosed, h.mode⟩

/-- A session begins with the candidate, or it floats. -/
theorem session_begin_spec (h : Armed guard applyName s) (hconfig : s.config = .previous)
    (hundo : s.undo = none) : wp step (Sound start) (Session.begin applyName).run
      (either (fun session => InSession guard applyName session)
        fun _ => Floating guard applyName) s := by
  have htake : Call.effect s .takeSafeMode =
      some { s with undo := some .previous, console := true } := by
    simp [Call.effect, hundo, hconfig]
  unfold Session.begin
  rw [wp_run_bind]
  refine wp_request_some htake h.sound ?_ (fun answer e _ => ⟨armed_logged.mpr h, .inl hundo⟩)
    (fun e => ⟨armed_logged.mpr (h.with_config s.config _ _), .inr rfl⟩)
  set t := ({ s with undo := some .previous, console := true }).logged .takeSafeMode .ok
  have ht : Armed guard applyName t := armed_logged.mpr (h.with_config s.config _ _)
  have hrun : Call.effect t (.runInConsole applyName) = some { t with
      config := .candidate
      undo := if t.overLimit then none else some .previous } := by
    simp [Call.effect, ht.apply, t]
  set u := { t with
    config := .candidate
    undo := if t.overLimit then none else some .previous }
  have hu : Armed guard applyName u := ht.with_config _ _ t.console
  have huundo : u.undo = none ∨ u.undo = some .previous := by
    by_cases hlimit : t.overLimit = true
    · exact .inl (if_pos hlimit)
    · exact .inr (if_neg hlimit)
  simp only [either_ok]
  rw [wp_run_bind]
  refine wp_request_some hrun ht.sound ?_ (fun answer e _ => ⟨armed_logged.mpr ht, .inr rfl⟩)
    (fun e => ⟨armed_logged.mpr hu, huundo⟩)
  set v := u.logged (.runInConsole applyName) .ok
  have hv : Floating guard applyName v := ⟨armed_logged.mpr hu, huundo⟩
  simp only [either_ok]
  rw [wp_run_bind]
  refine wp_request_some rfl hv.armed.sound ?_ (fun answer e _ => hv.logged _ _)
    (fun e => hv.logged _ _)
  -- the prompt tells whether Safe Mode still holds
  refine ⟨armed_logged.mpr hv.armed, rfl, rfl, ?_⟩
  rcases hv.undo with hnone | hsome
  · exact .inr ⟨by simp [Call.payload, hnone], by simp [Call.payload, hnone], hnone⟩
  · exact .inl ⟨by simp [Call.payload, hsome], by simp [Call.payload, hsome], hsome⟩

/-- A session that fails is closed. -/
theorem beginSafeMode_spec (h : Armed guard applyName s) (hconfig : s.config = .previous)
    (hundo : s.undo = none) : wp step (Sound start) (beginSafeMode applyName).run
      (either (fun session => InSession guard applyName session)
        fun _ => Floating guard applyName) s := by
  have hs : Floating guard applyName s := ⟨h, .inl hundo⟩
  unfold beginSafeMode
  rw [wp_run_bind]
  refine wp_request_some rfl h.sound ?_ (fun answer e _ => hs.logged _ _) (fun e => hs.logged _ _)
  simp only [either_ok]
  rw [wp_run_bind, wp_run_lift]
  refine wp_mono (session_begin_spec (armed_logged.mpr h) hconfig hundo) fun r s' hr => ?_
  cases r with
  | ok session => exact hr
  | error e =>
    have hfloat : Floating guard applyName s' := hr
    have hclosed : ∀ call answer,
        Floating guard applyName ({ s' with console := false }.logged call answer) :=
      fun call answer => Floating.logged
        ⟨hfloat.armed.with_config s'.config s'.undo false, hfloat.undo⟩ call answer
    simp only [either_ok]
    rw [wp_run_bind, wp_run_lift]
    exact wp_request_some rfl hfloat.armed.sound (hclosed _ _) (fun _ _ _ => hfloat.logged _ _)
      (fun _ => hclosed _ _)

/-- No error means that both succeeded. -/
theorem firstError_eq_ok (h : firstError first second = .ok ()) :
    first = .ok () ∧ second = .ok () := by
  cases first with
  | error e => cases h
  | ok _ => exact ⟨rfl, h⟩

/-- Once the floating history has settled, RouterOS is what Safe Mode returns to. -/
theorem waitSettled_spec (h : Floating guard applyName s) :
    wp step (Sound start) (request .waitSettled).run (fun r s' =>
      Armed guard applyName s' ∧ ¬ Mishap s'.history ∧ s.history <+: s'.history ∧
        (r = .ok () → s'.undo = none ∧ s'.config = s.undo.getD s.config)) s := by
  have hend : ∀ {t : Router} (answer : Answer) (r : Except Err Unit), Armed guard applyName t →
      t.history = s.history → (r = .ok () → t.undo = none ∧ t.config = s.undo.getD s.config) →
      Armed guard applyName (t.logged .waitSettled answer) ∧
        ¬ Mishap (t.logged .waitSettled answer).history ∧
        s.history <+: (t.logged .waitSettled answer).history ∧
        (r = .ok () → t.undo = none ∧ t.config = s.undo.getD s.config) := by
    intro t answer r ht hhistory hsettled
    exact ⟨armed_logged.mpr ht, not_mishap_of_call (by simp), hhistory ▸ List.prefix_append _ _,
      hsettled⟩
  rcases h.undo with hundo | hundo
  · refine wp_request_some (effect_waitSettled hundo) h.armed.sound
      (hend _ _ h.armed rfl fun _ => ⟨hundo, ?_⟩) (fun _ _ _ => hend _ _ h.armed rfl nofun)
      (fun _ => hend _ _ h.armed rfl nofun)
    rw [hundo]
    rfl
  · cases hconsole : s.console with
    | true =>
      have heffect : Call.effect s .waitSettled = none := by simp [Call.effect, hundo, hconsole]
      exact wp_request_none heffect h.armed.sound fun _ _ => hend _ _ h.armed rfl nofun
    | false =>
      have heffect : Call.effect s .waitSettled =
          some { s with config := .previous, undo := none } := by
        simp [Call.effect, hundo, hconsole]
      have hundone : Armed guard applyName { s with config := .previous, undo := none } :=
        h.armed.with_config .previous none s.console
      refine wp_request_some heffect h.armed.sound (hend _ _ hundone rfl fun _ => ⟨rfl, ?_⟩)
        (fun _ _ _ => hend _ _ h.armed rfl nofun) (fun _ => hend _ _ hundone rfl nofun)
      rw [hundo]
      rfl

section

variable (h : InSession guard applyName session s)
include h

/-- An abort only closes the console. -/
theorem session_abort_spec :
    wp step (Sound start) session.abort.run
      (fun _ s' => InSession guard applyName session s') s := by
  have hclosed : ∀ call answer,
      InSession guard applyName session ({ s with console := false }.logged call answer) :=
    fun call answer => InSession.logged
      ⟨h.armed.with_config s.config s.undo false, h.config, h.notClosed, h.mode⟩ call answer
  unfold Session.abort
  rw [h.notClosed]
  exact wp_request_some rfl h.armed.sound (hclosed _ _) (fun _ _ _ => h.logged _ _)
    (fun _ => hclosed _ _)

/-- Outside Safe Mode a successful rollback puts the previous configuration in place. -/
theorem rollbackIfReleased_spec :
    wp step (Sound start) (rollbackIfReleased session guard.script).run
      (fun r s' => Armed guard applyName s' ∧ (s'.undo = some .previous ∨
        s'.undo = none ∧ (r = .ok () → s'.config = .previous))) s := by
  unfold rollbackIfReleased
  have hprevious : Armed guard applyName { s with config := .previous } :=
    h.armed.with_config .previous s.undo s.console
  rcases h.mode with ⟨_, hreleased, hundo⟩ | ⟨_, hreleased, hundo⟩
  · rw [hreleased]
    exact ⟨h.armed, .inl hundo⟩
  · rw [hreleased]
    exact wp_request_some (effect_rollback h.armed) h.armed.sound
      ⟨armed_logged.mpr hprevious, .inr ⟨hundo, fun _ => rfl⟩⟩
      (fun _ _ _ => ⟨armed_logged.mpr h.armed, .inr ⟨hundo, nofun⟩⟩)
      (fun _ => ⟨armed_logged.mpr hprevious, .inr ⟨hundo, nofun⟩⟩)

/-- The guard is removed only if the previous configuration is in place. -/
theorem cleanupAfterAbort_spec (imports : List String) :
    wp step (Sound start) (cleanupAfterAbort guard.name guard.script session imports).run
      (Recovered start) s := by
  unfold cleanupAfterAbort
  rw [wp_run_bind, wp_run_lift]
  refine wp_mono (session_abort_spec h) fun aborted s₁ h₁ => ?_
  simp only [either_ok]
  rw [wp_run_bind, wp_run_lift]
  refine wp_mono (rollbackIfReleased_spec h₁) fun rolled s₂ h₂ => ?_
  obtain ⟨harmed, hmode⟩ := h₂
  simp only [either_ok]
  rw [wp_run_bind, wp_run_lift]
  have hfloat : Floating guard applyName s₂ :=
    ⟨harmed, hmode.elim .inr fun hmode => .inl hmode.1⟩
  refine wp_mono (waitSettled_spec hfloat) fun settled s₃ h₃ => ?_
  obtain ⟨harmed₃, hcalm, _, hsettled⟩ := h₃
  simp only [either_ok]
  cases hall : firstError (firstError aborted rolled) settled with
  | error e => exact harmed₃.recovered hcalm e
  | ok u =>
    obtain ⟨hfirst, rfl⟩ := firstError_eq_ok hall
    obtain ⟨_, rfl⟩ := firstError_eq_ok hfirst
    refine disarmAndCleanup_spec harmed₃ ?_ imports
    rw [(hsettled rfl).2]
    rcases hmode with hundo | ⟨hundo, hconfig⟩
    · rw [hundo]
      rfl
    · rw [hundo]
      exact hconfig rfl

end

/-- Closing the console changes nothing at once. -/
theorem closeConsole_spec (h : Armed guard applyName s) :
    wp step (Sound start) (request .closeConsole).run (fun _ s' =>
      Armed guard applyName s' ∧ ¬ Mishap s'.history ∧ s'.config = s.config ∧ s'.undo = s.undo ∧
        s.history <+: s'.history) s := by
  have hcalm : ∀ {t : Router} {answer : Answer}, ¬ Mishap (t.logged .closeConsole answer).history :=
    not_mishap_of_call (by simp)
  have hclosed : Armed guard applyName { s with console := false } :=
    h.with_config s.config s.undo false
  exact wp_request_some rfl h.sound
    ⟨armed_logged.mpr hclosed, hcalm, rfl, rfl, List.prefix_append _ _⟩
    (fun _ _ _ => ⟨armed_logged.mpr h, hcalm, rfl, rfl, List.prefix_append _ _⟩)
    (fun _ => ⟨armed_logged.mpr hclosed, hcalm, rfl, rfl, List.prefix_append _ _⟩)

/-- How the commit of a session ends: with the candidate, or with an error. -/
def Released (guard : Scheduler) (applyName : String) : Except Err Unit → Router → Prop :=
  either (fun _ s => Armed guard applyName s ∧ s.config = .candidate ∧ s.undo = none ∧ Passed s)
    fun _ s => Armed guard applyName s ∧ ¬ Mishap s.history

/-- A released Safe Mode leaves the candidate, with the guard still armed. -/
theorem session_commit_spec (h : InSession guard applyName session s) (hpassed : Passed s) :
    wp step (Sound start) session.commit.run (Released guard applyName) s := by
  have hclose : ∀ t, Armed guard applyName t → t.config = .candidate → t.undo = none → Passed t →
      wp step (Sound start) (request .closeConsole).run (Released guard applyName) t := by
    intro t ht hconfig hundo hpassed
    refine wp_mono (closeConsole_spec ht) fun r s' hs => ?_
    obtain ⟨harmed, hcalm, hconfig', hundo', hhistory⟩ := hs
    cases r with
    | ok _ => exact ⟨harmed, hconfig'.trans hconfig, hundo'.trans hundo, hhistory.subset hpassed⟩
    | error _ => exact ⟨harmed, hcalm⟩
  unfold Session.commit
  rw [h.notClosed]
  rcases h.mode with ⟨hactive, hreleased, _⟩ | ⟨hactive, hreleased, hundo⟩
  · -- a refused or lost release is followed by an abort
    have habort : ∀ t e, Armed guard applyName t →
        wp step (Sound start) (do
          let _ ← ExceptT.lift session.abort.run
          throw e : Action Unit).run (Released guard applyName) t := by
      intro t e ht
      rw [wp_run_bind, wp_run_lift]
      unfold Session.abort
      rw [h.notClosed]
      exact wp_mono (closeConsole_spec ht) fun r s' hs => ⟨hs.1, hs.2.1⟩
    have hreleasedArmed : Armed guard applyName { s with undo := none } :=
      h.armed.with_config s.config none s.console
    rw [hactive, hreleased]
    simp only [Bool.not_true, Bool.not_false, Bool.and_true, Bool.or_self, Bool.false_eq_true,
      if_false]
    rw [wp_run_bind, wp_run_lift]
    exact wp_request_some rfl h.armed.sound
      (hclose _ (armed_logged.mpr hreleasedArmed) h.config rfl hpassed.logged)
      (fun _ _ _ => habort _ _ (armed_logged.mpr h.armed))
      (fun _ => habort _ _ (armed_logged.mpr hreleasedArmed))
  · rw [hactive, hreleased]
    exact hclose s h.armed h.config hundo hpassed

/-- A transaction in Safe Mode is reported truly. -/
theorem applyInSafeMode_spec (h : Armed guard applyName s) (hconfig : s.config = .previous)
    (hundo : s.undo = none) (hscript : result.rollbackScript = guard.script)
    (happly : result.applyScript = applyName) (options : Options) (imports : List String) :
    wp step (Sound start) (applyInSafeMode result guard.name options imports)
      (Reported start) s := by
  have hpending : ∀ {t : Router} {result : Result} (e : Err), Armed guard applyName t →
      ¬ Mishap t.history → Reported start (result, some (.failure .recoveryPending e)) t := by
    intro t result e ht hcalm
    exact reported_of_covered ht.sound hcalm (.inl ht.guarded) nofun
  subst happly
  unfold applyInSafeMode
  rw [wp_bind]
  refine wp_mono (beginSafeMode_spec h hconfig hundo) fun r s₁ h₁ => ?_
  cases r with
  | error e =>
    -- the scheduler takes over once the history has settled
    show wp step (Sound start) ((request .waitSettled).run >>= _) _ s₁
    rw [wp_bind]
    refine wp_mono (waitSettled_spec h₁) fun r s₂ h₂ => ?_
    obtain ⟨harmed, hcalm, _, hsettled⟩ := h₂
    cases r with
    | error settleErr => exact hpending _ harmed hcalm
    | ok _ =>
      refine applyWithSchedulerGuard_spec harmed (hsettled rfl).1 ?_ ?_ options imports
      · exact hscript
      · rfl
  | ok session =>
    have hsession : InSession guard result.applyScript session s₁ := h₁
    have hunhealthy : ∀ answer (e : Err) (result : Result), result.rollbackScript = guard.script →
        wp step (Sound start) (do
          let recovery ← (cleanupAfterAbort guard.name result.rollbackScript session imports).run
          return (result, some
            (guardedFailure "RouterOS candidate failed post-apply health check" e recovery)))
          (Reported start) (s₁.logged .healthCheck answer) := by
      intro answer e result hscript
      rw [wp_bind, hscript]
      refine wp_mono (cleanupAfterAbort_spec (hsession.logged _ _) imports) ?_
      exact fun r s₂ hrecovered => hrecovered.reported _ _
    show wp step (Sound start) ((request .healthCheck).run >>= _) _ s₁
    rw [wp_bind]
    refine wp_request_some rfl hsession.armed.sound ?_
      (fun answer e _ => hunhealthy answer _ _ hscript) (fun e => hunhealthy _ _ _ hscript)
    have hpassed : Passed (s₁.logged .healthCheck .ok) :=
      List.mem_append_right _ (List.mem_singleton.mpr rfl)
    show wp step (Sound start)
      ((do session.commit; request .waitSettled : Action Unit).run >>= _) _ _
    rw [wp_bind, wp_run_bind]
    refine wp_mono (session_commit_spec (hsession.logged _ _) hpassed) fun r s₂ h₂ => ?_
    cases r with
    | error e => exact hpending _ h₂.1 h₂.2
    | ok _ =>
      obtain ⟨harmed, hcandidate, hundo₂, hpassed₂⟩ := h₂
      refine wp_mono (waitSettled_spec ⟨harmed, .inl hundo₂⟩) fun r s₃ h₃ => ?_
      obtain ⟨harmed₃, hcalm, hhistory, hsettled⟩ := h₃
      cases r with
      | error e => exact hpending _ harmed₃ hcalm
      | ok _ =>
        have hconfig₃ : s₃.config = .candidate := by
          rw [(hsettled rfl).2, hundo₂]
          exact hcandidate
        refine disarmAndFinalize_spec harmed₃ (hhistory.subset hpassed₂) (hsettled rfl).1 hconfig₃
          ?_ options imports
        exact hscript

end SbGateway.RouterOS
