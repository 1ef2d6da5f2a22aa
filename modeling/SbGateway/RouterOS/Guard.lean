import SbGateway.RouterOS.Transaction
import SbGateway.Lib.Fallible

namespace SbGateway.RouterOS

open Lib
open Lib.Calls

/-!
# The guard dominates the candidate

While the guard is armed (`Armed`), it can restore the previous configuration whatever happens.
The candidate only runs in that phase, and the guard is only removed after the health check or
after a recovery.  `Sound` is what holds at every moment of a transaction.

* `wp_request_some`, `wp_request_none` — what a single call can do;
* `disarmRollback_spec` — the guard is removed, or it is still armed, or its removal has lost its
  response;
* `rollbackPrepared_spec`, `cleanupAfterAbort_spec`, … — one specification for each function.
-/

/-! ### What the state means -/

/-- The file is there. -/
def Router.hasFile (s : Router) (name : String) : Prop := (s.files.lookup name).isSome = true

/-- A guard is armed, and it can run: its script installs the previous configuration and the
    file it imports is there. -/
def Guarded (s : Router) : Prop :=
  ∃ row ∈ s.schedulers, row.pending = true ∧ s.resolve row.script = some .previous ∧
    (row.managedImport = "" ∨ s.hasFile row.managedImport)

/-- The health check of the candidate has passed. -/
def Passed (s : Router) : Prop := (.healthCheck, .ok) ∈ s.history

/-- No guard is armed. -/
def Unguarded (s : Router) : Prop := ∀ row ∈ s.schedulers, row.pending = false

/-- The candidate is in effect only under a guard, inside Safe Mode, or after its health check. -/
def Dominated (s : Router) : Prop :=
  s.config = .candidate → Guarded s ∨ s.undo = some .previous ∨ Passed s

/-- The import of an armed guard is there, unless it was missing from the start. -/
def ImportsKept (start s : Router) : Prop :=
  ∀ row ∈ s.schedulers, row.pending = true → row.managedImport ≠ "" →
    s.hasFile row.managedImport ∨ (row ∈ start.schedulers ∧ ¬ start.hasFile row.managedImport)

/-- What holds at every moment of a transaction. -/
structure Sound (start s : Router) : Prop where
  dominated : Dominated s
  importsKept : ImportsKept start s

/-- Nothing has been done yet. -/
structure Fresh (s : Router) : Prop where
  config : s.config = .previous
  undo : s.undo = none
  history : s.history = []

/-- The removal of a guard lost its response, and the rollback after it was not carried out. -/
def Mishap (history : List (Call × Answer)) : Prop :=
  ∃ before id name answer, answer.takesEffect = false ∧
    history = before ++ [(.deleteScheduler id, .lost), (.runScript name, answer)]

/-- The last call was not the removal of a guard with a lost response. -/
def Quiet (s : Router) : Prop := ∀ id, s.history.getLast? ≠ some (.deleteScheduler id, .lost)

/-! ### Single calls -/

variable {start s t : Router} {call : Call} {answer : Answer}

/-- A record arms no guard. -/
@[simp] theorem unguarded_logged : Unguarded (s.logged call answer) ↔ Unguarded s := Iff.rfl

/-- A passed check stays in the record. -/
theorem Passed.logged (h : Passed s) : Passed (s.logged call answer) :=
  List.mem_append_left _ h

/-- Any other call is quiet. -/
theorem quiet_logged (h : ∀ id, call ≠ .deleteScheduler id) : Quiet (s.logged call answer) := by
  intro id hlast
  rw [Router.logged_history, List.getLast?_concat] at hlast
  exact h id (Prod.mk.inj (Option.some.inj hlast)).1

/-- So is a removal with a response. -/
theorem quiet_logged_of_ne (h : answer ≠ .lost) : Quiet (s.logged call answer) := by
  intro id hlast
  rw [Router.logged_history, List.getLast?_concat] at hlast
  exact h (Prod.mk.inj (Option.some.inj hlast)).2

/-- A mishap is a script without effect after a removal without response. -/
theorem mishap_logged : Mishap (s.logged call answer).history ↔
    (∃ name, call = .runScript name) ∧ answer.takesEffect = false ∧ ¬ Quiet s := by
  have hpair : ∀ (before : List (Call × Answer)) (x y : Call × Answer),
      before ++ [x, y] = (before ++ [x]) ++ [y] := by simp
  rw [Router.logged_history]
  constructor
  · rintro ⟨before, id, name, a, ha, heq⟩
    rw [hpair] at heq
    obtain ⟨hhist, hlast⟩ := List.append_inj' heq rfl
    obtain ⟨rfl, rfl⟩ := Prod.mk.inj (List.cons.inj hlast).1
    refine ⟨⟨name, rfl⟩, ha, fun hquiet => hquiet id ?_⟩
    rw [hhist, List.getLast?_concat]
  · rintro ⟨⟨name, rfl⟩, ha, hquiet⟩
    obtain ⟨id, hid⟩ := not_forall_not.mp hquiet
    obtain ⟨before, hbefore⟩ := List.getLast?_eq_some_iff.mp hid
    exact ⟨before, id, name, answer, ha, by rw [hbefore, hpair]⟩

/-- Only scripts are mishaps. -/
theorem not_mishap_of_call (h : ∀ name, call ≠ .runScript name) :
    ¬ Mishap (s.logged call answer).history := by
  rw [mishap_logged]
  rintro ⟨⟨name, rfl⟩, _⟩
  exact h name rfl

/-- Nothing was removed just before. -/
theorem not_mishap_of_quiet (h : Quiet s) : ¬ Mishap (s.logged call answer).history := by
  rw [mishap_logged]
  exact fun hm => hm.2.2 h

/-- A call that RouterOS can do succeeds, fails without effect, or loses its response. -/
theorem wp_request_some (h : call.effect s = some t) (hI : I s)
    (hok : Q (.ok (call.payload s)) (t.logged call .ok))
    (hfail : ∀ answer e, answer.takesEffect = false → Q (.error e) (s.logged call answer))
    (hlost : ∀ e, Q (.error e) (t.logged call .lost)) : wp step I (request call).run Q s := by
  refine ⟨hI, fun answer => ?_⟩
  have hsome : (call.effect s).isNone = false := by rw [h]; rfl
  cases answer with
  | ok =>
    have : step call .ok s = (.ok (call.payload s), t.logged call .ok) := by
      simp [step, Router.reply, Router.after, h, Answer.takesEffect]
    rw [this]
    exact hok
  | rejected =>
    have : step call .rejected s = (.error .rejected, s.logged call .rejected) := by
      simp [step, Router.reply, Router.after, Answer.takesEffect]
    rw [this]
    exact hfail _ _ rfl
  | unreached =>
    have : step call .unreached s = (.error .uncertain, s.logged call .unreached) := by
      simp [step, Router.reply, Router.after, hsome, Answer.takesEffect]
    rw [this]
    exact hfail _ _ rfl
  | lost =>
    have : step call .lost s = (.error .uncertain, t.logged call .lost) := by
      simp [step, Router.reply, Router.after, h, Answer.takesEffect]
    rw [this]
    exact hlost _

/-- A call that RouterOS cannot do fails without effect. -/
theorem wp_request_none (h : call.effect s = none) (hI : I s)
    (hfail : ∀ answer e, Q (.error e) (s.logged call answer)) :
    wp step I (request call).run Q s := by
  refine ⟨hI, fun answer => ?_⟩
  have : step call answer s = (.error .rejected, s.logged call answer) := by
    simp [step, Router.reply, Router.after, h]
  rw [this]
  exact hfail _ _

/-! ### Phases -/

/-- The guard of the transaction is armed and is the only one, and both scripts can run. -/
structure Armed (guard : Scheduler) (applyName : String) (s : Router) : Prop where
  mem : guard ∈ s.schedulers
  pending : guard.pending = true
  only : ∀ row ∈ s.schedulers, row.pending = true → row = guard
  rollback : s.resolve guard.script = some .previous
  apply : s.resolve applyName = some .candidate
  file : guard.managedImport = "" ∨ s.hasFile guard.managedImport

variable {s' : Router} {guard : Scheduler} {applyName : String}

/-- A record changes no guard. -/
@[simp] theorem armed_logged :
    Armed guard applyName (s.logged call answer) ↔ Armed guard applyName s :=
  ⟨fun h => { h with }, fun h => { h with }⟩

/-- The configuration does not matter to the guard. -/
theorem Armed.with_config (h : Armed guard applyName s) (config : Generation)
    (undo : Option Generation) (console : Bool) :
    Armed guard applyName { s with config := config, undo := undo, console := console } :=
  { h with }

/-- An armed guard guards. -/
theorem Armed.guarded (h : Armed guard applyName s) : Guarded s :=
  ⟨guard, h.mem, h.pending, h.rollback, h.file⟩

/-- Under a guard the router is safe. -/
theorem Armed.sound (h : Armed guard applyName s) : Sound start s where
  dominated := fun _ => .inl h.guarded
  importsKept := by
    intro row hrow hpending hne
    obtain rfl := h.only row hrow hpending
    exact .inl (h.file.resolve_left hne)

/-- Without a guard it is safe if the candidate is undone or has passed. -/
theorem Unguarded.sound (h : Unguarded s)
    (hconfig : s.config = .candidate → s.undo = some .previous ∨ Passed s) : Sound start s where
  dominated := fun hc => .inr (hconfig hc)
  importsKept := by
    intro row hrow hpending
    rw [h row hrow] at hpending
    cases hpending

/-- There is no guard. -/
theorem Unguarded.not_guarded (h : Unguarded s) : ¬ Guarded s := by
  rintro ⟨row, hrow, hpending, _⟩
  rw [h row hrow] at hpending
  cases hpending

/-- All schedulers of the name have the id that is found. -/
theorem ownedScheduler_eq_ok (h : ownedScheduler name rows = .ok found) :
    ∀ row ∈ rows, row.name = name → found = some row.id := by
  refine foldlM_eq_ok_induct
    (fun done found => ∀ row ∈ done, row.name = name → found = some row.id) ?_ (by simp) h
  intro done row found found' hdone hstep other hother hname
  split at hstep
  · next hne =>
    cases hstep
    rcases List.mem_append.mp hother with hmem | hmem
    · exact hdone other hmem hname
    · rw [List.mem_singleton.mp hmem] at hname
      exact absurd hname hne
  · split at hstep
    · cases hstep
    · next hnone =>
      split at hstep
      · cases hstep
      · cases hstep
        rcases List.mem_append.mp hother with hmem | hmem
        · -- a second row of the name would have been refused
          exact absurd (by rw [hdone other hmem hname]; rfl) hnone
        · rw [List.mem_singleton.mp hmem]

/-- Everything but the guards and the history is as before. -/
structure Framed (s s' : Router) : Prop where
  config : s'.config = s.config
  undo : s'.undo = s.undo
  resolve : s'.resolve = s.resolve
  history : s.history <+: s'.history

/-- How the removal of the guard can end. -/
inductive Disarm (guard : Scheduler) (applyName : String) (s s' : Router) :
    Except Err Unit → Prop where
  | removed (frame : Framed s s') (gone : Unguarded s') : Disarm guard applyName s s' (.ok ())
  | armed (e : Err) (frame : Framed s s') (armed : Armed guard applyName s') (quiet : Quiet s') :
      Disarm guard applyName s s' (.error e)
  | lost (e : Err) (frame : Framed s s') (gone : Unguarded s') (loud : ¬ Quiet s') :
      Disarm guard applyName s s' (.error e)

/-- The guard is removed, or it is still armed, or its removal has lost its response. -/
theorem disarmRollback_spec (h : Armed guard applyName s) :
    wp step (Sound start) (disarmRollback guard.name).run
      (fun r s' => Disarm guard applyName s s' r ∧ ¬ Mishap s'.history) s := by
  have hpattern : rollbackSchedulerNamePattern guard.name = true := by
    have hpending := h.pending
    simp only [Scheduler.pending, Bool.and_eq_true] at hpending
    exact hpending.1.1
  have hread : ∀ answer, Framed s (s.logged .listSchedulers answer) := fun answer =>
    ⟨rfl, rfl, rfl, List.prefix_append _ _⟩
  have hcalm : ∀ {t : Router} {answer : Answer},
      ¬ Mishap (t.logged .listSchedulers answer).history := not_mishap_of_call (by simp)
  have hquiet : ∀ {t : Router} {answer : Answer}, Quiet (t.logged .listSchedulers answer) :=
    quiet_logged (by simp)
  unfold disarmRollback
  rw [hpattern]
  simp only [Bool.not_true, Bool.false_eq_true, if_false]
  rw [wp_run_bind]
  have hfailed : ∀ answer e, Disarm guard applyName s (s.logged .listSchedulers answer)
      (.error e) := fun answer e => .armed e (hread answer) (armed_logged.mpr h) hquiet
  refine wp_request_some rfl h.sound ?_ (fun answer e _ => ⟨hfailed answer e, hcalm⟩)
    (fun e => ⟨hfailed _ e, hcalm⟩)
  simp only [either_ok]
  split
  · exact ⟨hfailed _ _, hcalm⟩
  · next hfound =>
    -- the guard itself has the name
    exact absurd (ownedScheduler_eq_ok hfound guard h.mem rfl) (by simp)
  · next id hfound =>
    have hid : guard.id = id :=
      (Option.some.inj (ownedScheduler_eq_ok hfound guard h.mem rfl)).symm
    set t := s.logged .listSchedulers .ok with ht
    have hframe : ∀ answer, Framed s
        ({ t with schedulers := t.schedulers.filter fun row => row.id ≠ id }.logged
          (.deleteScheduler id) answer) := fun answer =>
      ⟨rfl, rfl, rfl, by
        rw [Router.logged_history, ht, Router.logged_history, List.append_assoc]
        exact List.prefix_append _ _⟩
    have hgone : ∀ answer, Unguarded
        ({ t with schedulers := t.schedulers.filter fun row => row.id ≠ id }.logged
          (.deleteScheduler id) answer) := by
      intro answer row hrow
      obtain ⟨hmem, hne⟩ := List.mem_filter.mp hrow
      by_contra hpending
      rw [h.only row hmem (by simpa using hpending), hid] at hne
      simp at hne
    refine wp_request_some rfl (armed_logged.mpr h).sound
      ⟨.removed (hframe _) (hgone _), not_mishap_of_call (by simp)⟩ ?_ ?_
    · intro answer e hanswer
      refine ⟨.armed e ?_ (armed_logged.mpr (armed_logged.mpr h)) (quiet_logged_of_ne ?_),
        not_mishap_of_call (by simp)⟩
      · refine ⟨rfl, rfl, rfl, ?_⟩
        rw [Router.logged_history, ht, Router.logged_history, List.append_assoc]
        exact List.prefix_append _ _
      · rintro rfl
        cases hanswer
    · intro e
      refine ⟨.lost e (hframe _) (hgone _) ?_, not_mishap_of_call (by simp)⟩
      intro hq
      exact hq id (by rw [Router.logged_history, List.getLast?_concat])

/-- A lost response means an effect. -/
theorem not_mishap_of_lost : ¬ Mishap (s.logged call .lost).history := by
  rw [mishap_logged]
  exact fun h => nomatch h.2.1

/-- A success means an effect. -/
theorem not_mishap_of_ok : ¬ Mishap (s.logged call .ok).history := by
  rw [mishap_logged]
  exact fun h => nomatch h.2.1

/-- The script of the guard restores. -/
theorem effect_rollback (h : Armed guard applyName s) :
    Call.effect s (.runScript guard.script) = some { s with config := .previous } := by
  simp [Call.effect, h.rollback]

/-- Nothing is left to settle. -/
theorem effect_waitSettled (h : s.undo = none) : Call.effect s .waitSettled = some s := by
  simp [Call.effect, h]

/-- How a recovery under an armed guard can end. -/
structure Recovered (start : Router) (r : Except Err Unit) (s : Router) : Prop where
  sound : Sound start s
  calm : ¬ Mishap s.history
  restored : r = .ok () → s.config = .previous
  covered : Guarded s ∨ s.config = .previous

/-- Under an armed guard a failed recovery is covered. -/
theorem Armed.recovered (h : Armed guard applyName s) (hcalm : ¬ Mishap s.history) (e : Err) :
    Recovered start (.error e) s :=
  ⟨h.sound, hcalm, nofun, .inl h.guarded⟩

/-- With the previous configuration in place nothing can go wrong. -/
theorem Armed.restored (h : Armed guard applyName s) (hcalm : ¬ Mishap s.history)
    (hconfig : s.config = .previous) (r : Except Err Unit) : Recovered start r s :=
  ⟨h.sound, hcalm, fun _ => hconfig, .inr hconfig⟩

/-- The previous configuration needs no guard. -/
theorem Unguarded.restored (h : Unguarded s) (hcalm : ¬ Mishap s.history)
    (hconfig : s.config = .previous) (r : Except Err Unit) : Recovered start r s := by
  refine ⟨h.sound fun hc => ?_, hcalm, fun _ => hconfig, .inr hconfig⟩
  rw [hconfig] at hc
  cases hc

/-- Removing imports keeps a recovery. -/
theorem cleanupImports_spec (h : Unguarded s) (hcalm : ¬ Mishap s.history)
    (hconfig : s.config = .previous) (imports : List String) :
    wp step (Sound start) (cleanupImports imports).run (Recovered start) s := by
  unfold cleanupImports
  split
  · exact h.restored hcalm hconfig _
  · have hend : ∀ (t : Router) answer r, t.schedulers = s.schedulers → t.config = s.config →
        Recovered start r (t.logged (.removeImports imports) answer) := by
      intro t answer r hrows ht
      refine Unguarded.restored ?_ (not_mishap_of_call (by simp)) (ht.trans hconfig) r
      intro row hrow
      exact h row (hrows ▸ hrow)
    exact wp_request_some rfl (h.restored hcalm hconfig (.ok ())).sound (hend _ _ _ rfl rfl)
      (fun _ _ _ => hend _ _ _ rfl rfl) (fun _ => hend _ _ _ rfl rfl)

/-- The end of a recovery: the previous configuration is in place, the guard is removed. -/
theorem disarmAndCleanup_spec (h : Armed guard applyName s) (hconfig : s.config = .previous)
    (imports : List String) :
    wp step (Sound start) (do disarmRollback guard.name; cleanupImports imports : Action Unit).run
      (Recovered start) s := by
  rw [wp_run_bind]
  refine wp_mono (disarmRollback_spec h) fun r s' hdisarm => ?_
  obtain ⟨hdisarm, hcalm⟩ := hdisarm
  cases hdisarm with
  | removed frame gone => exact cleanupImports_spec gone hcalm (frame.config.trans hconfig) imports
  | armed e frame armed quiet => exact armed.restored hcalm (frame.config.trans hconfig) _
  | lost e frame gone loud => exact gone.restored hcalm (frame.config.trans hconfig) _

/-- A rollback under a guard recovers, or the guard stays. -/
theorem rollbackPrepared_spec (h : Armed guard applyName s) (hundo : s.undo = none)
    (hquiet : Quiet s) (imports : List String) :
    wp step (Sound start) (rollbackPrepared guard.script guard.name imports).run
      (Recovered start) s := by
  unfold rollbackPrepared
  have hprevious : Armed guard applyName { s with config := .previous } :=
    h.with_config .previous s.undo s.console
  rw [wp_run_bind]
  refine wp_request_some (effect_rollback h) h.sound ?_ ?_ ?_
  · -- the rollback has run
    simp only [either_ok]
    rw [wp_run_bind]
    have harmed : Armed guard applyName
        ({ s with config := .previous }.logged (.runScript guard.script) .ok) :=
      armed_logged.mpr hprevious
    refine wp_request_some (effect_waitSettled hundo) harmed.sound ?_ ?_ ?_
    · exact disarmAndCleanup_spec (armed_logged.mpr harmed) rfl imports
    · exact fun answer e _ => (armed_logged.mpr harmed).restored
        (not_mishap_of_call (by simp)) rfl _
    · exact fun e => (armed_logged.mpr harmed).restored (not_mishap_of_call (by simp)) rfl _
  · exact fun answer e _ => (armed_logged.mpr h).recovered (not_mishap_of_quiet hquiet) e
  · exact fun e => (armed_logged.mpr hprevious).restored not_mishap_of_lost rfl _

end SbGateway.RouterOS
