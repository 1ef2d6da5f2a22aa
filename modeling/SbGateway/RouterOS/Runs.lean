import SbGateway.RouterOS.Outcome

namespace SbGateway.RouterOS

open Lib
open Lib.Calls

/-!
# Whole transactions

Before the guard is armed only files, scripts and schedulers are touched (`Idle`); when it is
armed, both scripts can run (`armRollback_spec`).  With the parts of a guarded transaction this
gives what holds of every run of both entries.

* `truthful_iff` — a run that returns reports the truth exactly if it has met no mishap;
* `sound_run` — at every moment of every run, cut off or not, the guard dominates the candidate
  and its import is kept.
-/

/-! ### Before the guard -/

/-- The previous configuration is in place, and no import of a guard has been removed. -/
structure Idle (start s : Router) : Prop where
  config : s.config = .previous
  undo : s.undo = none
  kept : ImportsKept start s
  calm : ¬ Mishap s.history

variable {start s t : Router} {call : Call} {answer : Answer}

section

variable (h : Idle start s)
include h

/-- Before the guard nothing has changed. -/
theorem Idle.sound : Sound start s where
  dominated := by
    intro hc
    rw [h.config] at hc
    cases hc
  importsKept := h.kept

/-- Calls other than scripts change nothing. -/
theorem Idle.logged (hcall : ∀ name, call ≠ .runScript name) : Idle start (s.logged call answer) :=
  ⟨h.config, h.undo, h.kept, not_mishap_of_call hcall⟩

/-- A failure before the guard is reported truly. -/
theorem Idle.reported (result : Result) (e : Err) : Reported start (result, some e) s :=
  reported_of_covered h.sound h.calm (.inr h.config) fun _ => h.config

/-- A call of the preparation: it touches neither the configuration nor Safe Mode. -/
theorem wp_request_idle (heffect : call.effect s = some t) (ht : Idle start t)
    (hcall : ∀ name, call ≠ .runScript name)
    (hok : Idle start (t.logged call .ok) → Q (.ok (call.payload s)) (t.logged call .ok))
    (herr : ∀ e s', Idle start s' → Q (.error e) s') :
    wp step (Sound start) (request call).run Q s :=
  wp_request_some heffect h.sound (hok (ht.logged hcall))
    (fun _ _ _ => herr _ _ (h.logged hcall)) (fun _ => herr _ _ (ht.logged hcall))

/-- The check finds no armed guard, or fails. -/
theorem ensureNoPendingRollbackGuard_spec
    (hok : Unguarded s → Idle start (s.logged .listSchedulers .ok) →
      Q (.ok ()) (s.logged .listSchedulers .ok)) (herr : ∀ e s', Idle start s' → Q (.error e) s') :
    wp step (Sound start) ensureNoPendingRollbackGuard.run Q s := by
  unfold ensureNoPendingRollbackGuard
  rw [wp_run_bind]
  refine wp_request_idle h rfl h (by simp) (fun hs => ?_) herr
  show wp step (Sound start)
    (if s.schedulers.any Scheduler.pending = true then throw .guardPending
      else pure () : Action Unit).run _ _
  split
  · exact herr _ _ hs
  · next hany =>
    refine hok (fun row hrow => ?_) hs
    by_contra hpending
    exact hany (List.any_eq_true.mpr ⟨row, hrow, by simpa using hpending⟩)

/-- Imports are removed only without a guard. -/
theorem cleanupUnarmedImports_spec (imports : List String) :
    wp step (Sound start) (cleanupUnarmedImports imports).run (fun _ s' => Idle start s') s := by
  unfold cleanupUnarmedImports
  rw [wp_run_bind, wp_run_lift]
  refine ensureNoPendingRollbackGuard_spec h (fun hgone hs => ?_) fun e s' hs => hs
  -- no guard is armed, so that no import is needed
  refine wp_request_idle hs rfl ⟨h.config, h.undo, ?_, hs.calm⟩ (by simp) (fun ht => ht)
    fun e s' hs => hs
  intro row hrow hpending
  have hfalse := hgone row hrow
  rw [hfalse] at hpending
  cases hpending

end

/-! ### Names and entries -/

variable {name other : String} {value : α}

/-- The new entry is found. -/
@[simp] theorem lookup_put_self (entries : List (String × α)) (name : String) (value : α) :
    (Router.put entries name value).lookup name = some value := by
  simp [Router.put]

/-- The other entries stay. -/
theorem lookup_put_of_ne (h : other ≠ name) :
    (Router.put entries name value).lookup other = entries.lookup other := by
  have hhead : (other == name) = false := by simpa using h
  unfold Router.put
  rw [List.lookup_cons, hhead]
  induction entries with
  | nil => rfl
  | cons entry rest ih =>
    obtain ⟨key, v⟩ := entry
    by_cases hkey : key = name
    · have hne : (other == key) = false := by
        rw [hkey]
        exact hhead
      rw [List.filter_cons_of_neg (by simpa using hkey), List.lookup_cons, hne]
      exact ih
    · rw [List.filter_cons_of_pos (by simpa using hkey), List.lookup_cons, List.lookup_cons]
      cases other == key with
      | true => rfl
      | false => exact ih

/-- The name of a guard is recognised. -/
theorem rollbackSchedulerNamePattern_guardName (nonce : BitVec 32) :
    rollbackSchedulerNamePattern (guardName nonce) = true := by
  have hdigit : ∀ d < 16, (('0' ≤ d.digitChar && d.digitChar ≤ '9') ||
      ('a' ≤ d.digitChar && d.digitChar ≤ 'f')) = true := by decide
  unfold rollbackSchedulerNamePattern guardName
  rw [String.toList_ofList, List.drop_left, List.length_map, List.length_range]
  simp only [List.isPrefixOf_iff_prefix, List.prefix_append, beq_self_eq_true, List.all_map,
    List.all_eq_true, Function.comp_apply, Bool.and_eq_true, true_and]
  intro i _
  exact hdigit _ (Nat.mod_lt _ (by omega))

/-- The role is part of a managed name. -/
theorem managedName_ne (a b : String) : "SB-GATEWAY-" ++ Role.rollback.text ++ "-" ++ a ≠
    "SB-GATEWAY-" ++ Role.apply.text ++ "-" ++ b := by
  intro h
  have hlist := congrArg String.toList h
  simp [Role.text] at hlist

/-! ### Arming -/

variable {applyName script managedImport : String}

/-- Both scripts can run, and the import of the guard is there. -/
structure Prepared (script applyName managedImport : String) (s : Router) : Prop where
  rollback : s.resolve script = some .previous
  apply : s.resolve applyName = some .candidate
  file : managedImport = "" ∨ s.hasFile managedImport

/-- The guard is armed, or nothing has changed. -/
theorem armRollback_spec (nonce : BitVec 32)
    (h : Idle start s) (hprepared : Prepared script applyName managedImport s)
    (hok : ∀ guard s', guard.name = guardName nonce → guard.script = script →
      Armed guard applyName s' → s'.config = .previous → s'.undo = none →
        Q (.ok guard.name) s')
    (herr : ∀ e s', Idle start s' → Q (.error e) s') :
    wp step (Sound start) (armRollback nonce script managedImport).run Q s := by
  unfold armRollback
  rw [wp_run_bind]
  refine ensureNoPendingRollbackGuard_spec h (fun hgone h₁ => ?_) herr
  simp only [either_ok]
  rw [wp_run_bind]
  refine wp_request_idle h₁ rfl h₁ (by simp) (fun h₂ => ?_) herr
  simp only [either_ok]
  rw [wp_run_bind, wp_run_lift]
  set t := (s.logged .listSchedulers .ok).logged .readClock .ok
  set guard : Scheduler :=
    ⟨t.nextID, guardName nonce, rollbackSchedulerComment, some 0, script, managedImport⟩
  set u := { t with schedulers := t.schedulers ++ [guard], nextID := t.nextID + 1 }
  have hpending : guard.pending = true := by
    simp [Scheduler.pending, guard, rollbackSchedulerNamePattern_guardName]
  have harmed : Armed guard applyName u := by
    refine ⟨List.mem_append_right _ (List.mem_singleton.mpr rfl), hpending, ?_,
      hprepared.rollback, hprepared.apply, hprepared.file⟩
    intro row hrow hrowPending
    rcases List.mem_append.mp hrow with hold | hnew
    · have hfalse := hgone row hold
      rw [hfalse] at hrowPending
      cases hrowPending
    · exact List.mem_singleton.mp hnew
  have hu : Idle start u := ⟨h.config, h.undo, harmed.sound.importsKept, h₂.calm⟩
  refine wp_request_idle h₂ rfl hu (by simp) (fun _ => ?_) fun e s' hs' => ?_
  · exact hok guard _ rfl rfl (armed_logged.mpr harmed) h.config h.undo
  · show wp step (Sound start) (if e.definitiveRejection then throw e
      else throw (.join .guardUnconfirmed e) : Action String).run Q s'
    split <;> exact herr _ _ hs'

/-! ### The transaction -/

section Transaction

variable {start s : Router} {guard : Scheduler} {applyName : String} {result : Result}

/-- A transaction under a guard is reported truly. -/
theorem applyPrepared_spec (h : Armed guard applyName s) (hconfig : s.config = .previous)
    (hundo : s.undo = none) (hscript : result.rollbackScript = guard.script)
    (happly : result.applyScript = applyName) (options : Options) (imports : List String) :
    wp step (Sound start) (applyPrepared result guard.name options imports) (Reported start) s := by
  have hgo : ∀ t, Armed guard applyName t → t.config = .previous → t.undo = none →
      wp step (Sound start) (if options.schedulerGuardOnly then
          applyWithSchedulerGuard { result with guardMode := "rollback_scheduler" } guard.name
            options imports
        else applyInSafeMode result guard.name options imports) (Reported start) t := by
    intro t ht hconfig hundo
    split
    · refine applyWithSchedulerGuard_spec ht hundo ?_ ?_ options imports
      · exact hscript
      · exact happly
    · exact applyInSafeMode_spec ht hconfig hundo hscript happly options imports
  have hfailed : ∀ answer e, wp step (Sound start) (do
      let recovery ← (rollbackPrepared result.rollbackScript guard.name imports).run
      return (result, some (guardedFailure "RouterOS pre-apply runtime guard failed" e recovery)))
        (Reported start) (s.logged .beforeApply answer) := fun answer e =>
    rollbackPrepared_reported (armed_logged.mpr h) hundo (quiet_logged (by simp)) hscript imports
      _ e
  unfold applyPrepared Options.runBeforeApply
  rw [wp_bind]
  split
  · exact wp_request_some rfl h.sound (hgo _ (armed_logged.mpr h) hconfig hundo)
      (fun answer e _ => hfailed answer _) (fun e => hfailed _ _)
  · exact hgo s h hconfig hundo

variable (env : Env)

/-- Uploads keep the imports of armed guards. -/
theorem Idle.upload (h : Idle start s) (name : String) (content : Generation) :
    Idle start { s with files := Router.put s.files name content } := by
  refine ⟨h.config, h.undo, ?_, h.calm⟩
  intro row hrow hpending hne
  refine (h.kept row hrow hpending hne).imp_left fun hfile => ?_
  show ((Router.put s.files name content).lookup row.managedImport).isSome = true
  by_cases heq : row.managedImport = name
  · rw [heq, lookup_put_self]
    rfl
  · rw [lookup_put_of_ne heq]
    exact hfile

/-- The file is there, or nothing has changed. -/
theorem uploadCandidate_spec (role : Role) (source : String) (h : Idle start s)
    (hok : ∀ s', Idle start s' →
      s'.files = Router.put s.files (managedImportName env role source) role.generation →
        Q (.ok (managedImportName env role source)) s')
    (herr : ∀ e s', Idle start s' → Q (.error e) s') :
    wp step (Sound start) (uploadCandidate env role source).run Q s := by
  unfold uploadCandidate
  split
  · exact herr _ _ h
  · rw [wp_run_bind]
    exact wp_request_idle h rfl (h.upload _ _) (by simp) (fun hs => hok _ hs rfl) herr

/-- The script is there, or nothing has changed. -/
theorem installScript_spec {Q : Except Err Unit → Router → Prop} (name : String) (body : Body)
    (h : Idle start s) (hok : ∀ s', Idle start s' → s'.files = s.files →
      s'.scripts = Router.put s.scripts name body → Q (.ok ()) s')
    (herr : ∀ e s', Idle start s' → Q (.error e) s') :
    wp step (Sound start) (request (.installScript name body)).run Q s :=
  wp_request_idle h rfl { h with } (by simp) (fun hs => hok _ hs rfl rfl)
    herr

/-- A failure before the guard removes the imports. -/
theorem cleanup_reported (h : Idle start s) (imports : List String) (result : Result) (e : Err) :
    wp step (Sound start) (do
      let cleaned ← (cleanupUnarmedImports imports).run
      return (result, some (e.joined cleaned))) (Reported start) s := by
  rw [wp_bind]
  exact wp_mono (cleanupUnarmedImports_spec h imports) fun r s' hs => hs.reported _ _

/-- So is the script of an import. -/
theorem prepareImportScript_spec (role : Role) (importName : String) (h : Idle start s)
    (hok : ∀ name s', name = managedScriptName env role
        ("/import file-name=\"" ++ importName ++ "\" verbose=no") → Idle start s' →
      s'.files = s.files → s'.scripts = Router.put s.scripts name (.importFile importName) →
        Q (.ok name) s')
    (herr : ∀ e s', Idle start s' → Q (.error e) s') :
    wp step (Sound start) (prepareImportScript env role importName).run Q s := by
  unfold prepareImportScript
  simp only
  rw [wp_run_bind]
  exact installScript_spec _ _ h (fun s' hs hfiles hscripts => hok _ s' rfl hs hfiles hscripts) herr

/-- A transaction with imports is reported truly. -/
theorem applyCandidate_spec (nonce : BitVec 32) (applySource rollbackSource : String)
    (options : Options) (h : Idle start s) :
    wp step (Sound start) (applyCandidate env nonce applySource rollbackSource options)
      (Reported start) s := by
  unfold applyCandidate
  split
  · exact h.reported _ _
  rw [wp_bind]
  refine ensureNoPendingRollbackGuard_spec h (fun _ h₁ => ?_) fun e s' hs => hs.reported _ _
  simp only
  rw [wp_bind]
  refine uploadCandidate_spec env .rollback rollbackSource h₁ (fun s₂ h₂ hfiles₂ => ?_)
    fun e s' hs => hs.reported _ _
  simp only
  rw [wp_bind]
  refine uploadCandidate_spec env .apply applySource h₂ (fun s₃ h₃ hfiles₃ => ?_)
    fun e s' hs => cleanup_reported hs _ _ _
  simp only
  rw [wp_bind]
  refine prepareImportScript_spec env .rollback _ h₃
    (fun rollbackName s₄ hrollbackName h₄ hfiles₄ hscripts₄ => ?_)
    fun e s' hs => cleanup_reported hs _ _ _
  simp only
  rw [wp_bind]
  refine prepareImportScript_spec env .apply _ h₄
    (fun applyName s₅ happlyName h₅ hfiles₅ hscripts₅ => ?_)
    fun e s' hs => cleanup_reported hs _ _ _
  simp only
  rw [wp_bind]
  -- both files and both scripts are in place: the names of the roles differ
  have hnames : rollbackName ≠ applyName := by
    rw [hrollbackName, happlyName]
    exact managedName_ne _ _
  have himports : managedImportName env .rollback rollbackSource ≠
      managedImportName env .apply applySource := by
    have hsplit : ∀ role source, managedImportName env role source =
        "SB-GATEWAY-" ++ role.text ++ "-" ++ (env.digest source ++ ".rsc") :=
      fun _ _ => String.append_assoc ..
    rw [hsplit, hsplit]
    exact managedName_ne _ _
  have hprepared : Prepared rollbackName applyName
      (managedImportName env .rollback rollbackSource) s₅ := by
    have hrollbackFile : s₅.files.lookup (managedImportName env .rollback rollbackSource) =
        some .previous := by
      rw [hfiles₅, hfiles₄, hfiles₃, lookup_put_of_ne himports, hfiles₂, lookup_put_self]
      rfl
    have happlyFile : s₅.files.lookup (managedImportName env .apply applySource) =
        some .candidate := by
      rw [hfiles₅, hfiles₄, hfiles₃, lookup_put_self]
      rfl
    refine ⟨?_, ?_, .inr (by rw [Router.hasFile, hrollbackFile]; rfl)⟩
    · unfold Router.resolve
      rw [hscripts₅, lookup_put_of_ne hnames, hscripts₄, lookup_put_self]
      exact hrollbackFile
    · unfold Router.resolve
      rw [hscripts₅, lookup_put_self]
      exact happlyFile
  refine armRollback_spec nonce h₅ hprepared (fun guard s₆ _ hscript harmed hconfig hundo => ?_)
    fun e s' hs => ?_
  · refine applyPrepared_spec harmed hconfig hundo ?_ ?_ options _
    · exact hscript.symm
    · rfl
  · simp only
    split
    · exact hs.reported _ _
    · exact cleanup_reported hs _ _ _

/-- The script of a delta is there. -/
theorem prepareDirectDelta_spec (role : Role) (source : String) (h : Idle start s)
    (hok : ∀ s', Idle start s' →
      s'.scripts = Router.put s.scripts (managedScriptName env role source)
        (.delta role.generation) → Q (.ok (managedScriptName env role source)) s')
    (herr : ∀ e s', Idle start s' → Q (.error e) s') :
    wp step (Sound start) (prepareDirectDelta env role source).run Q s := by
  unfold prepareDirectDelta
  split
  · exact herr _ _ h
  · rw [wp_run_bind]
    exact installScript_spec _ _ h (fun s' hs _ hscripts => hok s' hs hscripts) herr

/-- A transaction with a delta is reported truly. -/
theorem applyDelta_spec (nonce : BitVec 32) (applySource rollbackSource : String)
    (options : Options) (h : Idle start s) :
    wp step (Sound start) (applyDelta env nonce applySource rollbackSource options)
      (Reported start) s := by
  unfold applyDelta
  split
  · -- large deltas are uploaded
    split
    · exact h.reported _ _
    · exact applyCandidate_spec env nonce applySource rollbackSource options h
  split
  · exact h.reported _ _
  rw [wp_bind]
  refine prepareDirectDelta_spec env .rollback rollbackSource h (fun s₁ h₁ hscripts₁ => ?_)
    fun e s' hs => hs.reported _ _
  simp only
  rw [wp_bind]
  refine prepareDirectDelta_spec env .apply applySource h₁ (fun s₂ h₂ hscripts₂ => ?_)
    fun e s' hs => hs.reported _ _
  simp only
  rw [wp_bind]
  have hprepared : Prepared (managedScriptName env .rollback rollbackSource)
      (managedScriptName env .apply applySource) "" s₂ := by
    have hnames : managedScriptName env .rollback rollbackSource ≠
        managedScriptName env .apply applySource := managedName_ne _ _
    refine ⟨?_, ?_, .inl rfl⟩
    · unfold Router.resolve
      rw [hscripts₂, lookup_put_of_ne hnames, hscripts₁, lookup_put_self]
      rfl
    · unfold Router.resolve
      rw [hscripts₂, lookup_put_self]
      rfl
  refine armRollback_spec nonce h₂ hprepared (fun guard s₃ _ hscript harmed hconfig hundo => ?_)
    fun e s' hs => hs.reported _ _
  refine applyPrepared_spec harmed hconfig hundo ?_ ?_ options _
  · exact hscript.symm
  · rfl

end Transaction

/-! ### All runs -/

/-- The two entries of a transaction. -/
inductive Entry where
  | delta
  | candidate
  deriving DecidableEq, Repr

/-- A transaction through one of its entries. -/
def transact (env : Env) (entry : Entry) (nonce : BitVec 32) (applySource rollbackSource : String)
    (options : Options) : Program Outcome :=
  match entry with
  | .delta => applyDelta env nonce applySource rollbackSource options
  | .candidate => applyCandidate env nonce applySource rollbackSource options

section AllRuns

variable (env : Env) (entry : Entry) (nonce : BitVec 32) (applySource rollbackSource : String)
  (options : Options) {start : Router}

/-- A fresh router is idle. -/
theorem Fresh.idle (h : Fresh start) : Idle start start where
  config := h.config
  undo := h.undo
  kept := by
    intro row hrow _ _
    by_cases hfile : start.hasFile row.managedImport
    · exact .inl hfile
    · exact .inr ⟨hrow, hfile⟩
  calm := by
    rw [h.history]
    rintro ⟨before, id, name, answer, _, heq⟩
    simp at heq

/-- Both entries are reported truly. -/
theorem transact_spec (h : Fresh start) :
    wp step (Sound start) (transact env entry nonce applySource rollbackSource options)
      (Reported start) start := by
  cases entry with
  | delta => exact applyDelta_spec env nonce applySource rollbackSource options h.idle
  | candidate => exact applyCandidate_spec env nonce applySource rollbackSource options h.idle

/-- **Truthful reports.** A run that returns reports the truth exactly if it has met no mishap:
    the removal of a guard that takes effect with a lost response, followed by a rollback that is
    not carried out. -/
theorem truthful_iff (h : Fresh start) {answers : List Answer} {out : Outcome} {s : Router}
    (hrun : (transact env entry nonce applySource rollbackSource options).run step answers start =
      (some out, s)) :
    Truthful out s ↔ ¬ Mishap s.history := by
  have hreported := (run_of_wp
    (transact_spec env entry nonce applySource rollbackSource options h) answers).1
  rw [hrun] at hreported
  exact (hreported out rfl).truthful_iff

/-- RouterOS without any managed object. -/
def blankRouter : Router where
  config := .previous
  undo := none
  console := false
  overLimit := false
  scripts := []
  files := []
  schedulers := []
  nextID := 1
  history := []

/-- Every source is valid. -/
def lenientEnv : Env where
  digest _ := "0123456789ab"
  validateDirectDelta _ := none
  validateImportedDelta _ := none
  validateUpload _ := none

/-- A small delta under the scheduler's guard alone. -/
def smallDelta : Program Outcome :=
  transact lenientEnv .delta 0 "apply" "rollback"
    { healthCheck := true, beforeApply := false, finalize := false, schedulerGuardOnly := true }

/-- The hypotheses can be met. -/
theorem blankRouter_fresh : Fresh blankRouter := ⟨rfl, rfl, rfl⟩

/-- The removal of the guard loses its response, and the rollback cannot be started: recovery is
    reported as pending although the candidate is in effect and no guard is left. -/
theorem lostDisarm_not_truthful :
    ∃ out s, smallDelta.run step [.ok, .ok, .ok, .ok, .ok, .ok, .ok, .ok, .lost, .unreached]
        blankRouter = (some out, s) ∧
      out.2.bind Err.state = some .recoveryPending ∧ s.config = .candidate ∧ s.schedulers = [] ∧
      ¬ Truthful out s := by
  refine ⟨_, _, rfl, rfl, rfl, rfl, ?_⟩
  intro h
  rcases h.recoveryPending _ rfl rfl with ⟨row, hrow, _⟩ | hconfig
  · cases hrow
  · cases hconfig

/-- A transaction all of whose calls succeed. -/
theorem smallDelta_truthful :
    ∃ out s, smallDelta.run step (List.replicate 9 .ok) blankRouter = (some out, s) ∧
      out.2 = none ∧ Truthful out s := by
  obtain ⟨out, s, hrun, hnone, hcalm⟩ : ∃ out s,
      smallDelta.run step (List.replicate 9 .ok) blankRouter = (some out, s) ∧
        out.2 = none ∧ ¬ Mishap s.history := ⟨_, _, rfl, rfl, not_mishap_of_ok⟩
  have htruthful := truthful_iff lenientEnv .delta 0 "apply" "rollback" _ blankRouter_fresh hrun
  exact ⟨out, s, hrun, hnone, htruthful.mpr hcalm⟩

/-- **Guard dominance.** At every moment of every run, cut off by a crash or not, the candidate is
    in effect only under an armed guard that can run, inside Safe Mode, or after its health check,
    and the import of an armed guard is not removed. -/
theorem sound_run (h : Fresh start) (answers : List Answer) :
    Sound start ((transact env entry nonce applySource rollbackSource options).run step answers
      start).2 := by
  obtain ⟨hreturned, hcut⟩ := run_of_wp
    (transact_spec env entry nonce applySource rollbackSource options h) answers
  cases hrun : ((transact env entry nonce applySource rollbackSource options).run step answers
      start).1 with
  | none => exact hcut hrun
  | some out => exact (hreturned out hrun).sound

/-- Also when the transaction is cut off right after the candidate has run. -/
theorem smallDelta_sound :
    (smallDelta.run step (List.replicate 6 .ok) blankRouter).2.config = .candidate ∧
      Sound blankRouter (smallDelta.run step (List.replicate 6 .ok) blankRouter).2 :=
  ⟨rfl, sound_run lenientEnv .delta 0 "apply" "rollback" _ blankRouter_fresh _⟩

end AllRuns

end SbGateway.RouterOS
