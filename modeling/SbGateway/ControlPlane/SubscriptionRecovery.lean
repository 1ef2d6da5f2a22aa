import SbGateway.ControlPlane.CommitPoint
import SbGateway.ControlPlane.SubscriptionRuntime

namespace SbGateway.ControlPlane.Subscription

open Lib
open Lib.Calls
open RuntimeConfig.Endpoints

/-!
# The recovery of an activation

A recovery reads what the commit point names and installs it.  It may be cut off at any call, and
it may be repeated.

* `Named` — what the commit point names;
* `During` — the worlds that a recovery can leave, complete or not;
* `Recovered` — the world of a recovery that has succeeded;
* `activatePendingSubscription_spec` — every call of a recovery is made `During` it, and a
  successful one has `Recovered`.
-/

variable {γ ν : Type}

/-! ### The commit point -/

/-- The configuration and the nodes that the commit point names. -/
def Named (store : Store γ ν) (candidate : Candidate γ ν) : Prop :=
  ∃ document snapshot, store (.pointer .active) = .holds document ∧
    store (.generation (document.text "revision")) = .holds candidate.config ∧
    store (.snapshot (snapshotRevision document)) = .holds snapshot ∧
    snapshot.nodes = candidate.nodes

/-- The journal says that an activation is not finished, and whether it changes endpoints. -/
def Pending (store : Store γ ν) (changed : Bool) : Prop :=
  ∃ journal, store (.journal .subscriptionRuntime) = .holds journal ∧
    Document.isTrue journal "pending" = true ∧
    Document.isTrue journal "endpoints_changed" = changed

/-- The copies of the commit point and the journal are not part of what is committed. -/
def SameCommit (store' store : Store γ ν) : Prop :=
  ∀ path, path ≠ .journal .subscriptionRuntime →
    (∀ name, name ≠ .active → path ≠ .pointer name) → store' path = store path

theorem SameCommit.named (h : SameCommit store' store) (candidate : Candidate γ ν) :
    Named store' candidate ↔ Named store candidate := by
  have hactive : store' (.pointer .active) = store (.pointer .active) :=
    h _ (by simp) fun name hname heq => hname (by simpa using heq.symm)
  have hgeneration : ∀ revision, store' (.generation revision) = store (.generation revision) :=
    fun revision => h _ (by simp) fun _ _ => by simp
  have hsnapshot : ∀ revision, store' (.snapshot revision) = store (.snapshot revision) :=
    fun revision => h _ (by simp) fun _ _ => by simp
  simp only [Named, hactive, hgeneration, hsnapshot]

/-! ### The worlds of a recovery -/

variable (server : Server γ ν)

/-- The endpoints of the candidate, if they can be found. -/
def endpointsOf (candidate : Candidate γ ν) : Except String (List String) :=
  routerOSEndpointBypass server.source candidate.config candidate.nodes

/-- Nothing but copies of the commit point has changed. -/
structure Idle (w w' : World γ ν) : Prop where
  runtime : w'.runtime = w.runtime
  bypass : w'.bypass = w.bypass
  commit : SameCommit w'.store w.store
  journal : w'.store (.journal .subscriptionRuntime) = w.store (.journal .subscriptionRuntime)

/-- The candidate is installed, and the bypass list is exactly the one for it if it is to change. -/
structure Reached (candidate : Candidate γ ν) (changed : Bool) (w w' : World γ ν) : Prop where
  runtime : w'.runtime = candidate
  pruned : changed = true →
    ∃ endpoints, endpointsOf server candidate = .ok endpoints ∧ w'.bypass = endpoints.toFinset
  kept : changed = false → w'.bypass = w.bypass

/-- How far a recovery has come. -/
inductive Stage (candidate : Candidate γ ν) (changed : Bool) (w w' : World γ ν) : Prop where
  /-- The old runtime is there, or is back. -/
  | before (runtime : w'.runtime = w.runtime) (grown : w.bypass ⊆ w'.bypass)
      (kept : changed = false → w'.bypass = w.bypass)
      (journal : w'.store (.journal .subscriptionRuntime) =
        w.store (.journal .subscriptionRuntime))
  /-- The new runtime is there, with the endpoints of both. -/
  | installed (runtime : w'.runtime = candidate)
      (grown : changed = true → ∃ endpoints, endpointsOf server candidate = .ok endpoints ∧
        w'.bypass = w.bypass ∪ endpoints.toFinset)
      (kept : changed = false → w'.bypass = w.bypass)
      (journal : w'.store (.journal .subscriptionRuntime) =
        w.store (.journal .subscriptionRuntime))
  /-- The bypass list has been reduced, and the journal may be empty. -/
  | reached (reached : Reached server candidate changed w w')
      (journal : w'.store (.journal .subscriptionRuntime) =
          w.store (.journal .subscriptionRuntime) ∨
        w'.store (.journal .subscriptionRuntime) = .holds [])

/-- What a recovery can leave. -/
structure During (w w' : World γ ν) : Prop where
  commit : SameCommit w'.store w.store
  stage : Idle w w' ∨ ∃ candidate changed, Named w.store candidate ∧ Pending w.store changed ∧
    Stage server candidate changed w w'

/-- What a successful recovery leaves. -/
structure Recovered (w w' : World γ ν) : Prop where
  commit : SameCommit w'.store w.store
  reached : ∃ candidate changed, Named w.store candidate ∧ Pending w.store changed ∧
    Reached server candidate changed w w'
  journal : w'.store (.journal .subscriptionRuntime) = .holds []

variable {server} {w w' : World γ ν}

theorem Idle.refl (w : World γ ν) : Idle w w := ⟨rfl, rfl, fun _ _ _ => rfl, rfl⟩

theorem Idle.during (h : Idle w w') : During server w w' := ⟨h.commit, .inl h⟩

/-! ### Rules -/

/-- The result of a part that may fail. -/
def unlessFailed : Option Err → Except Err Unit
  | some e => .error e
  | none => .ok ()

section Rules

variable {I : World γ ν → Prop}

theorem wp_orStop {Q : Except Err α → World γ ν → Prop} :
    wp step I (orStop program).run Q w ↔ wp step I program (fun r => Q (r.mapError .file)) w :=
  wp_bind

theorem wp_orFail :
    wp step I (orFail program).run Q w ↔ wp step I program (fun r => Q (unlessFailed r)) w := by
  refine wp_bind.trans ⟨fun h => wp_mono h ?_, fun h => wp_mono h ?_⟩ <;>
    rintro (_ | e) w' h <;> exact h

theorem wp_readStore : wp step I (inStore (readJSON path)) Q w ↔
      I w ∧ Q (w.store path).reply w ∧ Q (.error .failed) w :=
  (wp_embed storePart _ _ _).trans wp_read

/-- The list is as before, which is no failure only if it need not change, or it is as asked. -/
theorem syncWhenChanged_spec (hw : I w) :
    wp step I (syncWhenChanged changed values prune) (fun r w' =>
      (w' = w ∧ (r = none → changed = false)) ∨
        (changed = true ∧ w' = w.sync values prune)) w := by
  unfold syncWhenChanged
  cases changed with
  | false => exact .inl ⟨rfl, fun _ => rfl⟩
  | true =>
    refine ⟨hw, fun ending => ?_⟩
    cases ending with
    | done | lost => exact .inr ⟨rfl, rfl⟩
    | refused => exact .inl ⟨rfl, nofun⟩

/-- The files are the old ones or the new ones, and without an error the new ones. -/
theorem activateSubscription_spec (hw : I w) (hnew : I (w.setRuntime candidate)) :
    wp step I (activateSubscription candidate) (fun r w' =>
      w' = w.setRuntime candidate ∨ (w' = w ∧ r.2 ≠ none)) w := by
  refine ⟨hw, forall_ending.mpr ⟨?_, .inr ⟨rfl, by simp⟩, .inr ⟨rfl, by simp⟩⟩⟩
  -- the restoration after a failed publication
  have hrestore : ∀ world, I world → world = w ∨ world = w.setRuntime candidate →
      wp step I (do
        let restored ← restoreFiles w.runtime
        return (none, Err.joined (some (.file .failed)) (failure (restored.mapError .file))))
      (fun (r : Receipt γ ν × Option Err) w' =>
        w' = w.setRuntime candidate ∨ (w' = w ∧ r.2 ≠ none)) world := by
    rintro world hworld (rfl | rfl)
    · refine ⟨hworld, fun ending => .inr ?_⟩
      cases ending <;> exact ⟨rfl, nofun⟩
    · refine ⟨hworld, forall_ending.mpr ⟨.inr ⟨rfl, ?_⟩, .inl rfl, .inr ⟨rfl, ?_⟩⟩⟩ <;>
        exact nofun
  refine ⟨hw, forall_ending.mpr ⟨?_, hrestore _ hw (.inl rfl), hrestore _ hnew (.inr rfl)⟩⟩
  exact ⟨hnew, fun ending => .inl rfl⟩

theorem saveJournal_spec (hw : I w) :
    wp step I (saveJournal document) (fun r w' => (w' = w ∧ r ≠ .ok ()) ∨
      w' = w.setStore (w.store.set (.journal .subscriptionRuntime) (.holds document))) w := by
  refine ⟨hw, forall_ending.mpr ⟨.inr rfl, .inl ⟨rfl, ?_⟩, .inr rfl⟩⟩
  exact nofun

end Rules

/-! ### What is committed -/

theorem loadGeneration_found {I : Store γ ν → Prop} (hs : I s) (revision : String) :
    wp fileStep I (loadGeneration env revision) (fun r t => t = s ∧
      ∀ config, r = .ok config → s (.generation revision) = .holds config) s := by
  unfold loadGeneration
  split
  · exact ⟨rfl, by simp⟩
  · refine wp_bind.mpr (wp_read.mpr ⟨hs, ⟨rfl, fun config h => ?_⟩, rfl, ?_⟩)
    · cases hfile : s (.generation revision) with
      | absent | unreadable => rw [hfile] at h; cases h
      | holds value =>
        rw [hfile] at h
        simp only [File.reply, checkGeneration] at h
        split at h
        · cases h
          rfl
        · cases h
    · intro _ h
      cases h

theorem idle_copyCall (hrequest : CopyCall request) (h : Idle w s) :
    Idle w (step (.store request) ending s).2 := by
  have hother : ∀ path, (∀ name, name ≠ .active → path ≠ .pointer name) →
      (step (.store request) ending s).2.store path = s.store path :=
    fun path hpath => copyCall_other hrequest hpath
  refine ⟨h.runtime, h.bypass, fun path hjournal hpath => ?_, ?_⟩
  · rw [hother path hpath]
    exact h.commit path hjournal hpath
  · rw [hother _ fun _ _ => by simp]
    exact h.journal

theorem reconcile_idle (w : World γ ν) :
    wp step (Idle w) (inStore (reconcileCommitPointers server.repository))
      (fun r w' => Idle w w' ∧ (r = none → CopiesAgree w'.store)) w := by
  have hcalls : Only (fun op => ∃ request, op = Call.store request ∧ CopyCall request)
      (inStore (reconcileCommitPointers server.repository)) :=
    only_embed (only_mono only_reconcileCommitPointers fun request h => ⟨request, rfl, h⟩)
  have hidle : wp step (Idle w) (inStore (reconcileCommitPointers server.repository))
      (fun _ => Idle w) w := by
    refine wp_of_only hcalls ?_ (Idle.refl w)
    rintro _ ending s ⟨request, rfl, hrequest⟩ hs
    exact idle_copyCall hrequest hs
  have hagree : wp step (fun _ => True) (inStore (reconcileCommitPointers server.repository))
      (fun r w' => r = none → CopiesAgree w'.store) w :=
    (wp_embed storePart _ _ _).mpr (wp_mono reconcileCommitPointers_spec fun _ _ h => h.2)
  exact wp_and hidle hagree

theorem checkSnapshot_ok (h : checkSnapshot server metadata reply = .ok nodes) :
    ∃ snapshot, reply = .ok snapshot ∧ snapshot.nodes = nodes := by
  match reply with
  | .error .notExist | .error .failed => cases h
  | .ok snapshot =>
    simp only [checkSnapshot] at h
    split at h
    · cases h
    · split at h
      · cases h
      · cases h
        exact ⟨snapshot, rfl, rfl⟩

/-- A copy that is read after a repair is the commit point. -/
theorem copy_of_agree
    (hagree : CopiesAgree store) (hactive : store (.pointer .active) = .holds document)
    (hread : readDocument (store (.pointer .applyMetadata)).reply = .ok metadata) :
    metadata = document := by
  rw [(hagree document hactive).2] at hread
  cases hread
  rfl

/-- What is loaded is what the commit point names. -/
theorem loadCommitted_spec (hactive : w.store (.pointer .active) = .holds document) :
    wp step (Idle w) (loadCommitted server).run (fun r w' => Idle w w' ∧
      ∀ candidate, r = .ok (some candidate) → Named w.store candidate) w := by
  refine wp_run_bind.mpr (wp_orFail.mpr (wp_mono (reconcile_idle w) ?_))
  rintro (_ | e) w₁ ⟨hidle, hagree⟩
  case some => exact ⟨hidle, nofun⟩
  have hactive₁ : w₁.store (.pointer .active) = .holds document := by
    rw [hidle.commit _ (by simp) fun name hname heq => hname (by simpa using heq.symm), hactive]
  refine wp_run_bind.mpr (wp_orStop.mpr (wp_bind.mpr
    (wp_readStore.mpr ⟨hidle, ?_, hidle, nofun⟩)))
  show either _ _ ((readDocument (w₁.store (.pointer .applyMetadata)).reply).mapError Err.file) w₁
  cases hread : readDocument (w₁.store (.pointer .applyMetadata)).reply with
  | error e => exact ⟨hidle, nofun⟩
  | ok metadata =>
    obtain rfl : metadata = document := copy_of_agree (hagree rfl) hactive₁ hread
    show wp step _ (if _ then _ else _ : Action γ ν (Option (Candidate γ ν))).run _ w₁
    split
    · exact ⟨hidle, nofun⟩
    refine wp_run_bind.mpr ((wp_embed storePart _ _ _).mpr
      (wp_mono (loadGeneration_found hidle _) ?_))
    rintro (e | config) _ ⟨rfl, hconfig⟩
    · exact ⟨hidle, nofun⟩
    refine wp_run_bind.mpr (wp_bind.mpr
      (wp_readStore.mpr ⟨hidle, ?_, hidle, nofun⟩))
    show either _ _ (checkSnapshot server metadata
      (w₁.store (.snapshot (snapshotRevision metadata))).reply) w₁
    cases hnodes : checkSnapshot server metadata
        (w₁.store (.snapshot (snapshotRevision metadata))).reply with
    | error e => exact ⟨hidle, nofun⟩
    | ok nodes =>
      refine ⟨hidle, fun candidate h => ?_⟩
      cases h
      obtain ⟨snapshot, hreply, hsame⟩ := checkSnapshot_ok hnodes
      refine (hidle.commit.named _).mp ⟨metadata, snapshot, hactive₁, hconfig _ rfl, ?_, hsame⟩
      cases hfile : w₁.store (.snapshot (snapshotRevision metadata)) with
      | absent | unreadable => rw [hfile] at hreply; cases hreply
      | holds value => rw [hfile] at hreply; cases hreply; rfl

/-! ### The recovery -/

section Recovery

variable {candidate : Candidate γ ν} {changed : Bool} {endpoints : List String}

theorem recoveredEndpoints_ok (h : recoveredEndpoints server candidate changed = .ok endpoints)
    (hchanged : changed = true) : endpointsOf server candidate = .ok endpoints := by
  unfold recoveredEndpoints at h
  rw [if_pos hchanged] at h
  unfold endpointsOf
  cases hresult : routerOSEndpointBypass server.source candidate.config candidate.nodes with
  | error e => rw [hresult] at h; cases h
  | ok values => rw [hresult] at h; cases h; rfl

/-- The end of a recovery: the list is reduced and the journal is cleared. -/
theorem finishRecovery_spec (hnamed : Named w.store candidate) (hpending : Pending w.store changed)
    (hendpoints : changed = true → endpointsOf server candidate = .ok endpoints)
    (hcommit : SameCommit w₁.store w.store) (hruntime : w₁.runtime = candidate)
    (hgrown : changed = true → w₁.bypass = w.bypass ∪ endpoints.toFinset)
    (hkept : changed = false → w₁.bypass = w.bypass)
    (hjournal : w₁.store (.journal .subscriptionRuntime) =
      w.store (.journal .subscriptionRuntime)) :
    wp step (During server w) (do
        orFail (syncWhenChanged changed endpoints true)
        orStop commitRuntime
        orStop (saveJournal []) : Action γ ν Unit).run
      (fun r w' => During server w w' ∧ (r = .ok () → Recovered server w w')) w₁ := by
  have hduring₁ : During server w w₁ := by
    refine ⟨hcommit, .inr ⟨candidate, changed, hnamed, hpending, ?_⟩⟩
    exact .installed hruntime (fun h => ⟨endpoints, hendpoints h, hgrown h⟩) hkept hjournal
  refine wp_run_bind.mpr (wp_orFail.mpr (wp_mono (syncWhenChanged_spec hduring₁) ?_))
  intro r w₂ hlist
  -- the world after the list was reduced, if it has to be
  have hreached : During server w w₂ ∧ w₂.store = w₁.store ∧
      (r = none → Reached server candidate changed w w₂) := by
    rcases hlist with ⟨rfl, hsame⟩ | ⟨hchanged, rfl⟩
    · exact ⟨hduring₁, rfl, fun hr =>
        ⟨hruntime, fun h => absurd h (by simp [hsame hr]), hkept⟩⟩
    · have hdone : Reached server candidate changed w (w₁.sync endpoints true) :=
        ⟨hruntime, fun _ => ⟨endpoints, hendpoints hchanged, rfl⟩,
          fun h => absurd hchanged (by simp [h])⟩
      exact ⟨⟨hcommit, .inr ⟨candidate, changed, hnamed, hpending,
        .reached hdone (.inl hjournal)⟩⟩, rfl, fun _ => hdone⟩
  obtain ⟨hduring₂, hstore, hdone⟩ := hreached
  cases r with
  | some e => exact ⟨hduring₂, nofun⟩
  | none =>
    have hdone := hdone rfl
    refine wp_run_bind.mpr (wp_orStop.mpr ⟨hduring₂, fun ending => ?_⟩)
    cases ending with
    | refused | lost => exact ⟨hduring₂, nofun⟩
    | done =>
      refine wp_orStop.mpr (wp_mono (saveJournal_spec hduring₂) ?_)
      rintro r w₃ (⟨rfl, hfailed⟩ | rfl)
      · refine ⟨hduring₂, fun h => absurd ?_ hfailed⟩
        cases r with
        | ok _ => rfl
        | error e => cases h
      · have hcommit₃ : SameCommit (w₂.store.set (.journal .subscriptionRuntime) (.holds []))
            w.store := by
          intro path hpath hcopy
          rw [Files.set_of_ne _ _ hpath, hstore]
          exact hcommit path hpath hcopy
        have hdone₃ : Reached server candidate changed w
            (w₂.setStore (w₂.store.set (.journal .subscriptionRuntime) (.holds []))) :=
          ⟨hdone.runtime, hdone.pruned, hdone.kept⟩
        exact ⟨⟨hcommit₃, .inr ⟨candidate, changed, hnamed, hpending,
            .reached hdone₃ (.inr (by simp))⟩⟩,
          fun _ => ⟨hcommit₃, ⟨candidate, changed, hnamed, hpending, hdone₃⟩, by simp⟩⟩

/-- The recovery of what is committed. -/
theorem recoverPending_spec (hidle : Idle w w₁)
    (hnamed : Named w.store candidate) (hpending : Pending w.store changed) :
    wp step (During server w) (recoverPending server candidate changed).run
      (fun r w' => During server w w' ∧ (r = .ok () → Recovered server w w')) w₁ := by
  have hduring₁ : During server w w₁ := hidle.during
  refine wp_run_bind.mpr (wp_orStop.mpr ⟨hduring₁, fun ending => ?_⟩)
  cases ending with
  | refused | lost => exact ⟨hduring₁, nofun⟩
  | done =>
    refine wp_run_bind.mpr ?_
    show either _ _ (recoveredEndpoints server candidate changed) w₁
    cases hresult : recoveredEndpoints server candidate changed with
    | error e => exact ⟨hduring₁, nofun⟩
    | ok endpoints =>
      have hendpoints := recoveredEndpoints_ok hresult
      refine wp_run_bind.mpr (wp_orFail.mpr (wp_mono (syncWhenChanged_spec hduring₁) ?_))
      intro r w₂ hlist
      have hbefore : w₂.runtime = w.runtime ∧ w₂.store = w₁.store ∧ w.bypass ⊆ w₂.bypass ∧
          (changed = false → w₂.bypass = w.bypass) ∧
          (r = none → changed = true → w₂.bypass = w.bypass ∪ endpoints.toFinset) := by
        rcases hlist with ⟨rfl, hsame⟩ | ⟨hchanged, rfl⟩
        · refine ⟨hidle.runtime, rfl, hidle.bypass.ge, fun _ => hidle.bypass, fun hr htrue => ?_⟩
          exact absurd htrue (by simp [hsame hr])
        · have hunion : (w₁.sync endpoints false).bypass = w.bypass ∪ endpoints.toFinset := by
            rw [← hidle.bypass]
            rfl
          refine ⟨hidle.runtime, rfl, ?_, fun h => absurd hchanged (by simp [h]), fun _ _ => hunion⟩
          rw [hunion]
          exact Finset.subset_union_left
      obtain ⟨hruntime, hstore, hgrown, hkept, hadded⟩ := hbefore
      have hcommit : SameCommit w₂.store w.store := hstore ▸ hidle.commit
      have hjournal : w₂.store (.journal .subscriptionRuntime) =
          w.store (.journal .subscriptionRuntime) := hstore ▸ hidle.journal
      have hduring₂ : During server w w₂ :=
        ⟨hcommit, .inr ⟨candidate, changed, hnamed, hpending,
          .before hruntime hgrown hkept hjournal⟩⟩
      cases r with
      | some e => exact ⟨hduring₂, nofun⟩
      | none =>
        have hduring₃ : During server w (w₂.setRuntime candidate) := by
          refine ⟨hcommit, .inr ⟨candidate, changed, hnamed, hpending, ?_⟩⟩
          exact .installed rfl (fun h => ⟨endpoints, hendpoints h, hadded rfl h⟩) hkept hjournal
        refine wp_run_bind.mpr (wp_orFail.mpr (wp_bind.mpr
          (wp_mono (activateSubscription_spec hduring₂ hduring₃) ?_)))
        rintro ⟨receipt, _ | e⟩ w₃ h
        · obtain rfl : w₃ = w₂.setRuntime candidate := h.resolve_right fun h => h.2 rfl
          exact finishRecovery_spec hnamed hpending hendpoints hcommit rfl
            (hadded rfl) hkept hjournal
        · have hduring : During server w w₃ := by
            rcases h with rfl | ⟨rfl, -⟩
            · exact hduring₃
            · exact hduring₂
          exact ⟨hduring, nofun⟩

/-- **The recovery.** Every call is made in a world of a recovery, and a recovery that succeeds has
    installed what the commit point names. -/
theorem activatePendingSubscription_spec (hactive : w.store (.pointer .active) = .holds document) :
    wp step (During server w) (activatePendingSubscription server).run
      (fun r w' => During server w w' ∧ (r = .ok true → Recovered server w w')) w := by
  have hload : wp step (During server w) (loadCommitted server).run (fun r w' => Idle w w' ∧
      ∀ candidate, r = .ok (some candidate) → Named w.store candidate) w :=
    wp_weaken (loadCommitted_spec hactive) fun _ => Idle.during
  refine wp_run_bind.mpr (wp_mono hload ?_)
  rintro (e | _ | candidate) w₁ ⟨hidle, hnamed⟩
  · exact ⟨hidle.during, nofun⟩
  · exact ⟨hidle.during, nofun⟩
  refine wp_run_bind.mpr (wp_orStop.mpr (wp_bind.mpr
    (wp_readStore.mpr ⟨hidle.during, ?_, hidle.during, nofun⟩)))
  show either _ _ ((readDocument (w₁.store (.journal .subscriptionRuntime)).reply).mapError
    Err.file) w₁
  rw [hidle.journal]
  cases hfile : w.store (.journal .subscriptionRuntime) with
  | absent | unreadable => exact ⟨hidle.during, nofun⟩
  | holds journal =>
    show wp step _ (if Document.isTrue journal "pending" = true then _ else _ :
      Action γ ν Bool).run _ w₁
    split
    · next hpending =>
      refine wp_run_bind.mpr (wp_mono (recoverPending_spec hidle (hnamed _ rfl)
        ⟨journal, hfile, hpending, rfl⟩) ?_)
      rintro (e | _) w₂ ⟨hduring, hdone⟩
      · exact ⟨hduring, nofun⟩
      · exact ⟨hduring, fun _ => hdone rfl⟩
    · exact ⟨hidle.during, nofun⟩

end Recovery

end SbGateway.ControlPlane.Subscription
