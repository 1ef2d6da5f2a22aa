import SbGateway.ControlPlane.SubscriptionBypass

namespace SbGateway.ControlPlane.Subscription

open Lib
open Lib.Calls
open RuntimeConfig.Endpoints

/-!
# Crashes of an activation

An activation may be cut off at any call, and each call may fail with or without its effect.  What
it leaves is complete, or as before, or it is pending and a recovery puts it in order.

* `installPlan_open` — a run that is cut off has not begun or is pending, and one that has cleared
  its journal has left a new runtime or commit only by the failures of certain calls;
* `previous_iff_not_damaged` — a failed run whose journal is not pending has left everything as
  before, unless these calls have failed so;
* `recovered_named` — whatever recoveries were tried before, one that succeeds leaves what the
  commit point names;
* `installSubscriptionRuntime_consistent_iff` — the three together.
-/

variable {γ ν : Type} {server : Server γ ν} {config : γ} {metadata : Document}
  {previousNodes nodes : List ν} {plan : Plan γ ν} {start w w' : World γ ν}
  {s : World γ ν × History γ ν} {changed : Bool}

/-! ### Failures of calls -/

/-- The publication was lost, and the restoration after it refused. -/
def LostFiles (plan : Plan γ ν) (h : History γ ν) : Prop :=
  (.publish plan.candidate, .lost) ∈ h ∧ ∃ saved, (.restore saved, .refused) ∈ h

/-- The commit point was written. -/
def Written (h : History γ ν) : Prop :=
  ∃ document ending, ending.takesEffect = true ∧
    (.store (.write (.pointer .active) document), ending) ∈ h

/-- The commit point could not be read. -/
def Unread (h : History γ ν) : Prop :=
  ∃ ending, ending ≠ .done ∧ (.store (.read (.pointer .active)), ending) ∈ h

/-- The journal was cleared at the end of a complete activation, but this was not confirmed. -/
def LostEnd (h : History γ ν) : Prop :=
  (.commitRuntime, .done) ∈ h ∧
    (.store (.write (.journal .subscriptionRuntime) []), .lost) ∈ h

/-- The failures that leave a new runtime or a new commit behind a clear journal. -/
def Damaged (server : Server γ ν) (plan : Plan γ ν) (start : World γ ν) (h : History γ ν) : Prop :=
  ((LostFiles plan h ∨ LostEnd h) ∧ start.runtime ≠ plan.candidate) ∨
    (Written h ∧ (Unread h ∨ LostEnd h) ∧
      start.store (.pointer .active) ≠ .holds (newPointer server plan))

theorem published_iff (h : History γ ν) : (trace h).published = true ↔ Written h := by
  induction h using List.reverseRecOn with
  | nil => simp [trace, Written, Trace.init]
  | append_singleton h entry ih =>
    obtain ⟨op, ending⟩ := entry
    have hwritten : Written (h ++ [(op, ending)]) ↔ Written h ∨ (ending.takesEffect = true ∧
        ∃ document, op = .store (.write (.pointer .active) document)) := by
      simp only [Written, List.mem_append, List.mem_singleton, Prod.mk.injEq]
      constructor
      · rintro ⟨document, e, he, hmem | ⟨rfl, rfl⟩⟩
        · exact .inl ⟨document, e, he, hmem⟩
        · exact .inr ⟨he, document, rfl⟩
      · rintro (⟨document, e, he, hmem⟩ | ⟨he, document, rfl⟩)
        · exact ⟨document, e, he, .inl hmem⟩
        · exact ⟨document, ending, he, .inr ⟨rfl, rfl⟩⟩
    rw [trace_append, hwritten, ← ih]
    split
    · next heffect =>
      unfold Trace.next
      split <;> simp_all
    · next heffect => simp [heffect]

/-! ### Cut off runs -/

/-- The journal was last written as pending. -/
def Opened (s : World γ ν × History γ ν) : Prop := (trace s.2).journal = some true

/-- An activation before its end; `settled` if it will not be committed any more. -/
structure Underway (server : Server γ ν) (plan : Plan γ ν) (settled : Prop)
    (s : World γ ν × History γ ν) : Prop where
  opened : Opened s
  unfinished : ∀ ending, (.commitRuntime, ending) ∉ s.2
  commit : Written s.2 → s.1.store (.pointer .active) = .holds (newPointer server plan)
  read : settled → Written s.2 → Unread s.2

/-- The calls before the end. -/
def Tame (server : Server γ ν) (plan : Plan γ ν) (settled : Prop) : Call γ ν → Prop
  | .store (.read _) | .savePrevious | .restart | .syncEndpoints _ _ | .publish _
  | .restore _ => True
  | .store (.write (.pointer .active) document) => ¬ settled ∧ document = newPointer server plan
  | .store (.write (.pointer _) _) => True
  | _ => False

variable {settled : Prop} {op : Call γ ν}

theorem mem_recorded {ending : Ending} {entry : Call γ ν × Ending} :
    entry ∈ (recorded step op ending s).2.2 ↔ entry ∈ s.2 ∨ entry = (op, ending) := by
  simp [recorded]

theorem tame_journal (hop : Tame server plan settled op) (t : Trace) :
    (t.next op).journal = t.journal := by
  match op, hop with
  | .store (.read _), _ | .savePrevious, _ | .restart, _ | .publish _, _ | .restore _, _ => rfl
  | .syncEndpoints _ true, _ | .syncEndpoints _ false, _ => rfl
  | .store (.write (.pointer .active) _), _ => rfl
  | .store (.write (.pointer .lastKnownGood) _), _ => rfl
  | .store (.write (.pointer .applyMetadata) _), _ => rfl

/-- The commit point is left alone, or it is that of the plan. -/
theorem tame_active (hop : Tame server plan settled op) (w : World γ ν) :
    (op.effect w).store (.pointer .active) = w.store (.pointer .active) ∨
      (op.effect w).store (.pointer .active) = .holds (newPointer server plan) := by
  match op, hop with
  | .store (.read _), _ | .savePrevious, _ | .restart, _ | .publish _, _ | .restore _, _
  | .syncEndpoints _ _, _ => exact .inl rfl
  | .store (.write (.pointer .active) _), ⟨_, rfl⟩ => exact .inr (by simp [Call.effect])
  | .store (.write (.pointer .lastKnownGood) _), _
  | .store (.write (.pointer .applyMetadata) _), _ => exact .inl (by simp [Call.effect])

theorem opened_step (hs : Opened s) (hop : Tame server plan settled op) (ending : Ending) :
    Opened (recorded step op ending s).2 := by
  rw [Opened, trace_recorded]
  split
  · rw [tame_journal hop]
    exact hs
  · exact hs

theorem Underway.step (h : Underway server plan settled s) (op : Call γ ν)
    (hop : Tame server plan settled op) (ending : Ending) :
    Underway server plan settled (recorded Subscription.step op ending s).2 := by
  have hwritten : Written (recorded Subscription.step op ending s).2.2 → ¬ Written s.2 →
      ∃ document, op = .store (.write (.pointer .active) document) ∧
        ending.takesEffect = true := by
    rintro ⟨document, e, he, hentry⟩ hnot
    rcases mem_recorded.mp hentry with hentry | heq
    · exact absurd ⟨document, e, he, hentry⟩ hnot
    · cases heq
      exact ⟨document, rfl, he⟩
  refine ⟨opened_step h.opened hop ending, fun e hentry => ?_, fun hnew => ?_,
    fun hsettled hnew => ?_⟩
  · rcases mem_recorded.mp hentry with hentry | heq
    · exact h.unfinished e hentry
    · cases heq
      exact hop
  · show (Subscription.step op ending s.1).2.store (.pointer .active) = _
    rw [step_eq]
    by_cases hold : Written s.2
    · split
      · exact (tame_active hop s.1).elim (fun heq => heq.trans (h.commit hold)) id
      · exact h.commit hold
    · obtain ⟨document, rfl, heffect⟩ := hwritten hnew hold
      obtain ⟨-, rfl⟩ := hop
      simp [heffect, Call.effect]
  · by_cases hold : Written s.2
    · obtain ⟨e, he, hentry⟩ := h.read hsettled hold
      exact ⟨e, he, mem_recorded.mpr (.inl hentry)⟩
    · obtain ⟨document, rfl, -⟩ := hwritten hnew hold
      exact absurd hsettled hop.1

/-- How far the files were changed. -/
inductive Files (γ ν : Type) where
  | untouched
  | changed (receipt : Receipt γ ν)

/-- What the calls have made of the files: without a receipt, they are new only by a failure. -/
def Filed (plan : Plan γ ν) (h : History γ ν) : Files γ ν → Prop
  | .untouched => (trace h).installed = false ∧ ∀ candidate ending,
      (.publish candidate, ending) ∉ h ∧ (.restore candidate, ending) ∉ h
  | .changed none => (trace h).installed = true ↔ LostFiles plan h
  | .changed (some _) => (trace h).installed = true ∧ ∀ candidate, (.publish candidate, .lost) ∉ h

/-- An activation before its end, with what it has made of the files. -/
structure Running (server : Server γ ν) (plan : Plan γ ν) (settled : Prop) (files : Files γ ν)
    (s : World γ ν × History γ ν) : Prop extends Underway server plan settled s where
  files : Filed plan s.2 files

/-- The calls that do not touch the files. -/
def Unfiled : Call γ ν → Prop
  | .publish _ | .restore _ => False
  | _ => True

variable {files : Files γ ν}

theorem Running.step (h : Running server plan settled files s) (op : Call γ ν)
    (hop : Tame server plan settled op) (hfiles : Unfiled op) (ending : Ending) :
    Running server plan settled files (recorded Subscription.step op ending s).2 := by
  have hpublish : ∀ candidate e, (.publish candidate, e) ∈
      (recorded Subscription.step op ending s).2.2 ↔ (.publish candidate, e) ∈ s.2 := by
    intro candidate e
    rw [mem_recorded, Prod.mk.injEq]
    exact or_iff_left fun heq => (heq.1 ▸ hfiles : Unfiled (.publish candidate))
  have hrestore : ∀ saved e, (.restore saved, e) ∈
      (recorded Subscription.step op ending s).2.2 ↔ (.restore saved, e) ∈ s.2 := by
    intro saved e
    rw [mem_recorded, Prod.mk.injEq]
    exact or_iff_left fun heq => (heq.1 ▸ hfiles : Unfiled (.restore saved))
  have hinstalled : (trace (recorded Subscription.step op ending s).2.2).installed =
      (trace s.2).installed := by
    rw [trace_recorded]
    split
    · unfold Trace.next
      split <;> first | rfl | exact hfiles.elim
    · rfl
  refine ⟨h.toUnderway.step op hop ending, ?_⟩
  have hold := h.files
  match files with
  | .untouched | .changed none | .changed (some _) =>
    simpa only [Filed, LostFiles, hpublish, hrestore, hinstalled] using hold

attribute [local simp] mem_recorded trace_recorded Trace.next Ending.takesEffect

/-- A program that does not touch the files runs on. -/
theorem running_bind (h : Only (fun op => Tame server plan settled op ∧ Unfiled op) program)
    (hs : Running server plan settled files s)
    (hnext : ∀ a s', Running server plan settled files s' →
      wp (recorded step) Opened (next a) Q s') :
    wp (recorded step) Opened (program >>= next) Q s := by
  have hkept := wp_of_only (I := Running server plan settled files) h
    (fun op ending _ hop hs => hs.step op hop.1 hop.2 ending) hs
  exact wp_bind.mpr (wp_weaken (wp_mono hkept hnext) fun _ hs => hs.opened)

theorem only_syncWhenChanged (changed : Bool) (values : List String) (prune : Bool) :
    Only (fun op => Tame server plan settled op ∧ Unfiled op)
      (syncWhenChanged changed values prune) := by
  unfold syncWhenChanged
  split
  · exact ⟨⟨trivial, trivial⟩, fun _ => trivial⟩
  · exact trivial

theorem only_inStore (h : Only (CommitCall (newPointer server plan)) program) :
    Only (fun op => Tame server plan False op ∧ Unfiled op) (inStore program) := by
  refine only_embed (only_mono h fun request hrequest => ⟨?_, trivial⟩)
  match request, hrequest with
  | .read _, _ => exact trivial
  | .write (.pointer .active) _, .inr rfl => exact ⟨id, rfl⟩
  | .write (.pointer .active) _, .inl hne => exact absurd rfl hne
  | .write (.pointer .lastKnownGood) _, _ => exact trivial
  | .write (.pointer .applyMetadata) _, _ => exact trivial

/-- How an activation ends: with a pending journal, without an error, with an end that was not
    confirmed, or taken back. -/
def Settled (plan : Plan γ ν) (r : Option StageError) (s : World γ ν × History γ ν) : Prop :=
  Opened s ∨ r = none ∨ (LostEnd s.2 ∧ (trace s.2).installed = true) ∨
    ((∀ ending, (.commitRuntime, ending) ∉ s.2) ∧
      ((trace s.2).installed = true ↔ LostFiles plan s.2) ∧ (Written s.2 → Unread s.2))

/-- The bypass list goes back, and if all went well the journal is cleared by the last call. -/
theorem finishRollback_open (hs : Opened s)
    (hfiles : runtimeErr = none → Running server plan True (.changed none) s) (stage : String)
    (cause : Err) :
    wp (recorded step) Opened (finishRollback plan stage cause runtimeErr) (Settled plan) s := by
  cases runtimeErr with
  | some e =>
    have honly : Only (fun op => Tame server plan True op ∧ Unfiled op)
        (syncWhenChanged plan.endpointsChanged plan.previousEndpoints true) :=
      only_syncWhenChanged ..
    refine wp_bind.mpr (wp_mono (wp_of_only honly (fun _ ending _ hop hs =>
      opened_step hs hop.1 ending) hs) fun listErr s₁ hs₁ => ?_)
    cases listErr <;> exact .inl hs₁
  | none =>
    refine running_bind (only_syncWhenChanged ..) (hfiles rfl) fun listErr s₁ hs₁ => ?_
    cases listErr with
    | some e => exact .inl hs₁.opened
    | none =>
      have hcleared : ∀ r ending, Settled plan r (recorded step
          (Call.store (.write (.journal .subscriptionRuntime) [])) ending s₁).2 := by
        intro r ending
        refine .inr (.inr (.inr ⟨fun e => ?_, ?_, ?_⟩))
        · simpa using hs₁.unfinished e
        · have hfiles := hs₁.files
          simp only [Filed, LostFiles, mem_recorded, trace_recorded] at hfiles ⊢
          split <;> simpa [Trace.next] using hfiles
        · have hread := hs₁.read trivial
          simpa [Written, Unread] using hread
      refine ⟨hs₁.opened, fun ending => ?_⟩
      cases ending <;> exact hcleared _ _

/-- A rollback leaves the journal open, or it leaves new files only without a receipt. -/
theorem rollback_open {receipt : Receipt γ ν} (hs : Running server plan True (.changed receipt) s)
    (stage : String) (cause : Err) :
    wp (recorded step) Opened (rollback plan receipt stage cause) (Settled plan) s := by
  cases receipt with
  | none =>
    refine ⟨hs.opened, fun ending => ?_⟩
    have hs₁ := hs.step .restart trivial trivial ending
    exact finishRollback_open hs₁.opened (fun _ => hs₁) ..
  | some saved =>
    refine ⟨hs.opened, fun ending => ?_⟩
    have hs₁ := hs.toUnderway.step (.restore saved) trivial ending
    have hfailed : ∀ e : Err, some e = none → Running server plan True (.changed none)
        (recorded step (.restore saved) ending s).2 := nofun
    cases ending with
    | refused | lost => exact finishRollback_open hs₁.opened (hfailed _) ..
    | done =>
      have hlost := hs.files.2 plan.candidate
      have hs₁ : Running server plan True (.changed none)
        (recorded step (.restore saved) .done s).2 :=
        ⟨hs₁, by simp [Filed, LostFiles, hlost]⟩
      refine ⟨hs₁.opened, fun ending => ?_⟩
      have hs₂ := hs₁.step .restart trivial trivial ending
      exact finishRollback_open hs₂.opened (fun _ => hs₂) ..

/-- The end of a complete activation. -/
theorem finishActivation_open (hs : Running server plan settled (.changed (some saved)) s) :
    wp (recorded step) Opened finishActivation (Settled plan) s := by
  have hcommit : ∀ ending, trace (recorded step Call.commitRuntime ending s).2.2 = trace s.2 := by
    intro ending
    rw [trace_recorded]
    exact ite_self _
  have hopened : ∀ ending, Opened (recorded step Call.commitRuntime ending s).2 := by
    intro ending
    rw [Opened, hcommit]
    exact hs.opened
  refine ⟨hs.opened, fun ending => ?_⟩
  cases ending with
  | refused | lost => exact .inl (hopened _)
  | done =>
    refine ⟨hopened .done, fun ending => ?_⟩
    cases ending with
    | done => exact .inr (.inl rfl)
    | refused =>
      left
      rw [Opened, trace_recorded]
      exact hopened .done
    | lost =>
      refine .inr (.inr (.inl ⟨by simp [LostEnd], ?_⟩))
      rw [trace_recorded, hcommit]
      exact hs.files.1

theorem commitActivation_open (hdigests : Digests server)
    (hs : Running server plan True (.changed (some saved)) s) :
    wp (recorded step) Opened (commitActivation server plan (some saved)) (Settled plan) s := by
  have hs₀ : Running server plan False (.changed (some saved)) s :=
    { hs with read := nofun }
  refine running_bind (only_inStore only_commitActiveDetailed) hs₀ ?_
  rintro ⟨_, _ | e⟩ s₁ hs₁
  · exact finishActivation_open hs₁
  refine ⟨hs₁.opened, fun ending => ?_⟩
  have hs₂ := hs₁.step (.store (.read (.pointer .active))) trivial trivial ending
  show wp _ _ (if confirmed server plan _ = true then _ else _) _ _
  split
  · refine running_bind (only_inStore (only_mono only_reconcileCommitPointers fun _ => .inl)) hs₂ ?_
    rintro (_ | e) s₃ hs₃
    · exact finishActivation_open hs₃
    · exact .inl hs₃.opened
  · next hunconfirmed =>
    refine rollback_open { hs₂ with read := fun _ hwritten => ?_ } ..
    -- the commit of the plan would have been confirmed by a reader
    have hactive := hs₁.commit (by simpa [Written] using hwritten)
    refine ⟨ending, ?_, mem_recorded.mpr (.inr rfl)⟩
    rintro rfl
    have hreply : (recorded step (.store (.read (.pointer .active))) .done s₁).1 =
        .ok (newPointer server plan) := by
      show (s₁.1.store (.pointer .active)).reply = _
      rw [hactive]
      rfl
    rw [hreply] at hunconfirmed
    exact hunconfirmed (namedBy_newPointer hdigests)

/-- The activation of the files. -/
theorem activateSubscription_open (hs : Running server plan True .untouched s) :
    wp (recorded step) Opened (activateSubscription plan.candidate) (fun r s' =>
      Running server plan True (.changed r.1) s' ∧ (r.2 = none → r.1.isSome)) s := by
  refine ⟨hs.opened, fun ending => ?_⟩
  have hs₁ := hs.toUnderway.step .savePrevious trivial ending
  obtain ⟨hfresh, hquiet⟩ := hs.files
  have hpublish := fun candidate e => (hquiet candidate e).1
  have hrestore := fun candidate e => (hquiet candidate e).2
  cases ending with
  | refused | lost =>
    refine ⟨⟨hs₁, ?_⟩, by rintro ⟨⟩⟩
    simp [Filed, LostFiles, hfresh, hpublish]
  | done =>
    refine ⟨hs₁.opened, fun ending => ?_⟩
    have hs₂ := hs₁.step (.publish plan.candidate) trivial ending
    cases ending with
    | done =>
      have hs₂ : Running server plan True (.changed (some s.1.runtime)) _ :=
        ⟨hs₂, by simp [Filed, hpublish]⟩
      exact ⟨hs₂.opened, fun ending => ⟨hs₂.step .restart trivial trivial ending, fun _ => rfl⟩⟩
    | refused | lost =>
      refine ⟨hs₂.opened, fun ending => ?_⟩
      have hs₃ := hs₂.step (.restore s.1.runtime) trivial ending
      refine ⟨⟨hs₃, ?_⟩, ?_⟩
      · cases ending <;> simp [Filed, LostFiles, hfresh, hpublish, hrestore]
      · cases ending <;> rintro ⟨⟩

theorem runActivation_open (hdigests : Digests server)
    (hs : Running server plan True .untouched s) :
    wp (recorded step) Opened (runActivation server plan) (Settled plan) s := by
  refine running_bind (only_syncWhenChanged ..) hs ?_
  rintro (_ | e) s₁ hs₁
  case some =>
    obtain ⟨hfresh, hquiet⟩ := hs₁.files
    refine rollback_open ⟨hs₁.toUnderway, ?_⟩ ..
    simp [Filed, LostFiles, hfresh, (hquiet _ _).1]
  refine wp_bind.mpr (wp_mono (activateSubscription_open hs₁) ?_)
  rintro ⟨receipt, _ | e⟩ s₂ ⟨hs₂, hreceipt⟩
  case some => exact rollback_open hs₂ ..
  obtain ⟨saved, rfl⟩ := Option.isSome_iff_exists.mp (hreceipt rfl)
  refine running_bind (only_syncWhenChanged ..) hs₂ ?_
  rintro (_ | e) s₃ hs₃
  case some => exact rollback_open hs₃ ..
  exact commitActivation_open hdigests hs₃

/-- Nothing but the snapshot of the new nodes was touched. -/
structure Untouched (start : World γ ν) (s : World γ ν × History γ ν) : Prop where
  journal : (trace s.2).journal = none
  published : (trace s.2).published = false
  installed : (trace s.2).installed = false
  bypass : s.1.bypass = start.bypass
  unpublished : ∀ candidate ending, (.publish candidate, ending) ∉ s.2
  unfinished : ∀ ending, (.commitRuntime, ending) ∉ s.2

/-- **Cut off runs.** Before a call of an activation nothing was touched, or the journal is
    pending; and at its end nothing was touched, or it is settled. -/
theorem installPlan_open (hdigests : Digests server) (plan : Plan γ ν) (start : World γ ν) :
    wp (recorded step) (fun s => Untouched start s ∨ Opened s) (installPlan server plan)
      (fun r s => Untouched start s ∨ Settled plan r s) (start, []) := by
  have hrun : ∀ s, Running server plan True .untouched s →
      wp (recorded step) (fun s => Untouched start s ∨ Opened s) (runActivation server plan)
        (fun r s => Untouched start s ∨ Settled plan r s) s := fun s hs =>
    wp_weaken (wp_mono (runActivation_open hdigests hs) fun _ _ => .inr) fun _ => .inr
  -- the candidate, its snapshot and the journal
  refine ⟨.inl ⟨rfl, rfl, rfl, rfl, nofun, nofun⟩, forall_ending.mpr ⟨?_, ?_, ?_⟩⟩
  case refine_2 | refine_3 =>
    exact .inl ⟨rfl, rfl, rfl, rfl, by simp, by simp⟩
  refine ⟨.inl ⟨rfl, rfl, rfl, rfl, by simp, by simp⟩,
    forall_ending.mpr ⟨?_, ?_, ?_⟩⟩
  case refine_2 | refine_3 =>
    exact .inl ⟨rfl, rfl, rfl, rfl, by simp, by simp⟩
  refine ⟨.inl ⟨rfl, rfl, rfl, rfl, by simp, by simp⟩,
    forall_ending.mpr ⟨?_, ?_, ?_⟩⟩
  · exact hrun _ ⟨⟨rfl, by simp, by simp [Written],
      by simp [Written]⟩, rfl, by simp⟩
  · exact .inl ⟨rfl, rfl, rfl, rfl, by simp, by simp⟩
  · exact .inr (.inl rfl)

/-! ### Failed runs -/

/-- The runtime, the bypass list and the commit point are as before. -/
structure Previous (start w : World γ ν) : Prop where
  runtime : w.runtime = start.runtime
  bypass : w.bypass = start.bypass
  active : w.store (.pointer .active) = start.store (.pointer .active)

/-- The bypass list at the start is exactly the one for the runtime. -/
def Listed (server : Server γ ν) (w : World γ ν) : Prop :=
  ∃ endpoints, endpointsOf server w.runtime = .ok endpoints ∧ w.bypass = endpoints.toFinset

variable (hplan : PlanFor server config metadata previousNodes nodes plan)
  (hstart : Committed config metadata previousNodes start)
  (hlist : start.bypass = plan.previousEndpoints.toFinset)

include hplan hstart hlist in
/-- The bypass list of a failed run that has cleared its journal. -/
theorem bypass_of_cleared (hs : Sound server plan start s)
    (houtcome : Installed server plan s ∨ (r ≠ none ∧ (plan.endpointsChanged = true →
      (trace s.2).pruned = some plan.previousEndpoints)))
    (hsame : (trace s.2).installed = true → start.runtime = plan.candidate) :
    s.1.bypass = start.bypass := by
  cases hchanged : plan.endpointsChanged with
  | false => exact (hs.deployed.untouched hchanged).1
  | true =>
    rw [hlist]
    rcases houtcome with hinstalled | ⟨-, hpruned⟩
    · -- the new runtime is the old one, so that its endpoints are too
      have hdesired := hplan.desired
      rw [← hsame hinstalled.installed, hstart.runtime, hplan.previous] at hdesired
      rw [(hs.deployed.pruned _ (hinstalled.pruned hchanged)).2, Except.ok.inj hdesired]
    · exact (hs.deployed.pruned _ (hpruned hchanged)).2

/-- What a run has left, by the failures of its calls. -/
theorem previous_iff_of_failures (hs : Sound server plan start s)
    (hbypass : ((trace s.2).installed = true → start.runtime = plan.candidate) →
      s.1.bypass = start.bypass)
    (hfiles : (trace s.2).installed = true ↔ LostFiles plan s.2 ∨ LostEnd s.2)
    (hread : Written s.2 → Unread s.2 ∨ LostEnd s.2) :
    Previous start s.1 ↔ ¬ Damaged server plan start s.2 := by
  have hactive := hs.documents.active
  have hruntime := hs.deployed.runtime
  have hpublished := published_iff s.2
  constructor
  · rintro hprevious (⟨hlost, hdifferent⟩ | ⟨hwritten, -, hdifferent⟩)
    · rw [if_pos (hfiles.mpr hlost), hprevious.runtime] at hruntime
      exact hdifferent hruntime
    · rw [if_pos (hpublished.mpr hwritten), hprevious.active] at hactive
      exact hdifferent hactive
  · intro hdamaged
    have hsameActive : (trace s.2).published = true →
        start.store (.pointer .active) = .holds (newPointer server plan) := fun h =>
      not_not.mp fun hdifferent => hdamaged
        (.inr ⟨hpublished.mp h, hread (hpublished.mp h), hdifferent⟩)
    have hsameRuntime : (trace s.2).installed = true → start.runtime = plan.candidate := fun h =>
      not_not.mp fun hdifferent => hdamaged (.inl ⟨hfiles.mp h, hdifferent⟩)
    refine ⟨?_, hbypass hsameRuntime, ?_⟩
    · rw [hruntime]
      split
      · next hinstalled => exact (hsameRuntime hinstalled).symm
      · rfl
    · rw [hactive]
      split
      · next hpublished => exact (hsameActive hpublished).symm
      · rfl

theorem Untouched.previous_iff (h : Untouched start s) (hs : Sound server plan start s) :
    Previous start s.1 ↔ ¬ Damaged server plan start s.2 := by
  have hunwritten : ¬ Written s.2 := by simp [← published_iff, h.published]
  refine previous_iff_of_failures hs (fun _ => h.bypass) ?_ fun hw => absurd hw hunwritten
  simp [h.installed, LostFiles, LostEnd, h.unpublished, h.unfinished]

/-! ### Pending runs -/

/-- The runtime is the one the commit point names, and the bypass list is the one for it. -/
structure Restored (server : Server γ ν) (w : World γ ν) : Prop where
  named : Named w.store w.runtime
  listed : Listed server w

/-- What a recovery can rely on; if it is not to change the bypass list, the list is right. -/
structure Recoverable (server : Server γ ν) (changed : Bool) (w : World γ ν) : Prop where
  active : ∃ document, w.store (.pointer .active) = .holds document
  flag : ∀ other, Pending w.store other → other = changed
  listed : changed = false → ∀ candidate, Named w.store candidate →
    ∃ endpoints, endpointsOf server candidate = .ok endpoints ∧ w.bypass = endpoints.toFinset

theorem During.recoverable (h : During server w w') (hw : Recoverable server changed w) :
    Recoverable server changed w' := by
  have hjournal : ∀ other, Pending w'.store other → Pending w.store other := by
    intro other hother
    rcases h.stage with hidle | ⟨_, _, -, -, hstage⟩
    · exact hother.of_journal hidle.journal
    · exact hstage.pending hother
  refine ⟨h.active hw.active, fun other hother => hw.flag other (hjournal other hother),
    fun hfalse candidate hnamed => ?_⟩
  have hbypass : w'.bypass = w.bypass := by
    rcases h.stage with hidle | ⟨_, other, -, hpending, hstage⟩
    · exact hidle.bypass
    · rw [hw.flag other hpending, hfalse] at hstage
      exact hstage.bypass_kept
  rw [hbypass]
  exact hw.listed hfalse candidate ((h.commit.named candidate).mp hnamed)

theorem recoveries_recoverable (hw : Recoverable server changed w) (h : Recoveries server w w') :
    Recoverable server changed w' :=
  recoveries_keep (fun _ hw => hw.active) (fun _ _ hduring hw => hduring.recoverable hw) hw h

/-- **Recoveries.** One that succeeds leaves what the commit point names. -/
theorem recovered_named (hw : Recoverable server changed w) (h : Recoveries server w w')
    (hrun : (activatePendingSubscription server).run.run step choices w' =
      (some (.ok true), w'')) : Restored server w'' := by
  have hw' := recoveries_recoverable hw h
  obtain ⟨document, hactive⟩ := hw'.active
  obtain ⟨hcommit, ⟨candidate, other, hnamed, hpending, hreached⟩, -⟩ :=
    (of_run_some (activatePendingSubscription_spec hactive) hrun).2 rfl
  obtain rfl := hw'.flag other hpending
  refine ⟨?_, ?_⟩
  · rw [hreached.runtime]
    exact (hcommit.named candidate).mpr hnamed
  · unfold Listed
    rw [hreached.runtime]
    cases other with
    | true => exact hreached.pruned rfl
    | false =>
      rw [hreached.kept rfl]
      exact hw'.listed rfl candidate hnamed

include hplan hstart hlist in
/-- A recovery can rely on what a cut off run has left. -/
theorem Sound.recoverable (hs : Sound server plan start s) (hdigests : Digests server) :
    Recoverable server plan.endpointsChanged s.1 := by
  refine ⟨hs.active hstart, fun other hother => hs.flag hstart hother,
    fun hunchanged candidate hnamed => ?_⟩
  rw [(hs.deployed.untouched hunchanged).1, hlist]
  rcases named_of_documents hdigests hplan hstart hs.documents hnamed with rfl | rfl
  · exact ⟨_, hstart.runtime ▸ hplan.previous, rfl⟩
  · exact ⟨_, hplan.desired, by rw [hplan.unchanged hunchanged]⟩

/-- Everything is as desired. -/
structure Completed (server : Server γ ν) (config : γ) (nodes : List ν) (plan : Plan γ ν)
    (w : World γ ν) : Prop where
  runtime : w.runtime = ⟨config, nodes⟩
  bypass : plan.endpointsChanged = true → w.bypass = plan.desiredEndpoints.toFinset
  active : ∃ document, w.store (.pointer .active) = .holds document ∧
    document.lookup "node_snapshot_revision" =
      some (.text (server.repository.nodesRevision nodes)) ∧
    document.lookup "runtime_revision" = some (.text (server.runtimeRevision ⟨config, nodes⟩))

include hplan in
/-- A successful run is complete. -/
theorem Installed.completed (h : Installed server plan s) (hs : Sound server plan start s) :
    Completed server config nodes plan s.1 := by
  have hcandidate : plan.candidate = ⟨config, nodes⟩ := by
    rw [Plan.candidate, hplan.sameConfig, hplan.sameNodes]
  obtain ⟨document, hactive, hnamed⟩ := h.named
  have hnames := hnamed
  simp only [Plan.namedBy, Bool.and_eq_true, beq_iff_eq, Plan.nodesRevision, hcandidate,
    hplan.sameNodes] at hnames
  refine ⟨?_, fun hchanged => (hs.deployed.pruned _ (h.pruned hchanged)).2,
    document, hactive, hnames⟩
  rw [hs.deployed.runtime, h.installed, if_pos rfl, hcandidate]

include hplan hstart hlist in
/-- A run that has not completed, with its plan. -/
theorem previous_iff_not_damaged (hdigests : Digests server)
    (hrun : (installPlan server plan).run (recorded step) choices (start, []) = (r, s))
    (hr : r ≠ some none) (hpending : ∀ changed, ¬ Pending s.1.store changed) :
    Previous start s.1 ↔ ¬ Damaged server plan start s.2 := by
  have hkeeps := hplan.keeps hdigests hlist.ge
  have hopen := run_of_wp (installPlan_open hdigests plan start) choices
  rw [hrun] at hopen
  have hs : Sound server plan start s := by
    have hinv := wp_inv (wp_mono hkeeps fun _ _ h => h.1) choices
    rw [hrun] at hinv
    exact hinv
  -- an open journal would be pending
  have hnotOpened : ¬ Opened s := fun hopened => hpending _ (pending_of_opened hs hopened)
  cases r with
  | none => exact ((hopen.2 rfl).resolve_right hnotOpened).previous_iff hs
  | some result =>
    have hbypass : ((trace s.2).installed = true → start.runtime = plan.candidate) →
        s.1.bypass = start.bypass := by
      obtain ⟨-, ⟨-, -, -, -, hbypass⟩ | ⟨hopened, -⟩ | ⟨-, houtcome⟩⟩ := of_run_some hkeeps hrun
      · exact fun _ => hbypass
      · exact absurd hopened hnotOpened
      · exact bypass_of_cleared hplan hstart hlist hs houtcome
    rcases hopen.1 result rfl with h | hopened | hnone | ⟨hend, hinstalled⟩ | ⟨hno, hfiles, hread⟩
    · exact h.previous_iff hs
    · exact absurd hopened hnotOpened
    · exact absurd (congrArg some hnone) hr
    · exact previous_iff_of_failures hs hbypass (iff_of_true hinstalled (.inr hend))
        fun _ => .inr hend
    · have hnoEnd : ¬ LostEnd s.2 := fun h => hno _ h.1
      exact previous_iff_of_failures hs hbypass (by simpa [hnoEnd] using hfiles)
        fun h => .inl (hread h)

/-- **Crash consistency.** A result without an error means that everything is as desired.  A failed
    or cut off run whose journal is not pending has left everything as before, exactly if its calls
    have not failed so that a new commit or runtime is left.  And a recovery that succeeds leaves
    what the commit point names. -/
theorem installSubscriptionRuntime_consistent_iff (hdigests : Digests server)
    (hstart : Committed config metadata previousNodes start) (hlist : Listed server start)
    {choices : List Ending} {r : Option (Option StageError)} {w : World γ ν} {h : History γ ν}
    (hrun : (installSubscriptionRuntime server config metadata previousNodes nodes).run
      (recorded step) choices (start, []) = (r, (w, h))) :
    (r = some none → ∃ plan, makePlan server config metadata previousNodes nodes = .ok plan ∧
      Completed server config nodes plan w) ∧
    (r ≠ some none → (∀ changed, ¬ Pending w.store changed) →
      (Previous start w ↔ ∀ plan, makePlan server config metadata previousNodes nodes = .ok plan →
        ¬ Damaged server plan start h)) ∧
    (r ≠ some none → (∃ changed, Pending w.store changed) → ∀ w', Recoveries server w w' →
      ∀ choices' w'', (activatePendingSubscription server).run.run step choices' w' =
        (some (.ok true), w'') → Restored server w'') := by
  unfold installSubscriptionRuntime at hrun
  cases hresult : makePlan server config metadata previousNodes nodes with
  | error e =>
    rw [hresult] at hrun
    obtain ⟨rfl, rfl, rfl⟩ : some (some e) = r ∧ start = w ∧ [] = h := by
      simpa [Calls.run, pure] using hrun
    refine ⟨nofun, fun _ _ => ?_, fun _ ⟨changed, hpending⟩ => ?_⟩
    · exact iff_of_true ⟨rfl, rfl, rfl⟩ nofun
    · exact absurd hpending (hstart.idle changed)
  | ok plan =>
    rw [hresult] at hrun
    have hplan := makePlan_ok hresult
    have hbypass : start.bypass = plan.previousEndpoints.toFinset := by
      obtain ⟨endpoints, hendpoints, hbypass⟩ := hlist
      rw [hstart.runtime, hplan.previous] at hendpoints
      rw [hbypass, Except.ok.inj hendpoints]
    have hkeeps := hplan.keeps hdigests hbypass.ge
    refine ⟨fun hr => ⟨plan, rfl, ?_⟩, fun hr hpending => ?_, fun _ _ w' hw' choices' w'' => ?_⟩
    · subst hr
      obtain ⟨hs, ⟨-, hne, -⟩ | ⟨-, hne⟩ | ⟨-, hinstalled | ⟨hne, -⟩⟩⟩ := of_run_some hkeeps hrun
      · exact absurd rfl hne
      · exact absurd rfl hne
      · exact hinstalled.completed hplan hs
      · exact absurd rfl hne
    · rw [previous_iff_not_damaged hplan hstart hbypass hdigests hrun hr hpending]
      refine ⟨fun hdamaged other hother => ?_, fun hall => hall plan rfl⟩
      obtain rfl : plan = other := by simpa using hother
      exact hdamaged
    · have hs : Sound server plan start (w, h) := by
        have hinv := wp_inv (wp_mono hkeeps fun _ _ h => h.1) choices
        rw [hrun] at hinv
        exact hinv
      exact recovered_named (hs.recoverable hplan hstart hbypass hdigests) hw'

/-! ### A runtime without a receipt -/

/-- The new files are there although their publication has failed, and their restoration is refused:
    there is no receipt, and the rollback has nothing to restore. -/
def publishedUnreceipted : List Ending :=
  [.done, .done, .done, .done, .done, .lost, .refused, .done, .done, .done]

theorem installPlan_unreceipted (server : Server γ ν) (plan : Plan γ ν) (start : World γ ν)
    (hchanged : plan.endpointsChanged = true) : ∃ e w h,
    (installPlan server plan).run (recorded step) publishedUnreceipted (start, []) =
      (some (some e), (w, h)) ∧ w.runtime = plan.candidate ∧
      w.store (.journal .subscriptionRuntime) = .holds [] := by
  unfold installPlan runActivation rollback finishRollback
  simp only [hchanged]
  exact ⟨_, _, _, rfl, rfl, rfl⟩

theorem sampleWorld_listed : Listed sampleServer sampleWorld := by
  refine ⟨_, sampleServer_endpoints 0x01010101, ?_⟩
  rw [sampleEndpoint_text]
  simp [sampleWorld]

/-- The activation has failed and its journal is clear, but the new runtime is still in place. -/
theorem sampleRuntime_notPrevious : Digests sampleServer ∧
    Committed () sampleMetadata [0x01010101] sampleWorld ∧ Listed sampleServer sampleWorld ∧
    ∃ e w h, (installSubscriptionRuntime sampleServer () sampleMetadata [0x01010101]
      [0x02020202]).run (recorded step) publishedUnreceipted (sampleWorld, []) =
        (some (some e), (w, h)) ∧ (∀ changed, ¬ Pending w.store changed) ∧
      ¬ Previous sampleWorld w := by
  refine ⟨sampleServer_digests, sampleWorld_committed, sampleWorld_listed, ?_⟩
  obtain ⟨e, w, h, hrun, hruntime, hjournal⟩ :=
    installPlan_unreceipted sampleServer samplePlan sampleWorld samplePlan_changed
  have hinstall := congrArg (fun program => program.run (recorded step) publishedUnreceipted
    (sampleWorld, [])) (installSubscriptionRuntime_eq makePlan_sample)
  refine ⟨e, w, h, hinstall.trans hrun, fun changed => not_pending_of_empty hjournal, ?_⟩
  intro hprevious
  have hnodes := congrArg Candidate.nodes (hruntime.symm.trans hprevious.runtime)
  simp [Plan.candidate, samplePlan, sampleWorld] at hnodes

/-- A crash after the publication. -/
theorem installPlan_crashed (server : Server γ ν) (plan : Plan γ ν) (start : World γ ν)
    (hchanged : plan.endpointsChanged = true) : ∃ w h,
    (installPlan server plan).run (recorded step) (List.replicate 6 .done) (start, []) =
      (none, (w, h)) ∧
      w.store (.journal .subscriptionRuntime) = .holds (pendingJournal true) := by
  unfold installPlan runActivation beginActivation
  simp only [hchanged]
  exact ⟨_, _, rfl, rfl⟩

/-- After it, a recovery that succeeds restores the old node. -/
theorem sampleCrash_recovers : Digests sampleServer ∧
    Committed () sampleMetadata [0x01010101] sampleWorld ∧ Listed sampleServer sampleWorld ∧
    ∃ w h, (installSubscriptionRuntime sampleServer () sampleMetadata [0x01010101]
      [0x02020202]).run (recorded step) (List.replicate 6 .done) (sampleWorld, []) =
        (none, (w, h)) ∧ ∀ w', Recoveries sampleServer w w' → ∀ choices w'',
      (activatePendingSubscription sampleServer).run.run step choices w' =
        (some (.ok true), w'') → Restored sampleServer w'' := by
  refine ⟨sampleServer_digests, sampleWorld_committed, sampleWorld_listed, ?_⟩
  obtain ⟨w, h, hrun, hjournal⟩ :=
    installPlan_crashed sampleServer samplePlan sampleWorld samplePlan_changed
  have hinstall := (congrArg (fun program => program.run (recorded step)
    (List.replicate 6 .done) (sampleWorld, []))
    (installSubscriptionRuntime_eq makePlan_sample)).trans hrun
  refine ⟨w, h, hinstall, ?_⟩
  exact (installSubscriptionRuntime_consistent_iff sampleServer_digests sampleWorld_committed
    sampleWorld_listed hinstall).2.2 (by simp) ⟨true, _, hjournal, rfl, rfl⟩

end SbGateway.ControlPlane.Subscription
