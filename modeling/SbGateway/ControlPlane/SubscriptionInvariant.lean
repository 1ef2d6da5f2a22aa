import SbGateway.ControlPlane.CommitPoint
import SbGateway.ControlPlane.SubscriptionRuntime

namespace SbGateway.ControlPlane.Subscription

open Lib
open Lib.Calls
open RuntimeConfig.Endpoints

/-!
# What holds throughout an activation

At every call of `installSubscriptionRuntime` the three stores are what the calls have made of them
so far.  `Trace` keeps what matters of these calls, `Sound` says what the stores are for a trace,
and `Allowed` is what a call needs to keep that.

* `sound_step` — an allowed call keeps `Sound`;
* `installPlan_keeps` — an activation makes allowed calls only, and its result tells how far it
  came.
-/

variable {γ ν : Type}

/-- The calls and how they ended. -/
abbrev History (γ ν : Type) := List (Call γ ν × Ending)

/-! ### Traces -/

/-- What the calls of a run have done. -/
structure Trace where
  /-- The snapshot of the new nodes was written. -/
  saved : Bool
  /-- The commit point was written. -/
  published : Bool
  /-- Whether the journal was last written as pending. -/
  journal : Option Bool
  /-- The candidate was published, and not taken back. -/
  installed : Bool
  /-- What the bypass list was last reduced to. -/
  pruned : Option (List String)
  deriving DecidableEq

/-- Nothing was done. -/
def Trace.init : Trace := ⟨false, false, none, false, none⟩

@[simps] def Trace.setSaved (t : Trace) (saved : Bool) : Trace := { t with saved }

@[simps] def Trace.setInstalled (t : Trace) (installed : Bool) : Trace := { t with installed }

@[simps] def Trace.setPruned (t : Trace) (pruned : Option (List String)) : Trace :=
  { t with pruned }

@[simps] def Trace.setJournal (t : Trace) (journal : Option Bool) : Trace := { t with journal }

@[simps] def Trace.setPublished (t : Trace) (published : Bool) : Trace := { t with published }

/-- A call that takes effect. -/
def Trace.next (t : Trace) : Call γ ν → Trace
  | .store (.write (.snapshot _) _) => t.setSaved true
  | .store (.write (.pointer .active) _) => t.setPublished true
  | .store (.write (.journal .subscriptionRuntime) document) =>
    t.setJournal (some (Document.isTrue document "pending"))
  | .publish _ => t.setInstalled true
  | .restore _ => t.setInstalled false
  | .syncEndpoints values true => t.setPruned (some values)
  | _ => t

/-- What the calls of a record have done. -/
def trace (h : History γ ν) : Trace :=
  h.foldl (fun t entry => if entry.2.takesEffect then t.next entry.1 else t) Trace.init

theorem trace_append (h : History γ ν) (op : Call γ ν) (ending : Ending) :
    trace (h ++ [(op, ending)]) = if ending.takesEffect then (trace h).next op else trace h := by
  simp [trace, List.foldl_append]

/-- The effect of a call on the world. -/
def Call.effect (w : World γ ν) : Call γ ν → World γ ν
  | .store (.write path value) => w.setStore (w.store.set path (.holds value))
  | .store (.remove path) => w.setStore (w.store.set path .absent)
  | .publish candidate => w.setRuntime candidate
  | .restore saved => w.setRuntime saved
  | .syncEndpoints values prune => w.sync values prune
  | _ => w

theorem step_eq (op : Call γ ν) (ending : Ending) (w : World γ ν) :
    (step op ending w).2 = if ending.takesEffect then op.effect w else w := by
  match op with
  | .store (.read _) | .store (.stat _) | .prepare _ | .savePrevious | .restart
  | .commitRuntime | .store (.write _ _) | .store (.remove _) => cases ending <;> rfl
  | .publish _ | .restore _ | .syncEndpoints _ _ => rfl

/-! ### The invariant -/

section Invariant

variable (server : Server γ ν) (plan : Plan γ ν) (start : World γ ν)

/-- The commit of the plan. -/
def newPointer : Document := (plan.commit server).pointer server.repository

/-- The nodes of the plan. -/
def newSnapshot : Snapshot ν := ⟨plan.nodesRevision server, plan.nodes⟩

/-- The nodes of the plan are stored. -/
def SnapshotSaved (store : Store γ ν) : Prop :=
  store (.snapshot (plan.nodesRevision server)) = .holds (newSnapshot server plan)

/-- The journal after its last write. -/
def journalAfter : Option Bool → File Document
  | none => start.store (.journal .subscriptionRuntime)
  | some true => .holds (pendingJournal plan.endpointsChanged)
  | some false => .holds []

/-- The documents are what the calls have made of them. -/
structure Documents (t : Trace) (store : Store γ ν) : Prop where
  active : store (.pointer .active) =
    if t.published then .holds (newPointer server plan) else start.store (.pointer .active)
  journal : store (.journal .subscriptionRuntime) = journalAfter plan start t.journal
  generations : ∀ revision, store (.generation revision) = start.store (.generation revision)
  snapshots : ∀ revision, store (.snapshot revision) = start.store (.snapshot revision) ∨
    revision = plan.nodesRevision server ∧ SnapshotSaved server plan store
  saved : t.saved = true → SnapshotSaved server plan store
  ordered : t.published = true → t.saved = true

/-- So are the runtime and the bypass list. -/
structure Deployed (t : Trace) (runtime : Candidate γ ν) (bypass : Finset String) : Prop where
  runtime : runtime = if t.installed then plan.candidate else start.runtime
  untouched : plan.endpointsChanged = false → bypass = start.bypass ∧ t.pruned = none
  pruned : ∀ values, t.pruned = some values →
    (values = plan.previousEndpoints ∨ values = plan.desiredEndpoints) ∧ bypass = values.toFinset
  grown : t.pruned = none → start.bypass ⊆ bypass ∧
    (t.installed = true → plan.desiredEndpoints.toFinset ⊆ bypass)

/-- The world is what the record says. -/
structure Sound (s : World γ ν × History γ ν) : Prop where
  documents : Documents server plan start (trace s.2) s.1.store
  deployed : Deployed plan start (trace s.2) s.1.runtime s.1.bypass

/-- What a call needs to keep the invariant. -/
def Allowed (s : World γ ν × History γ ν) : Call γ ν → Prop
  | .store (.read _) => True
  | .store (.stat _) => True
  | .store (.write (.pointer .active) document) =>
    document = newPointer server plan ∧ (trace s.2).saved = true
  | .store (.write (.pointer _) _) => True
  | .store (.write (.journal .subscriptionRuntime) document) =>
    document = [] ∨ document = pendingJournal plan.endpointsChanged
  | .store (.write (.snapshot revision) snapshot) =>
    revision = plan.nodesRevision server ∧ snapshot = newSnapshot server plan
  | .store _ => False
  | .publish candidate => candidate = plan.candidate ∧
    ((trace s.2).pruned = none → plan.desiredEndpoints.toFinset ⊆ s.1.bypass)
  | .restore saved => saved = start.runtime
  | .syncEndpoints values prune => plan.endpointsChanged = true ∧
    if prune then values = plan.previousEndpoints ∨ values = plan.desiredEndpoints
    else (trace s.2).pruned = none
  | _ => True

end Invariant

variable {server : Server γ ν} {plan : Plan γ ν} {start : World γ ν} {s : World γ ν × History γ ν}
  {t t' : Trace} {runtime : Candidate γ ν} {bypass : Finset String}

theorem sound_start : Sound server plan start (start, []) where
  documents := ⟨rfl, rfl, fun _ => rfl, fun _ => .inl rfl, nofun, nofun⟩
  deployed := ⟨rfl, fun _ => ⟨rfl, rfl⟩, nofun,
    fun _ => ⟨subset_rfl, nofun⟩⟩

/-- The other documents do not matter. -/
theorem Documents.congr (h : Documents server plan start t store)
    (hstore : ∀ path, (∀ name, path ≠ .pointer name) ∨ path = .pointer .active →
      store' path = store path) : Documents server plan start t store' := by
  have hsaved : SnapshotSaved server plan store → SnapshotSaved server plan store' := fun hw =>
    (hstore _ (.inl fun _ => by simp)).trans hw
  refine ⟨?_, ?_, fun r => ?_, fun r => ?_, fun hp => hsaved (h.saved hp), h.ordered⟩
  · rw [hstore _ (.inr rfl), h.active]
  · rw [hstore _ (.inl fun _ => by simp), h.journal]
  · rw [hstore _ (.inl fun _ => by simp)]
    exact h.generations r
  · rw [hstore _ (.inl fun _ => by simp)]
    exact (h.snapshots r).imp_right fun hr => ⟨hr.1, hsaved hr.2⟩

theorem Documents.publish (h : Documents server plan start t store) (hsaved : t.saved = true) :
    Documents server plan start (t.setPublished true)
      (store.set (.pointer .active) (.holds (newPointer server plan))) := by
  refine ⟨by simp, ?_, fun r => ?_, fun r => ?_, fun _ => ?_, fun _ => hsaved⟩
  · simpa using h.journal
  · simpa using h.generations r
  · simpa [SnapshotSaved] using h.snapshots r
  · simpa [SnapshotSaved] using h.saved hsaved

theorem Documents.writeJournal (h : Documents server plan start t store)
    (hdocument : document = [] ∨ document = pendingJournal plan.endpointsChanged) :
    Documents server plan start (t.setJournal (some (Document.isTrue document "pending")))
      (store.set (.journal .subscriptionRuntime) (.holds document)) := by
  have hafter : (.holds document : File Document) =
      journalAfter plan start (some (Document.isTrue document "pending")) := by
    rcases hdocument with rfl | rfl <;> rfl
  refine ⟨?_, by simpa using hafter, fun r => ?_, fun r => ?_, fun hp => ?_, h.ordered⟩
  · simpa using h.active
  · simpa using h.generations r
  · simpa [SnapshotSaved] using h.snapshots r
  · simpa [SnapshotSaved] using h.saved hp

theorem Documents.saveSnapshot (h : Documents server plan start t store) :
    Documents server plan start (t.setSaved true)
      (store.set (.snapshot (plan.nodesRevision server)) (.holds (newSnapshot server plan))) := by
  have hsaved : SnapshotSaved server plan (store.set (.snapshot (plan.nodesRevision server))
      (.holds (newSnapshot server plan))) := by simp [SnapshotSaved]
  refine ⟨?_, ?_, fun r => ?_, fun r => ?_, fun _ => hsaved, fun _ => rfl⟩
  · simpa using h.active
  · simpa using h.journal
  · simpa using h.generations r
  · by_cases hr : r = plan.nodesRevision server
    · exact .inr ⟨hr, hsaved⟩
    · refine .inl ?_
      have hne : Path.snapshot r ≠ .snapshot (plan.nodesRevision server) := by simpa using hr
      rw [Files.set_of_ne _ _ hne]
      exact (h.snapshots r).resolve_right fun h => hr h.1

theorem Documents.trace_congr (h : Documents server plan start t store)
    (hsaved : t'.saved = t.saved) (hpublished : t'.published = t.published)
    (hjournal : t'.journal = t.journal) : Documents server plan start t' store :=
  ⟨hpublished ▸ h.active, hjournal ▸ h.journal, h.generations, h.snapshots, hsaved ▸ h.saved,
    hpublished ▸ hsaved ▸ h.ordered⟩

section

variable (h : Deployed plan start t runtime bypass)
include h

theorem Deployed.trace_congr (hinstalled : t'.installed = t.installed)
    (hpruned : t'.pruned = t.pruned) : Deployed plan start t' runtime bypass :=
  ⟨hinstalled ▸ h.runtime, hpruned ▸ h.untouched, hpruned ▸ h.pruned,
    hpruned ▸ hinstalled ▸ h.grown⟩

/-- The runtime is replaced. -/
theorem Deployed.install
    (hgrown : installed = true → t.pruned = none → plan.desiredEndpoints.toFinset ⊆ bypass) :
    Deployed plan start (t.setInstalled installed)
      (if installed then plan.candidate else start.runtime) bypass :=
  ⟨rfl, h.untouched, h.pruned, fun hp => ⟨(h.grown hp).1, fun hi => hgrown hi hp⟩⟩

/-- The bypass list is reduced. -/
theorem Deployed.prune (hchanged : plan.endpointsChanged = true)
    (hvalues : values = plan.previousEndpoints ∨ values = plan.desiredEndpoints) :
    Deployed plan start (t.setPruned (some values)) runtime values.toFinset := by
  refine ⟨h.runtime, by simp [hchanged], fun v hv => ?_, nofun⟩
  cases hv
  exact ⟨hvalues, rfl⟩

/-- The bypass list is extended. -/
theorem Deployed.grow (values : List String) (hchanged : plan.endpointsChanged = true)
    (hunpruned : t.pruned = none) : Deployed plan start t runtime (bypass ∪ values.toFinset) := by
  have hsubset : bypass ⊆ bypass ∪ values.toFinset := Finset.subset_union_left
  refine ⟨h.runtime, by simp [hchanged], fun v hv => ?_, fun _ => ?_⟩
  · rw [hunpruned] at hv
    cases hv
  · obtain ⟨hstart, hdesired⟩ := h.grown hunpruned
    exact ⟨hstart.trans hsubset, fun hi => (hdesired hi).trans hsubset⟩

end

/-- A call that takes effect. -/
theorem sound_effect (hs : Sound server plan start (w, h))
    (hop : Allowed server plan start (w, h) op) :
    Documents server plan start ((trace h).next op) (op.effect w).store ∧
      Deployed plan start ((trace h).next op) (op.effect w).runtime (op.effect w).bypass := by
  obtain ⟨hdocuments, hdeployed⟩ := hs
  match op, hop with
  | .store (.read _), _ | .store (.stat _), _ | .prepare _, _ | .savePrevious, _ | .restart, _
  | .commitRuntime, _ => exact ⟨hdocuments, hdeployed⟩
  | .store (.write (.pointer .active) _), ⟨rfl, hsaved⟩ =>
    exact ⟨hdocuments.publish hsaved, hdeployed.trace_congr rfl rfl⟩
  | .store (.write (.pointer .lastKnownGood) document), _
  | .store (.write (.pointer .applyMetadata) document), _ =>
    refine ⟨hdocuments.congr fun path hpath => Files.set_of_ne _ _ ?_, hdeployed⟩
    rintro rfl
    rcases hpath with hpath | hpath
    · exact hpath _ rfl
    · cases hpath
  | .store (.write (.journal .subscriptionRuntime) _), hdocument =>
    exact ⟨hdocuments.writeJournal hdocument, hdeployed.trace_congr rfl rfl⟩
  | .store (.write (.snapshot _) _), ⟨rfl, rfl⟩ => 
    exact ⟨hdocuments.saveSnapshot, hdeployed.trace_congr rfl rfl⟩
  | .publish _, ⟨rfl, hgrown⟩ =>
    exact ⟨hdocuments.trace_congr rfl rfl rfl, hdeployed.install fun _ => hgrown⟩
  | .restore _, rfl =>
    exact ⟨hdocuments.trace_congr rfl rfl rfl, hdeployed.install nofun⟩
  | .syncEndpoints values true, ⟨hchanged, hvalues⟩ =>
    exact ⟨hdocuments.trace_congr rfl rfl rfl, hdeployed.prune hchanged hvalues⟩
  | .syncEndpoints values false, ⟨hchanged, hunpruned⟩ =>
    exact ⟨hdocuments, hdeployed.grow values hchanged hunpruned⟩

/-- **One step.** A call that is allowed keeps the invariant. -/
theorem sound_step (hs : Sound server plan start s)
    (hop : Allowed server plan start s op) (ending : Ending) :
    Sound server plan start (recorded step op ending s).2 := by
  obtain ⟨w, h⟩ := s
  have hsound : ∀ t' w', trace (h ++ [(op, ending)]) = t' → (step op ending w).2 = w' →
      Documents server plan start t' w'.store → Deployed plan start t' w'.runtime w'.bypass →
      Sound server plan start (recorded step op ending (w, h)).2 := by
    rintro _ _ rfl rfl hdocuments hdeployed
    exact ⟨hdocuments, hdeployed⟩
  have htrace := trace_append h op ending
  have hstep := step_eq op ending w
  cases heffect : ending.takesEffect with
  | false =>
    rw [heffect] at htrace hstep
    exact hsound _ _ htrace hstep hs.documents hs.deployed
  | true =>
    rw [heffect] at htrace hstep
    exact hsound _ _ htrace hstep (sound_effect hs hop).1 (sound_effect hs hop).2

/-! ### Programs -/

variable {α β : Type}

/-- The program keeps the invariant; `R` says what else is known of its result. -/
def Keeps (server : Server γ ν) (plan : Plan γ ν) (start : World γ ν) (program : Program γ ν α)
    (s : World γ ν × History γ ν) (R : α → World γ ν × History γ ν → Prop) : Prop :=
  wp (recorded step) (Sound server plan start) program
    (fun a s' => Sound server plan start s' ∧ R a s') s

variable {R : α → World γ ν × History γ ν → Prop}

theorem Keeps.pure (hs : Sound server plan start s) (h : R a s) :
    Keeps server plan start (pure a) s R :=
  ⟨hs, h⟩

theorem Keeps.bind {R' : β → World γ ν × History γ ν → Prop}
    (h : Keeps server plan start program s R)
    (hnext : ∀ a s', Sound server plan start s' → R a s' → Keeps server plan start (next a) s' R') :
    Keeps server plan start (program >>= next) s R' :=
  wp_bind.mpr (wp_mono h fun a s' ha => hnext a s' ha.1 ha.2)

theorem Keeps.call {R : Reply op → World γ ν × History γ ν → Prop}
    (hs : Sound server plan start s) (hop : Allowed server plan start s op)
    (hR : ∀ ending, R (step op ending s.1).1 (recorded step op ending s).2) :
    Keeps server plan start (perform op) s R :=
  ⟨hs, fun ending => ⟨sound_step hs hop ending, hR ending⟩⟩

theorem trace_recorded (op : Call γ ν) (ending : Ending) (s : World γ ν × History γ ν) :
    trace (recorded step op ending s).2.2 =
      if ending.takesEffect then (trace s.2).next op else trace s.2 :=
  trace_append ..

/-! ### Results -/

/-- Everything is installed and committed. -/
structure Installed (server : Server γ ν) (plan : Plan γ ν) (s : World γ ν × History γ ν) :
    Prop where
  installed : (trace s.2).installed = true
  pruned : plan.endpointsChanged = true → (trace s.2).pruned = some plan.desiredEndpoints
  named : ∃ document, s.1.store (.pointer .active) = .holds document ∧
    plan.namedBy server document = true

/-- How far an activation came, by its journal: not begun, not finished, or finished, in which case
    it is complete or was taken back. -/
def Outcome (server : Server γ ν) (plan : Plan γ ν) (start : World γ ν) (r : Option StageError)
    (s : World γ ν × History γ ν) : Prop :=
  ((trace s.2).journal = none ∧ r ≠ none ∧ (trace s.2).published = false ∧
    (trace s.2).installed = false ∧ s.1.bypass = start.bypass) ∨
  ((trace s.2).journal = some true ∧ r ≠ none) ∨
  ((trace s.2).journal = some false ∧ (Installed server plan s ∨
    (r ≠ none ∧ (plan.endpointsChanged = true →
      (trace s.2).pruned = some plan.previousEndpoints))))

theorem Installed.congr (h : Installed server plan s)
    (hinstalled : (trace s'.2).installed = (trace s.2).installed)
    (hpruned : (trace s'.2).pruned = (trace s.2).pruned)
    (hactive : s'.1.store (.pointer .active) = s.1.store (.pointer .active)) :
    Installed server plan s' :=
  ⟨hinstalled ▸ h.installed, hpruned ▸ h.pruned, hactive ▸ h.named⟩

/-- The receipt, if there is one, is of the files at the start. -/
def OwnReceipt (start : World γ ν) (receipt : Receipt γ ν) : Prop :=
  ∀ saved, receipt = some saved → saved = start.runtime

theorem ownReceipt_none (start : World γ ν) : OwnReceipt start none := by
  intro saved h
  cases h

/-- The digests are lowercase SHA-256 texts. -/
structure Digests (server : Server γ ν) : Prop where
  nodes : ∀ nodes, safeRevision (server.repository.nodesRevision nodes) = true
  runtime : ∀ candidate, safeRevision (server.runtimeRevision candidate) = true

theorem namedBy_newPointer (hdigests : Digests server) :
    plan.namedBy server (newPointer server plan) = true := by
  have hnodes := safeRevision_ne_empty (hdigests.nodes plan.nodes)
  have hruntime := safeRevision_ne_empty (hdigests.runtime plan.candidate)
  simp [Plan.namedBy, newPointer, CommitMetadata.pointer, Plan.commit, List.lookup, nullableString,
    Plan.nodesRevision, hnodes, hruntime]

/-! ### The parts of an activation -/

theorem eq_ok_of_failure_none {r : Except FileError Unit} (h : failure (r.mapError .file) = none) :
    r = .ok () := by
  cases r with
  | ok _ => rfl
  | error e => cases h

section Parts

variable (hs : Sound server plan start s)
include hs

/-- The calls that leave no trace. -/
theorem Keeps.quiet (hop : Allowed server plan start s op) (hnext : ∀ t : Trace, t.next op = t) :
    Keeps server plan start (perform op) s fun _ s' => trace s'.2 = trace s.2 :=
  .call hs hop fun ending => by rw [trace_recorded, hnext, ite_self]

theorem savePrevious_keeps :
    Keeps server plan start savePrevious s fun r s' =>
      trace s'.2 = trace s.2 ∧ s'.1 = s.1 ∧ ∀ saved, r = .ok saved → saved = s.1.runtime := by
  refine .call hs trivial fun ending => ⟨by rw [trace_recorded]; exact ite_self _, rfl, ?_⟩
  intro saved hsaved
  cases ending <;> cases hsaved
  rfl

/-- The files are the candidate's or the old ones; if the call succeeds, they are as asked. -/
theorem publishFiles_keeps
    (hgrown : (trace s.2).pruned = none → plan.desiredEndpoints.toFinset ⊆ s.1.bypass) :
    Keeps server plan start (publishFiles plan.candidate) s fun r s' =>
      ∃ installed, trace s'.2 = (trace s.2).setInstalled installed ∧
        (r = .ok () → installed = true) := by
  refine .call hs ⟨rfl, hgrown⟩ fun ending => ?_
  rw [trace_recorded]
  cases ending with
  | done | lost => exact ⟨true, rfl, fun _ => rfl⟩
  | refused => exact ⟨(trace s.2).installed, rfl, nofun⟩

theorem restoreFiles_keeps :
    Keeps server plan start (restoreFiles start.runtime) s fun _ s' =>
      ∃ installed, trace s'.2 = (trace s.2).setInstalled installed := by
  refine .call hs rfl fun ending => ?_
  rw [trace_recorded]
  cases ending with
  | done | lost => exact ⟨false, rfl⟩
  | refused => exact ⟨(trace s.2).installed, rfl⟩

theorem addEndpoints_keeps (hunpruned : (trace s.2).pruned = none)
    (hsame : plan.endpointsChanged = false → plan.desiredEndpoints.toFinset ⊆ start.bypass) :
    Keeps server plan start (syncWhenChanged plan.endpointsChanged plan.desiredEndpoints false) s
      fun r s' => trace s'.2 = trace s.2 ∧
        (r = none → plan.desiredEndpoints.toFinset ⊆ s'.1.bypass) := by
  unfold syncWhenChanged
  split
  · next hchanged =>
    refine .bind (R := fun r s' => trace s'.2 = trace s.2 ∧
      (r = .ok () → plan.desiredEndpoints.toFinset ⊆ s'.1.bypass))
      (.call hs ⟨hchanged, hunpruned⟩ fun ending => ⟨by rw [trace_recorded]; exact ite_self _, ?_⟩)
      fun r s' hs' hr => .pure hs' ⟨hr.1, fun hnone => hr.2 (eq_ok_of_failure_none hnone)⟩
    intro hok
    cases ending <;> cases hok
    exact Finset.subset_union_right
  · next hchanged =>
    have hfalse : plan.endpointsChanged = false := by simpa using hchanged
    refine .pure hs ⟨rfl, fun _ => ?_⟩
    rw [(hs.deployed.untouched hfalse).1]
    exact hsame hfalse

theorem prune_keeps (hvalues : values = plan.previousEndpoints ∨ values = plan.desiredEndpoints) :
    Keeps server plan start (syncWhenChanged plan.endpointsChanged values true) s fun r s' =>
      ∃ pruned, trace s'.2 = (trace s.2).setPruned pruned ∧
        (r = none → plan.endpointsChanged = true → pruned = some values) := by
  unfold syncWhenChanged
  split
  · next hchanged =>
    refine .bind (R := fun r s' => ∃ pruned, trace s'.2 = (trace s.2).setPruned pruned ∧
      (r = .ok () → pruned = some values)) (.call hs ⟨hchanged, hvalues⟩ fun ending => ?_) ?_
    · rw [trace_recorded]
      cases ending with
      | done | lost => exact ⟨some values, rfl, fun _ => rfl⟩
      | refused => exact ⟨(trace s.2).pruned, rfl, nofun⟩
    · rintro r s' hs' ⟨pruned, htrace, hok⟩
      exact .pure hs' ⟨pruned, htrace, fun hnone _ => hok (eq_ok_of_failure_none hnone)⟩
  · next hchanged =>
    exact .pure hs ⟨(trace s.2).pruned, rfl, fun _ h => absurd h hchanged⟩

/-- The journal is written, or it is as before. -/
theorem saveJournal_keeps
    (hdocument : document = [] ∨ document = pendingJournal plan.endpointsChanged) :
    Keeps server plan start (saveJournal document) s fun r s' =>
      ∃ journal, trace s'.2 = (trace s.2).setJournal journal ∧ s'.1.bypass = s.1.bypass ∧
        (journal = (trace s.2).journal ∨ journal = some (Document.isTrue document "pending")) ∧
        (r = .ok () → journal = some (Document.isTrue document "pending")) := by
  refine .call hs hdocument fun ending => ?_
  rw [trace_recorded]
  cases ending with
  | done | lost => exact ⟨_, rfl, rfl, .inr rfl, fun _ => rfl⟩
  | refused => exact ⟨(trace s.2).journal, rfl, rfl, .inl rfl, nofun⟩

theorem activateSubscription_keeps (hfresh : (trace s.2).installed = false)
    (hgrown : plan.desiredEndpoints.toFinset ⊆ s.1.bypass) :
    Keeps server plan start (activateSubscription plan.candidate) s fun r s' =>
      OwnReceipt start r.1 ∧ ∃ installed, trace s'.2 = (trace s.2).setInstalled installed ∧
        (r.2 = none → installed = true) := by
  refine .bind (savePrevious_keeps hs) ?_
  rintro (e | saved) s₁ hs₁ ⟨htrace₁, hworld, hsaved⟩
  · exact .pure hs₁ ⟨nofun, _, htrace₁, nofun⟩
  obtain rfl : saved = start.runtime := by
    rw [hsaved saved rfl, hs.deployed.runtime, hfresh]
    rfl
  refine .bind (publishFiles_keeps hs₁ fun _ => hworld ▸ hgrown) ?_
  rintro (e | _) s₂ hs₂ ⟨installed, htrace₂, hok⟩
  · -- there is no receipt for a publication that failed, whatever its restoration does
    refine .bind (restoreFiles_keeps hs₂) ?_
    rintro r s₃ hs₃ ⟨installed', htrace₃⟩
    refine .pure hs₃ ⟨nofun, installed', by rw [htrace₃, htrace₂, htrace₁]; rfl, ?_⟩
    intro hnone
    cases r <;> cases hnone
  · refine .bind (.quiet hs₂ trivial fun _ => rfl) fun r s₃ hs₃ htrace₃ => .pure hs₃ ?_
    refine ⟨fun saved h => (Option.some.inj h).symm, installed, ?_, fun _ => hok rfl⟩
    rw [htrace₃, htrace₂, htrace₁]

theorem rollbackSubscription_keeps (hreceipt : OwnReceipt start receipt) :
    Keeps server plan start (rollbackSubscription receipt) s fun _ s' =>
      ∃ installed, trace s'.2 = (trace s.2).setInstalled installed := by
  cases receipt with
  | none =>
    exact .bind (.quiet hs trivial fun _ => rfl) fun r s' hs' htrace => .pure hs' ⟨_, htrace⟩
  | some saved =>
    obtain rfl := hreceipt saved rfl
    refine .bind (restoreFiles_keeps hs) ?_
    rintro (e | _) s₁ hs₁ ⟨installed, htrace₁⟩
    · exact .pure hs₁ ⟨installed, htrace₁⟩
    · refine .bind (.quiet hs₁ trivial fun _ => rfl) fun r s₂ hs₂ htrace₂ => .pure hs₂ ?_
      exact ⟨installed, by rw [htrace₂, htrace₁]⟩

/-- A rollback takes the bypass list back before it clears the journal. -/
theorem rollback_keeps (hjournal : (trace s.2).journal = some true)
    (hreceipt : OwnReceipt start receipt) (stage : String) (cause : Err) :
    Keeps server plan start (rollback plan receipt stage cause) s (Outcome server plan start) := by
  refine .bind (rollbackSubscription_keeps hs hreceipt) ?_
  rintro runtimeErr s₁ hs₁ ⟨installed, htrace₁⟩
  refine .bind (prune_keeps hs₁ (.inl rfl)) ?_
  rintro listErr s₂ hs₂ ⟨pruned, htrace₂, hpruned⟩
  have hpending : (trace s₂.2).journal = some true := by simp [htrace₂, htrace₁, hjournal]
  cases herr : Err.joined runtimeErr listErr with
  | some e => exact .pure hs₂ (.inr (.inl ⟨hpending, by simp⟩))
  | none =>
    have hlist : listErr = none := by
      cases runtimeErr with
      | none => exact herr
      | some e => cases listErr <;> cases herr
    refine .bind (saveJournal_keeps hs₂ (.inl rfl)) ?_
    rintro r s₃ hs₃ ⟨journal, htrace₃, -, hwritten, -⟩
    have hresult : ∀ e : StageError, Outcome server plan start (some e) s₃ := by
      intro e
      rcases hwritten with hwritten | hwritten
      · exact .inr (.inl ⟨by simp [htrace₃, hwritten, hpending], by simp⟩)
      · refine .inr (.inr ⟨by rw [htrace₃, hwritten]; rfl, .inr ⟨by simp, fun hchanged => ?_⟩⟩)
        rw [htrace₃, htrace₂]
        exact hpruned hlist hchanged
    cases r with
    | error e => exact .pure hs₃ (hresult _)
    | ok _ => exact .pure hs₃ (hresult _)

/-- The end of a complete activation. -/
theorem finishActivation_keeps (hjournal : (trace s.2).journal = some true)
    (hinstalled : Installed server plan s) :
    Keeps server plan start finishActivation s (Outcome server plan start) := by
  have hactive : ∀ s' : World γ ν × History γ ν, Sound server plan start s' →
      (trace s'.2).published = (trace s.2).published →
      s'.1.store (.pointer .active) = s.1.store (.pointer .active) := by
    intro s' hs' hpublished
    rw [hs'.documents.active, hs.documents.active, hpublished]
  refine .bind (.quiet hs trivial fun _ => rfl) ?_
  rintro (e | _) s₁ hs₁ htrace₁
  · exact .pure hs₁ (.inr (.inl ⟨by rw [htrace₁, hjournal], by simp⟩))
  refine .bind (saveJournal_keeps hs₁ (.inl rfl)) ?_
  rintro r s₂ hs₂ ⟨journal, htrace₂, -, hwritten, hok⟩
  have hdone : journal = some false → Outcome server plan start none s₂ ∧
      ∀ e, Outcome server plan start (some e) s₂ := by
    rintro rfl
    have hkept : Installed server plan s₂ := by
      refine hinstalled.congr ?_ ?_ (hactive s₂ hs₂ ?_) <;> simp [htrace₂, htrace₁]
    exact ⟨.inr (.inr ⟨by simp [htrace₂], .inl hkept⟩),
      fun e => .inr (.inr ⟨by simp [htrace₂], .inl hkept⟩)⟩
  cases r with
  | ok _ => exact .pure hs₂ (hdone (hok rfl)).1
  | error e =>
    rcases hwritten with hwritten | hwritten
    · exact .pure hs₂ (.inr (.inl ⟨by simp [htrace₂, hwritten, htrace₁, hjournal], by simp⟩))
    · exact .pure hs₂ ((hdone hwritten).2 _)

/-- A commit or a repair changes the commit point at most; `Q` is what it does to the store. -/
theorem inStore_keeps (hprogram : Only (CommitCall (newPointer server plan)) program)
    (hdone : wp fileStep (fun _ => True) program Q s.1.store) (hsaved : (trace s.2).saved = true) :
      Keeps server plan start (inStore program) s fun r s' =>
      (∃ published, trace s'.2 = (trace s.2).setPublished published) ∧ Q r s'.1.store := by
  have hcalls : Only (fun op => ∃ request, op = Call.store request ∧
      CommitCall (newPointer server plan) request) (inStore program) := by
    refine only_embed ?_
    exact only_mono hprogram fun request hrequest => ⟨request, rfl, hrequest⟩
  have hstore : wp step (fun _ => True) (inStore program) (fun r w' => Q r w'.store) s.1 :=
    (wp_embed storePart _ _ _).mpr hdone
  suffices hkeeps : Keeps server plan start (inStore program) s fun _ s' =>
      ∃ published, trace s'.2 = (trace s.2).setPublished published from
    wp_mono (wp_and hkeeps (wp_recorded hstore)) fun r s' hr => ⟨hr.1.1, hr.1.2, hr.2⟩
  refine wp_weaken (wp_of_only hcalls ?_ ⟨hs, (trace s.2).published, rfl⟩) fun _ h => h.1
  rintro _ ending s' ⟨request, rfl, hrequest⟩ ⟨hs', published, htrace⟩
  have hsaved' : (trace s'.2).saved = true := by simp [htrace, hsaved]
  have hallowed : Allowed server plan start s' (.store request) := by
    match request, hrequest with
    | .read _, _ => exact trivial
    | .write (.pointer .active) _, .inr rfl => exact ⟨rfl, hsaved'⟩
    | .write (.pointer .active) _, .inl hne => exact absurd rfl hne
    | .write (.pointer .lastKnownGood) _, _ => exact trivial
    | .write (.pointer .applyMetadata) _, _ => exact trivial
  refine ⟨sound_step hs' hallowed ending, ?_⟩
  rw [trace_recorded]
  split
  · match request, hrequest with
    | .read _, _ => exact ⟨published, htrace⟩
    | .write (.pointer .active) _, _ => exact ⟨true, by rw [htrace]; rfl⟩
    | .write (.pointer .lastKnownGood) _, _ => exact ⟨published, htrace⟩
    | .write (.pointer .applyMetadata) _, _ => exact ⟨published, htrace⟩
  · exact ⟨published, htrace⟩

/-- A commit without an error, a reader that confirms it, and a repair. -/
theorem commit_keeps (hsaved : (trace s.2).saved = true) :
    Keeps server plan start
      (inStore (commitActiveDetailed server.repository (plan.commit server))) s fun r s' =>
        (∃ published, trace s'.2 = (trace s.2).setPublished published) ∧
          (r.2 = none → s'.1.store (.pointer .active) = .holds (newPointer server plan)) := by
  exact inStore_keeps hs only_commitActiveDetailed commitActiveDetailed_done hsaved

theorem reconcile_keeps (hsaved : (trace s.2).saved = true) :
    Keeps server plan start (inStore (reconcileCommitPointers server.repository)) s fun _ s' =>
      (∃ published, trace s'.2 = (trace s.2).setPublished published) ∧
        s'.1.store (.pointer .active) = s.1.store (.pointer .active) := by
  exact inStore_keeps hs (only_mono only_reconcileCommitPointers fun _ => .inl)
    (wp_mono reconcileCommitPointers_spec fun _ _ h => h.1) hsaved

theorem readActive_keeps :
    Keeps server plan start (inStore (readJSON (.pointer .active))) s fun r s' =>
      trace s'.2 = trace s.2 ∧
        (confirmed server plan r = true → ∃ document,
          s'.1.store (.pointer .active) = .holds document ∧
            plan.namedBy server document = true) := by
  show Keeps server plan start (perform (Call.store (.read (.pointer .active)))) s _
  refine .call hs trivial fun ending => ?_
  refine ⟨by rw [trace_recorded]; exact ite_self _, fun hconfirmed => ?_⟩
  show ∃ document, s.1.store (.pointer .active) = .holds document ∧ _
  have hreply : (step (.store (.read (.pointer .active))) ending s.1).1 =
      ending.answer (s.1.store (.pointer .active)).reply := rfl
  rw [hreply] at hconfirmed
  cases ending with
  | refused | lost => cases hconfirmed
  | done =>
    cases hfile : s.1.store (.pointer .active) with
    | absent | unreadable => rw [hfile] at hconfirmed; cases hconfirmed
    | holds document =>
      rw [hfile] at hconfirmed
      exact ⟨document, rfl, hconfirmed⟩

section

variable (hdigests : Digests server) (hsaved : (trace s.2).saved = true)
  (hjournal : (trace s.2).journal = some true)
include hdigests hsaved hjournal

theorem commitActivation_keeps (hinstalled : (trace s.2).installed = true)
    (hpruned : plan.endpointsChanged = true → (trace s.2).pruned = some plan.desiredEndpoints)
    (hreceipt : OwnReceipt start receipt) :
    Keeps server plan start (commitActivation server plan receipt) s
      (Outcome server plan start) := by
  refine .bind (commit_keeps hs hsaved) ?_
  rintro ⟨_, _ | e⟩ s₁ hs₁ ⟨⟨published, htrace₁⟩, hactive⟩
  · refine finishActivation_keeps hs₁ (by simp [htrace₁, hjournal])
      ⟨by simp [htrace₁, hinstalled], fun h => by simp [htrace₁, hpruned h], ?_⟩
    exact ⟨_, hactive rfl, namedBy_newPointer hdigests⟩
  refine .bind (readActive_keeps hs₁) ?_
  rintro reply s₂ hs₂ ⟨htrace₂, hconfirmed⟩
  have htrace₁₂ := htrace₂.trans htrace₁
  show Keeps server plan start (if confirmed server plan reply = true then _ else _) s₂ _
  split
  · next hyes =>
    refine .bind (reconcile_keeps hs₂ (by simp [htrace₁₂, hsaved])) ?_
    rintro (_ | e) s₃ hs₃ ⟨⟨published', htrace₃⟩, hsame⟩
    · refine finishActivation_keeps hs₃ (by simp [htrace₃, htrace₁₂, hjournal])
        ⟨by simp [htrace₃, htrace₁₂, hinstalled], fun h =>
          by simp [htrace₃, htrace₁₂, hpruned h], ?_⟩
      rw [hsame]
      exact hconfirmed hyes
    · exact .pure hs₃ (.inr (.inl ⟨by simp [htrace₃, htrace₁₂, hjournal], by simp⟩))
  · exact rollback_keeps hs₂ (by simp [htrace₁₂, hjournal]) hreceipt _ _

theorem runActivation_keeps (hfresh : (trace s.2).installed = false)
    (hunpruned : (trace s.2).pruned = none)
    (hsame : plan.endpointsChanged = false → plan.desiredEndpoints.toFinset ⊆ start.bypass) :
    Keeps server plan start (runActivation server plan) s (Outcome server plan start) := by
  refine .bind (addEndpoints_keeps hs hunpruned hsame) ?_
  rintro (_ | e) s₁ hs₁ ⟨htrace₁, hgrown⟩
  case some => exact rollback_keeps hs₁ (by rw [htrace₁, hjournal]) (ownReceipt_none start) _ _
  refine .bind (activateSubscription_keeps hs₁ (by rw [htrace₁, hfresh]) (hgrown rfl)) ?_
  rintro ⟨receipt, _ | e⟩ s₂ hs₂ ⟨hreceipt, installed, htrace₂, hinstalled⟩
  case some => exact rollback_keeps hs₂ (by simp [htrace₂, htrace₁, hjournal]) hreceipt _ _
  refine .bind (prune_keeps hs₂ (.inr rfl)) ?_
  rintro (_ | e) s₃ hs₃ ⟨pruned, htrace₃, hpruned⟩
  case some => exact rollback_keeps hs₃ (by simp [htrace₃, htrace₂, htrace₁, hjournal]) hreceipt _ _
  refine commitActivation_keeps hs₃ hdigests ?_ ?_ ?_ (fun h => ?_) hreceipt
  · simp [htrace₃, htrace₂, htrace₁, hsaved]
  · simp [htrace₃, htrace₂, htrace₁, hjournal]
  · simp [htrace₃, htrace₂, hinstalled rfl]
  · simp [htrace₃, hpruned rfl h]

end

theorem beginActivation_keeps (hstart : trace s.2 = Trace.init)
    (hbypass : s.1.bypass = start.bypass) :
    Keeps server plan start (beginActivation server plan) s fun r s' =>
      ∃ saved journal, trace s'.2 = (Trace.init.setSaved saved).setJournal journal ∧
        s'.1.bypass = start.bypass ∧ (r = none → saved = true ∧ journal = some true) ∧
        (journal = none ∨ journal = some true) := by
  have hprepare : Keeps server plan start (prepare plan.candidate) s fun _ s' =>
      trace s'.2 = Trace.init ∧ s'.1.bypass = start.bypass :=
    .call hs trivial fun ending => ⟨by rw [trace_recorded, hstart]; exact ite_self _, hbypass⟩
  refine .bind hprepare ?_
  rintro (e | _) s₁ hs₁ ⟨htrace₁, hbypass₁⟩
  · exact .pure hs₁ ⟨false, none, htrace₁, hbypass₁, nofun, .inl rfl⟩
  have hsnapshot : Keeps server plan start (saveDocument (.snapshot (plan.nodesRevision server))
      ⟨plan.nodesRevision server, plan.nodes⟩) s₁ fun r s' =>
        ∃ saved, trace s'.2 = Trace.init.setSaved saved ∧
          s'.1.bypass = start.bypass ∧ (r = .ok () → saved = true) := by
    show Keeps server plan start (perform (Call.store (.write _ _))) s₁ _
    refine .call hs₁ ⟨rfl, rfl⟩ fun ending => ?_
    rw [trace_recorded, htrace₁]
    cases ending with
    | done | lost => exact ⟨true, rfl, hbypass₁, fun _ => rfl⟩
    | refused => exact ⟨false, rfl, hbypass₁, nofun⟩
  refine .bind hsnapshot ?_
  rintro (e | _) s₂ hs₂ ⟨saved, htrace₂, hbypass₂, hsaved⟩
  · exact .pure hs₂ ⟨saved, none, htrace₂, hbypass₂, nofun, .inl rfl⟩
  obtain rfl := hsaved rfl
  refine .bind (saveJournal_keeps hs₂ (.inr rfl)) ?_
  rintro r s₃ hs₃ ⟨journal, htrace₃, hbypass₃, hwritten, hok⟩
  rw [htrace₂] at htrace₃ hwritten
  have hbypass := hbypass₃.trans hbypass₂
  cases r with
  | error e => exact .pure hs₃ ⟨true, journal, htrace₃, hbypass, nofun, hwritten⟩
  | ok _ => exact .pure hs₃ ⟨true, journal, htrace₃, hbypass, fun _ => ⟨rfl, hok rfl⟩, hwritten⟩

end Parts

/-- **The activation.** The invariant holds at every call, and the result tells how far it came. -/
theorem installPlan_keeps (hdigests : Digests server)
    (hsame : plan.endpointsChanged = false → plan.desiredEndpoints.toFinset ⊆ start.bypass) :
    Keeps server plan start (installPlan server plan) (start, []) (Outcome server plan start) := by
  refine .bind (beginActivation_keeps sound_start rfl rfl) ?_
  rintro (_ | e) s₁ hs₁ ⟨saved, journal, htrace, hbypass, hbegun, hjournal⟩
  · obtain ⟨rfl, rfl⟩ := hbegun rfl
    refine runActivation_keeps hs₁ hdigests ?_ ?_ ?_ ?_ hsame <;> rw [htrace] <;> rfl
  · refine .pure hs₁ ?_
    unfold Outcome
    rw [htrace]
    rcases hjournal with rfl | rfl
    · exact .inl ⟨rfl, by simp, rfl, rfl, hbypass⟩
    · exact .inr (.inl ⟨rfl, by simp⟩)

end SbGateway.ControlPlane.Subscription
